/-
Texts and their byte offsets. A text is its list of characters; an offset counts
UTF-8 bytes, as documents are measured on disk. `splitAt?` and `slice?` answer only
where the offset lies between two characters, so a cut can never fall inside one.
-/

namespace MermaidPress

/-- A text is its list of characters. -/
abbrev Text := List Char

namespace Text

/-- The number of bytes of the text in UTF-8. -/
def byteLength : Text → Nat
  | [] => 0
  | c :: t => c.utf8Size + byteLength t

@[simp] theorem byteLength_nil : byteLength [] = 0 := rfl

@[simp] theorem byteLength_cons (c : Char) (t : Text) :
    byteLength (c :: t) = c.utf8Size + byteLength t := rfl

@[simp] theorem byteLength_append (s t : Text) :
    byteLength (s ++ t) = byteLength s + byteLength t := by
  induction s with
  | nil => simp
  | cons c s ih => simp [ih, Nat.add_assoc]

/-- The text before byte offset `n` and the text from there on; nothing where `n` is past
the end or inside a character. -/
def splitAt? : Nat → Text → Option (Text × Text)
  | 0, t => some ([], t)
  | _ + 1, [] => none
  | n + 1, c :: t =>
    if c.utf8Size ≤ n + 1 then
      (splitAt? (n + 1 - c.utf8Size) t).map fun (before, after) => (c :: before, after)
    else none

/-- The text between two byte offsets; nothing where they are reversed, past the end or
inside a character. -/
def slice? (t : Text) (start stop : Nat) : Option Text :=
  if start ≤ stop then do
    let (before, _) ← splitAt? stop t
    let (_, middle) ← splitAt? start before
    some middle
  else none

/-- The text with what lies between two byte offsets replaced; nothing where the slice
does not exist. -/
def replaceSlice? (t : Text) (start stop : Nat) (replacement : Text) : Option Text :=
  if start ≤ stop then do
    let (before, after) ← splitAt? stop t
    let (kept, _) ← splitAt? start before
    some (kept ++ replacement ++ after)
  else none

/-- A cut loses nothing, and it falls at the offset asked for. -/
theorem splitAt?_eq_some {n : Nat} {t before after : Text}
    (h : splitAt? n t = some (before, after)) : t = before ++ after ∧ byteLength before = n := by
  fun_induction splitAt? n t generalizing before after with
  | case1 t => simp_all
  | case2 => simp at h
  | case3 n c t hc ih =>
    obtain ⟨⟨b, a⟩, hb, heq⟩ := Option.map_eq_some_iff.1 h
    simp only [Prod.mk.injEq] at heq
    obtain ⟨rfl, rfl⟩ := heq
    obtain ⟨ht, hn⟩ := ih hb
    subst ht
    refine ⟨rfl, ?_⟩
    rw [byteLength_cons, hn]
    omega
  | case4 => simp at h

theorem splitAt?_byteLength (before after : Text) :
    splitAt? (byteLength before) (before ++ after) = some (before, after) := by
  induction before with
  | nil => simp [splitAt?]
  | cons c s ih =>
    have hc : 0 < c.utf8Size := c.utf8Size_pos
    obtain ⟨k, hk⟩ : ∃ k, c.utf8Size + byteLength s = k + 1 :=
      ⟨c.utf8Size + byteLength s - 1, by omega⟩
    rw [byteLength_cons, hk, List.cons_append, splitAt?]
    rw [if_pos (by omega), show k + 1 - c.utf8Size = byteLength s by omega, ih]
    rfl

/-- The text after `lead`, where the text begins with it. -/
def after? : (lead t : Text) → Option Text
  | [], t => some t
  | _ :: _, [] => none
  | c :: lead, d :: t => if c = d then after? lead t else none

/-- Every end of the text, the text itself first and the empty one last. -/
def ends : Text → List Text
  | [] => [[]]
  | c :: t => (c :: t) :: ends t

/-- Whether `needle` occurs in the text. -/
def includes (needle : Text) (t : Text) : Bool :=
  (ends t).any fun s => (after? needle s).isSome

/-- What stands before the first occurrence of `needle`, and what stands after it. -/
def cut? (needle : Text) : Text → Option (Text × Text)
  | [] => (after? needle []).map fun rest => ([], rest)
  | c :: t =>
    match after? needle (c :: t) with
    | some rest => some ([], rest)
    | none => (cut? needle t).map fun (before, rest) => (c :: before, rest)

theorem eq_append_of_after? {lead t rest : Text} (h : after? lead t = some rest) :
    t = lead ++ rest := by
  fun_induction after? lead t with
  | case1 t => simp_all
  | case2 => contradiction
  | case3 lead d t ih => rw [ih h, List.cons_append]
  | case4 => contradiction

theorem after?_append (lead rest : Text) : after? lead (lead ++ rest) = some rest := by
  induction lead with
  | nil => rfl
  | cons c lead ih => rw [List.cons_append, after?, if_pos rfl, ih]

/-- A cut at a needle loses nothing. -/
theorem eq_append_of_cut? {needle t before rest : Text} (h : cut? needle t = some (before, rest)) :
    t = before ++ needle ++ rest := by
  induction t generalizing before with
  | nil =>
    rw [cut?] at h
    obtain ⟨r, hr, heq⟩ := Option.map_eq_some_iff.1 h
    simp only [Prod.mk.injEq] at heq
    obtain ⟨rfl, rfl⟩ := heq
    simpa using eq_append_of_after? hr
  | cons c t ih =>
    rw [cut?] at h
    split at h
    · rename_i r hr
      simp only [Option.some.injEq, Prod.mk.injEq] at h
      obtain ⟨rfl, rfl⟩ := h
      simpa using eq_append_of_after? hr
    · obtain ⟨⟨b, r⟩, hb, heq⟩ := Option.map_eq_some_iff.1 h
      simp only [Prod.mk.injEq] at heq
      obtain ⟨rfl, rfl⟩ := heq
      rw [ih hb]
      simp

/-- What stands before the first `c`, and what stands after it. -/
def upTo? (c : Char) (t : Text) : Option (Text × Text) :=
  match t.dropWhile (· != c) with
  | [] => none
  | _ :: rest => some (t.takeWhile (· != c), rest)

theorem upTo?_eq_some {c : Char} {t before rest : Text} (h : upTo? c t = some (before, rest)) :
    t = before ++ c :: rest ∧ c ∉ before := by
  rw [upTo?] at h
  split at h
  · simp at h
  · rename_i d r hr
    simp only [Option.some.injEq, Prod.mk.injEq] at h
    obtain ⟨rfl, rfl⟩ := h
    have hd : d = c := by
      have := List.head?_dropWhile_not (· != c) t
      rw [hr] at this
      simpa using this
    subst hd
    refine ⟨?_, fun hc => ?_⟩
    · rw [← hr]
      exact List.takeWhile_append_dropWhile.symm
    · have := List.all_takeWhile (p := (· != d)) (l := t)
      simpa using List.all_eq_true.1 this d hc

/-- The ASCII letters of the text in lower case. -/
def toLowerAscii (t : Text) : Text := t.map Char.toLower

end Text
end MermaidPress
