/-
What `repair` does to the characters of a source. Its report says it: from the report one can tell
how many of each character other than blanks are gone and how many have come. Each pass keeps the
balance of its rule, as often as it reports a hit; the balances of the passes add up.
-/
import MermaidPress.Proofs.Diagram.Rounds

namespace MermaidPress.Diagram

open Text

/-! ## Reports -/

/-- The report of `count` hits, which is left out where there are none. -/
def reported (change : ℕ → Change) (count : ℕ) : List Change :=
  if count = 0 then [] else [change count]

/-- What a repair reports, each kind of change for itself. -/
@[ext]
structure Account where
  /-- The number of pairs of parentheses that were taken away behind line breaks. -/
  removed : ℕ
  /-- The number of pairs of parentheses that were taken away around formulas. -/
  unwrapped : ℕ
  ranges : List Change
  /-- Whether arrows were mended. -/
  mended : Bool
  spacing : List Change
  isRange : ∀ change ∈ ranges, change.isRange = true
  isSpacing : ∀ change ∈ spacing, change.isSpacing = true

/-- The report of a `repair` with this account. -/
def Account.changes (account : Account) : List Change :=
  reported .parenthesesRemoved account.removed ++ reported .mathUnwrapped account.unwrapped ++
    account.ranges ++ (if account.mended then [.arrowsMended] else []) ++ account.spacing

theorem reported_length {α : Type} (change : ℕ → Change) (hits : List α) :
    (if hits.isEmpty then [] else [change hits.length]) = reported change hits.length := by
  cases hits with
  | nil => rfl
  | cons hit hits => rfl

/-! ## The account of a report -/

theorem mem_reported {change : ℕ → Change} {count : ℕ} {other : Change} :
    other ∈ reported change count ↔ count ≠ 0 ∧ other = change count := by
  unfold reported
  split
  · simp [*]
  · simp [*]

theorem filter_reported {change : ℕ → Change} {p : Change → Bool}
    (h : ∀ count, p (change count) = false) (count : ℕ) : (reported change count).filter p = [] := by
  refine List.filter_eq_nil_iff.2 fun other hmem => ?_
  obtain ⟨-, rfl⟩ := mem_reported.1 hmem
  simp [h]

theorem eq_of_ne_zero_iff {m n : ℕ} (h : ∀ count, m ≠ 0 ∧ count = m ↔ n ≠ 0 ∧ count = n) :
    m = n := by
  have hm := h m
  have hn := h n
  omega

namespace Account

variable (account : Account)

theorem filter_changes {p : Change → Bool} (hremoved : ∀ count, p (.parenthesesRemoved count) = false)
    (hunwrapped : ∀ count, p (.mathUnwrapped count) = false) (hmended : p .arrowsMended = false) :
    account.changes.filter p = account.ranges.filter p ++ account.spacing.filter p := by
  have harrows : (if account.mended then [Change.arrowsMended] else []).filter p = [] := by
    cases account.mended <;> simp [hmended]
  simp only [changes, List.filter_append, filter_reported hremoved, filter_reported hunwrapped,
    harrows, List.nil_append, List.append_nil]

theorem filter_isRange_changes : account.changes.filter Change.isRange = account.ranges := by
  have hranges := List.filter_eq_self.2 account.isRange
  have hspacing : account.spacing.filter Change.isRange = [] :=
    List.filter_eq_nil_iff.2 fun change hmem hrange => by
      have hchange := account.isSpacing change hmem
      rw [Change.isSpacing_eq_false_of_isRange hrange] at hchange
      cases hchange
  rw [account.filter_changes (fun _ => rfl) (fun _ => rfl) rfl, hranges, hspacing, List.append_nil]

theorem filter_isSpacing_changes : account.changes.filter Change.isSpacing = account.spacing := by
  have hspacing := List.filter_eq_self.2 account.isSpacing
  have hranges : account.ranges.filter Change.isSpacing = [] :=
    List.filter_eq_nil_iff.2 fun change hmem hchange => by
      rw [Change.isSpacing_eq_false_of_isRange (account.isRange change hmem)] at hchange
      cases hchange
  rw [account.filter_changes (fun _ => rfl) (fun _ => rfl) rfl, hranges, hspacing, List.nil_append]

theorem mem_changes_iff {change : Change} (hrange : change.isRange = false)
    (hspacing : change.isSpacing = false) : change ∈ account.changes ↔
      change ∈ reported .parenthesesRemoved account.removed ∨
      change ∈ reported .mathUnwrapped account.unwrapped ∨
      account.mended = true ∧ change = .arrowsMended := by
  have hranges : change ∉ account.ranges := fun hmem => by
    rw [account.isRange change hmem] at hrange
    cases hrange
  have hspaced : change ∉ account.spacing := fun hmem => by
    rw [account.isSpacing change hmem] at hspacing
    cases hspacing
  have hmended : change ∈ (if account.mended then [Change.arrowsMended] else []) ↔
      account.mended = true ∧ change = .arrowsMended := by
    split <;> simp [*]
  simp only [changes, List.mem_append, hmended, hranges, hspaced, or_false, or_assoc]

theorem parenthesesRemoved_mem_changes {count : ℕ} :
    .parenthesesRemoved count ∈ account.changes ↔
      account.removed ≠ 0 ∧ count = account.removed := by
  rw [account.mem_changes_iff rfl rfl]
  simp [mem_reported]

theorem mathUnwrapped_mem_changes {count : ℕ} :
    .mathUnwrapped count ∈ account.changes ↔
      account.unwrapped ≠ 0 ∧ count = account.unwrapped := by
  rw [account.mem_changes_iff rfl rfl]
  simp [mem_reported]

theorem arrowsMended_mem_changes : .arrowsMended ∈ account.changes ↔ account.mended = true := by
  rw [account.mem_changes_iff rfl rfl]
  simp [mem_reported]

/-- A report has one `Account`. -/
theorem changes_injective : Function.Injective changes := by
  intro a b h
  ext1
  case removed =>
    refine eq_of_ne_zero_iff fun count => ?_
    rw [← parenthesesRemoved_mem_changes, h, parenthesesRemoved_mem_changes]
  case unwrapped =>
    refine eq_of_ne_zero_iff fun count => ?_
    rw [← mathUnwrapped_mem_changes, h, mathUnwrapped_mem_changes]
  case mended => rw [Bool.eq_iff_iff, ← arrowsMended_mem_changes, h, arrowsMended_mem_changes]
  case ranges => rw [← filter_isRange_changes, h, filter_isRange_changes]
  case spacing => rw [← filter_isSpacing_changes, h, filter_isSpacing_changes]

end Account

/-! ## The balance of the passes -/

/-- The source after the passes over labels. -/
def relabelled (source : Text) : Text :=
  (spellOutRanges (unwrapFormulas (unwrapBehindLineBreaks source).1).1).1

variable {c : Char}

theorem count_flatMap_const {α : Type} (hits : List α) (t : Text) :
    (hits.flatMap fun _ => t).count c = hits.length * t.count c := by
  induction hits with
  | nil => simp
  | cons hit hits ih =>
    rw [List.flatMap_cons, List.count_append, ih, List.length_cons, Nat.succ_mul, Nat.add_comm]

theorem count_flatMap_isSome (notes : List (Option Change)) (t : Text) :
    (notes.flatMap fun note => if note.isSome then t else []).count c =
      (notes.filterMap id).length * t.count c := by
  induction notes with
  | nil => simp
  | cons note notes ih =>
    rw [List.flatMap_cons, List.count_append, ih]
    cases note with
    | none => simp
    | some change =>
      have hnotes : (some change :: notes).filterMap id = change :: notes.filterMap id := rfl
      rw [hnotes, List.length_cons, Nat.succ_mul, Nat.add_comm]
      rfl

/-- A rule whose hits gain nothing and all lose the same. -/
theorem count_of_loss {find : (t : Text) → Option (Hit Unit t)} {loss : Text}
    (h : Balances find (fun _ => []) fun _ => loss) (hc : isBlank c = false) (t : Text) :
    t.count c = (replaceHits find t).1.count c + (replaceHits find t).2.length * loss.count c := by
  have hcount := h.count_replaceHits hc t
  rw [count_flatMap_const, count_flatMap_const, List.count_nil, Nat.mul_zero] at hcount
  omega

theorem count_spellOutRanges (hc : isBlank c = false) (t : Text) :
    t.count c + (spellOutRanges t).2.length * " to  to ".toList.count c =
      (spellOutRanges t).1.count c + (spellOutRanges t).2.length * ['-', '-'].count c := by
  have hcount := balances_chainLabel?.count_replaceHits hc t
  rw [count_flatMap_isSome, count_flatMap_isSome] at hcount
  exact hcount

theorem isSpacing_of_mem_spacing {s t : Text} :
    ∀ change ∈ (spaceArrows s).2 ++ (quoteSubgraphs t).2, change.isSpacing = true := by
  intro change hmem
  rcases List.mem_append.1 hmem with hmem | hmem
  · exact isSpacing_of_mem_report rfl _ change hmem
  · exact isSpacing_of_mem_report rfl _ change hmem

/-! ## The balance of a repair -/

theorem changes_mend (source : Text) : (mend source).changes =
    (unwrapBehindLineBreaks source).2 ++ (unwrapFormulas (unwrapBehindLineBreaks source).1).2 ++
      (spellOutRanges (unwrapFormulas (unwrapBehindLineBreaks source).1).1).2 ++
      (mendArrows (relabelled source)).2 := rfl

theorem source_mend (source : Text) :
    (mend source).source = (mendArrows (relabelled source)).1 := rfl

theorem report_unwrapBehindLineBreaks (t : Text) : (unwrapBehindLineBreaks t).2 =
    reported .parenthesesRemoved (replaceHits lineBreakLabel? t).2.length :=
  reported_length _ _

theorem report_unwrapFormulas (t : Text) : (unwrapFormulas t).2 =
    reported .mathUnwrapped (replaceHits formulaLabel? t).2.length :=
  reported_length _ _

theorem report_mendArrows (t : Text) : (mendArrows t).2 =
    if !(replaceHits doubledArrow? t).2.isEmpty then [.arrowsMended] else [] := by
  have hreport : (mendArrows t).2 =
      if (replaceHits doubledArrow? t).2.isEmpty then [] else [.arrowsMended] := rfl
  rw [hreport]
  cases (replaceHits doubledArrow? t).2.isEmpty <;> rfl

theorem exists_account (source : Text) : ∃ account : Account,
    (repair source).changes = account.changes ∧
    account.removed = (replaceHits lineBreakLabel? source).2.length ∧
    account.unwrapped = (replaceHits formulaLabel? (unwrapBehindLineBreaks source).1).2.length ∧
    account.ranges = (spellOutRanges (unwrapFormulas (unwrapBehindLineBreaks source).1).1).2 ∧
    account.mended = !(replaceHits doubledArrow? (relabelled source)).2.isEmpty := by
  refine ⟨{
    removed := (replaceHits lineBreakLabel? source).2.length
    unwrapped := (replaceHits formulaLabel? (unwrapBehindLineBreaks source).1).2.length
    ranges := (spellOutRanges (unwrapFormulas (unwrapBehindLineBreaks source).1).1).2
    mended := !(replaceHits doubledArrow? (relabelled source)).2.isEmpty
    spacing := (spaceArrows (mend source).source).2 ++
      (quoteSubgraphs (spaced (mend source).source)).2
    isRange := isRange_of_mem_spellOutRanges
    isSpacing := isSpacing_of_mem_spacing },
    ?_, rfl, rfl, rfl, rfl⟩
  rw [changes_repair, changes_mend, report_unwrapBehindLineBreaks, report_unwrapFormulas,
    report_mendArrows]
  simp only [Account.changes, List.append_assoc]

/-- The balance of a `repair`: up to blanks the source and what is spelled out for its ranges make
up the repaired source, the parentheses and hyphens that the report counts and some arrow heads,
which are none where no arrow was mended. -/
theorem count_repair (source : Text) : ∃ account : Account, ∃ heads,
    (repair source).changes = account.changes ∧ (heads = 0 ↔ account.mended = false) ∧
    ∀ c, isBlank c = false →
      source.count c + account.ranges.length * " to  to ".toList.count c =
        (repair source).source.count c +
          (account.removed + account.unwrapped) * ['(', ')'].count c +
          account.ranges.length * ['-', '-'].count c + heads * ['>'].count c := by
  obtain ⟨account, hchanges, hremoved, hunwrapped, hranges, hmended⟩ := exists_account source
  refine ⟨account, (replaceHits doubledArrow? (relabelled source)).2.length, hchanges, ?_,
    fun c hc => ?_⟩
  · simp [hmended]
  · have hlineBreaks : source.count c = (unwrapBehindLineBreaks source).1.count c +
        account.removed * ['(', ')'].count c :=
      hremoved ▸ count_of_loss balances_lineBreakLabel? hc source
    have hformulas : (unwrapBehindLineBreaks source).1.count c =
        (unwrapFormulas (unwrapBehindLineBreaks source).1).1.count c +
          account.unwrapped * ['(', ')'].count c :=
      hunwrapped ▸ count_of_loss balances_formulaLabel? hc _
    have hspelled : (unwrapFormulas (unwrapBehindLineBreaks source).1).1.count c +
        account.ranges.length * " to  to ".toList.count c =
          (relabelled source).count c + account.ranges.length * ['-', '-'].count c :=
      hranges ▸ count_spellOutRanges hc _
    have harrows : (relabelled source).count c = (mend source).source.count c +
        (replaceHits doubledArrow? (relabelled source)).2.length * ['>'].count c :=
      count_of_loss balances_doubledArrow? hc _
    have hspaced : (mend source).source.count c = (spaced (mend source).source).count c :=
      count_of_loss balances_looseArrow? hc _
    have hquoted : (spaced (mend source).source).count c =
        (quoted (spaced (mend source).source)).count c :=
      count_of_loss balances_quotedSubgraph? hc _
    rw [source_repair, tidy, Nat.add_mul]
    omega

/-- What an account says about the characters of a source and of what `repair` makes of it. -/
structure Account.Conserves (account : Account) (source fixed : Text) : Prop where
  opening : source.count '(' = fixed.count '(' + (account.removed + account.unwrapped)
  closing : source.count ')' = fixed.count ')' + (account.removed + account.unwrapped)
  hyphens : source.count '-' = fixed.count '-' + 2 * account.ranges.length
  ts : fixed.count 't' = source.count 't' + 2 * account.ranges.length
  os : fixed.count 'o' = source.count 'o' + 2 * account.ranges.length
  heads_of_mended : account.mended = true → fixed.count '>' < source.count '>'
  heads_of_not_mended : account.mended = false → fixed.count '>' = source.count '>'
  others : ∀ c, isBlank c = false → c ∉ ['(', ')', '-', 't', 'o', '>'] →
    fixed.count c = source.count c

/-- **`repair` keeps what it does not report.** Each pair of parentheses in the report is one of
either kind less, each range two hyphens less and twice the word `to` more; arrow heads become fewer
where mended arrows are reported, and only there; any other character is there as often as before,
blanks aside. -/
theorem repair_conserves (source : Text) : ∃ account : Account,
    (∀ other : Account, (repair source).changes = other.changes ↔ other = account) ∧
    account.Conserves source (repair source).source := by
  obtain ⟨account, heads, hchanges, hheads, hcount⟩ := count_repair source
  have hhead : source.count '>' = (repair source).source.count '>' + heads := by
    simpa using hcount '>' (by decide)
  refine ⟨account, fun other => ?_, ?_⟩
  · rw [hchanges, Account.changes_injective.eq_iff, eq_comm]
  constructor
  case opening => simpa using hcount '(' (by decide)
  case closing => simpa using hcount ')' (by decide)
  case hyphens => simpa [Nat.mul_comm] using hcount '-' (by decide)
  case ts => simpa [Nat.mul_comm] using (hcount 't' (by decide)).symm
  case os => simpa [Nat.mul_comm] using (hcount 'o' (by decide)).symm
  case heads_of_mended =>
    intro hmended
    have hne : heads ≠ 0 := fun hzero => by simp [hheads.1 hzero] at hmended
    omega
  case heads_of_not_mended =>
    intro hmended
    have hzero : heads = 0 := hheads.2 hmended
    omega
  case others =>
    intro c hc hother
    have hspace : c ≠ ' ' := by
      rintro rfl
      cases hc
    simp only [List.mem_cons, List.not_mem_nil, or_false, not_or] at hother
    obtain ⟨hopen, hclose, hhyphen, ht, ho, hgreater⟩ := hother
    have hwords : " to  to ".toList.count c = 0 :=
      List.count_eq_zero.2 (by simp [hspace, ht, ho])
    have hpair : ['(', ')'].count c = 0 := List.count_eq_zero.2 (by simp [hopen, hclose])
    have hhyphens : ['-', '-'].count c = 0 := List.count_eq_zero.2 (by simp [hhyphen])
    have hheads : ['>'].count c = 0 := List.count_eq_zero.2 (by simp [hgreater])
    have hsame := hcount c hc
    rw [hwords, hpair, hhyphens, hheads] at hsame
    omega

end MermaidPress.Diagram
