/-
Values of TOML and the tables of a document. A table remembers how it came to be, because
that decides who may still add to it: a header may define a table once and may pass through
any other, dotted keys may only pass through tables without a header of their own and make
them theirs, and a table in braces is closed. Entries keep the order in which they were made.
-/
import MermaidPress.Toml.Fault

namespace MermaidPress.Toml

/-- How a table came to be. -/
inductive Origin
  /-- On the way to the table of a header. -/
  | implied
  /-- By dotted keys. -/
  | dotted
  /-- By its own header. -/
  | header
  /-- In braces, as a value. -/
  | inline
  deriving DecidableEq, Repr

/-- A value. -/
inductive Value
  | string (text : Text)
  | integer (n : Int)
  | float (x : Float)
  | boolean (b : Bool)
  /-- A number that nothing can be made of, though it is spelled as it may be. -/
  | unreadable
  /-- A date, a time or both, as it is spelled. -/
  | moment (text : Text)
  | array (items : List Value)
  /-- The tables of a header in double brackets. -/
  | tables (elements : List (List (Text × Value)))
  | table (origin : Origin) (entries : List (Text × Value))

/-- The entries of a table. -/
abbrev Entries := List (Text × Value)

mutual

/-- Whether a value has a meaning, and all values in it have. -/
def Value.isReadable : Value → Bool
  | .unreadable => false
  | .array items => areReadable items
  | .tables elements => holdReadable elements
  | .table _ entries => hasReadable entries
  | .string _ | .integer _ | .float _ | .boolean _ | .moment _ => true

/-- Whether all values have a meaning. -/
def areReadable : List Value → Bool
  | [] => true
  | value :: rest => value.isReadable && areReadable rest

/-- Whether all values of all tables have a meaning. -/
def holdReadable : List (List (Text × Value)) → Bool
  | [] => true
  | entries :: rest => hasReadable entries && holdReadable rest

/-- Whether all values of a table have a meaning. -/
def hasReadable : List (Text × Value) → Bool
  | [] => true
  | (_, value) :: rest => value.isReadable && hasReadable rest

end

namespace Entries

/-- The value of a key. -/
def get? (entries : Entries) (key : Text) : Option Value :=
  (entries.find? fun entry => entry.1 = key).map (·.2)

/-- The entries with a value under a key, in its old place if the key was there. -/
def set (entries : Entries) (key : Text) (value : Value) : Entries :=
  match entries with
  | [] => [(key, value)]
  | entry :: rest => if entry.1 = key then (key, value) :: rest else entry :: set rest key value

/-- The key holds the value that was set. -/
theorem get?_set_self (entries : Entries) (key : Text) (value : Value) :
    (entries.set key value).get? key = some value := by
  induction entries with
  | nil => simp [set, get?]
  | cons entry rest ih =>
    rw [set]
    split
    · simp [get?]
    · rename_i h
      simpa [get?, h] using ih

/-- Every other key holds what it held. -/
theorem get?_set_other (entries : Entries) {key other : Text} (value : Value) (h : other ≠ key) :
    (entries.set key value).get? other = entries.get? other := by
  induction entries with
  | nil => simp [set, get?, Ne.symm h]
  | cons entry rest ih =>
    rw [set]
    split
    · rename_i hk
      simp [get?, hk, Ne.symm h]
    · by_cases ho : entry.1 = other
      · simp [get?, ho]
      · simpa [get?, ho] using ih

/-- A table: how it came to be, and its entries. -/
abbrev Shape := Origin × Entries

/-- The origin of a table once keys with the origin `made` have passed through it: dotted keys
make it theirs. -/
def passed (made origin : Origin) : Origin := if made = .dotted then .dotted else origin

/-- Changes the table that a path leads to. Tables that are missing on the way are made with
the origin `made`; an array of tables is entered at its last element. -/
def change (made : Origin) (act : Origin → Entries → Except Fault Shape) :
    List Text → Origin → Entries → Except Fault Shape
  | [], origin, entries => act origin entries
  | key :: path, here, entries =>
    match entries.get? key with
    | none => do
      let (origin, inner) ← change made act path made []
      .ok (here, entries.set key (.table origin inner))
    | some (.table origin inner) =>
      if origin = .inline then .error .closedValue
      else if made = .dotted ∧ origin = .header then .error .duplicateKey
      else do
        let (origin, inner) ← change made act path origin inner
        .ok (here, entries.set key (.table (passed made origin) inner))
    | some (.tables elements) => do
      let (_, inner) ← change made act path .header (elements.getLast?.getD [])
      .ok (here, entries.set key (.tables (elements.dropLast ++ [inner])))
    | some _ => .error .closedValue

/-- Puts a new entry into the table that dotted keys lead to from the table `here`. Tables
that were only on the way to a header are from now on those of dotted keys. -/
def assign (here : Origin) (entries : Entries) (path : List Text) (key : Text) (value : Value) :
    Except Fault Shape :=
  change .dotted (fun origin inner =>
    if path ≠ [] ∧ origin = .header then .error .duplicateKey
    else if (inner.get? key).isSome then .error .duplicateKey
    else .ok (origin, inner.set key value)) path here entries

/-- Defines the table of a header. -/
def define (root : Entries) (path : List Text) (key : Text) : Except Fault Shape :=
  change .implied (fun origin inner =>
    match inner.get? key with
    | none => .ok (origin, inner.set key (.table .header []))
    | some (.table .implied entries) => .ok (origin, inner.set key (.table .header entries))
    | some _ => .error .duplicateKey) path .header root

/-- Begins a new table in the array of a header in double brackets. -/
def append (root : Entries) (path : List Text) (key : Text) : Except Fault Shape :=
  change .implied (fun origin inner =>
    match inner.get? key with
    | none => .ok (origin, inner.set key (.tables [[]]))
    | some (.tables elements) => .ok (origin, inner.set key (.tables (elements ++ [[]])))
    | some _ => .error .duplicateKey) path .header root

end Entries
end MermaidPress.Toml
