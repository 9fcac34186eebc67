/-
JSON values and their compact text. An object has its members in the order of their keys,
each key once; whole numbers keep their exact value and other numbers are doubles.
-/
import MermaidPress.Decimal.Layout

namespace MermaidPress

/-- A number as JSON has it. -/
inductive Json.Number
  | natural (n : Nat)
  | negative (n : Nat)
  | float (x : Float)

/-- A JSON value. -/
inductive Json
  | null
  | bool (b : Bool)
  | number (n : Json.Number)
  | string (t : Text)
  | array (items : List Json)
  | object (members : List (Text × Json))

namespace Json

/-- Numbers are positional from a hundred thousandth up to below ten to the sixteenth; a
whole double has `.0` behind it, an exponent always has a sign, and a tie goes to the even
digit. -/
def Number.layout : Decimal.Layout where
  positional power := -5 ≤ power && power ≤ 15
  wholeSuffix := ".0".toList
  exponentSign := ['+']
  tie := .even

/-- The text of a number. -/
def Number.write : Number → Text
  | natural n => Nat.toDigits 10 n
  | negative n => '-' :: Nat.toDigits 10 n
  | float x => Number.layout.writeFloat x

/-- Whether a number counts as true: it is neither zero nor no number. -/
def Number.isTruthy : Number → Bool
  | natural n => n != 0
  | negative n => n != 0
  | float x => x != 0.0 && !x.isNaN

/-- Whether a value counts as true, as scripts of a page see it. -/
def isTruthy : Json → Bool
  | null => false
  | bool b => b
  | number n => n.isTruthy
  | string t => !t.isEmpty
  | array _ | object _ => true

private def hexDigit (n : Nat) : Char := (Nat.digitChar n)

/-- A character inside a quoted text. -/
def escape (c : Char) : Text :=
  if c = '"' then ['\\', '"']
  else if c = '\\' then ['\\', '\\']
  else if c = '\n' then ['\\', 'n']
  else if c = '\r' then ['\\', 'r']
  else if c = '\t' then ['\\', 't']
  else if c.toNat = 8 then ['\\', 'b']
  else if c.toNat = 12 then ['\\', 'f']
  else if c.toNat < 32 then
    ['\\', 'u', '0', '0', hexDigit (c.toNat / 16), hexDigit (c.toNat % 16)]
  else [c]

/-- A text in quotes. -/
def quote (t : Text) : Text := '"' :: t.flatMap escape ++ ['"']

mutual

/-- The compact text of a value: no blanks, members in their order. -/
def write : Json → Text
  | null => "null".toList
  | bool true => "true".toList
  | bool false => "false".toList
  | number n => n.write
  | string t => quote t
  | array items => '[' :: writeItems items ++ [']']
  | object members => '\x7b' :: writeMembers members ++ ['\x7d']

/-- The items of an array, separated by commas. -/
def writeItems : List Json → Text
  | [] => []
  | [item] => write item
  | item :: rest => write item ++ ',' :: writeItems rest

/-- The members of an object, separated by commas. -/
def writeMembers : List (Text × Json) → Text
  | [] => []
  | [(key, value)] => quote key ++ ':' :: write value
  | (key, value) :: rest => quote key ++ ':' :: write value ++ ',' :: writeMembers rest

end

/-- Puts a member at its place among members that are in order; a key that is there already
gets the new value. -/
def insertMember (key : Text) (value : Json) : List (Text × Json) → List (Text × Json)
  | [] => [(key, value)]
  | (k, v) :: rest =>
    if key = k then (key, value) :: rest
    else if key < k then (key, value) :: (k, v) :: rest
    else (k, v) :: insertMember key value rest

/-- The object with these members, of which the last of each key counts. -/
def ofMembers (members : List (Text × Json)) : Json :=
  object (members.foldl (fun sofar (key, value) => insertMember key value sofar) [])

end Json
end MermaidPress
