/-
Characters that terminals act on. A log writes the most harmful of them as escapes. Where
colours are not wanted, whole control sequences are taken out of a text: a machine of modes
follows each sequence to its end, one character at a time.
-/
import MermaidPress.Text.Basic

namespace MermaidPress.Terminal

/-- A character as it stands in a log. -/
def logged (c : Char) : Text :=
  if c = '\x07' then "\\x07".toList
  else if c = '\x08' then "\\x08".toList
  else if c = '\x0c' then "\\x0c".toList
  else if c = '\x1b' then "\\x1b".toList
  else if c = '\x7f' then "\\x7f".toList
  else if 128 ≤ c.toNat ∧ c.toNat < 160 then
    "\\u\x7b".toList ++ Nat.toDigits 16 c.toNat ++ ['\x7d']
  else [c]

/-- Where a place of a text lies: outside all control sequences or in which part of one. -/
inductive Mode
  | outside
  /-- Behind the escape character. -/
  | escape
  /-- In a sequence of a few characters. -/
  | short
  /-- In a sequence with parameters, which a letter or a sign like one ends. -/
  | parameters
  /-- At the head of a string for a device. -/
  | device
  /-- In the numbers at its head. -/
  | deviceNumbers
  /-- In the marks behind those. -/
  | deviceMarks
  /-- In a string that no visible character ends. -/
  | string
  /-- In a command for the system, which the bell may end. -/
  | command
  deriving DecidableEq, Repr

/-- Whether a character ends a string: one of its bytes is the terminator. -/
def endsString (c : Char) : Bool := (String.utf8EncodeChar c).contains 0x9c

/-- The mode behind a character. -/
def Mode.next (mode : Mode) (c : Char) : Mode :=
  if c = '\x1b' then escape
  else if c = '\x18' || c = '\x1a' then outside
  else
    match mode with
    | outside => outside
    | escape =>
      if c = '[' then parameters
      else if c = ']' then command
      else if c = 'P' then device
      else if c = 'X' || c = '^' || c = '_' then string
      else if ' ' ≤ c && c ≤ '/' then short
      else if '0' ≤ c && c ≤ '~' then outside
      else escape
    | short => if '0' ≤ c && c ≤ '~' then outside else short
    | parameters => if '@' ≤ c && c ≤ '~' then outside else parameters
    | device =>
      if '@' ≤ c && c ≤ '~' then string
      else if '0' ≤ c && c ≤ '?' then deviceNumbers
      else if ' ' ≤ c && c ≤ '/' then deviceMarks
      else device
    | deviceNumbers =>
      if '<' ≤ c && c ≤ '~' then string
      else if ' ' ≤ c && c ≤ '/' then deviceMarks
      else deviceNumbers
    | deviceMarks => if '0' ≤ c && c ≤ '~' then string else deviceMarks
    | string => if endsString c then outside else string
    | command => if c = '\x07' then outside else command

/-- Whether line breaks and tabs are carried out in the midst of a sequence. -/
def Mode.keepsLayout : Mode → Bool
  | escape | short | parameters => true
  | outside | device | deviceNumbers | deviceMarks | string | command => false

/-- Line breaks, tabs and page breaks. -/
def isLayout (c : Char) : Bool := c = '\t' || c = '\n' || c = '\x0c' || c = '\r'

/-- Whether a character shows outside of sequences. -/
def shows (c : Char) : Bool := (' ' ≤ c && c ≠ '\x7f') || isLayout c

/-- What shows of a text that begins in a mode. A line break or a tab in the midst of a
sequence interrupts it: the text behind it shows, up to the next control character. A
character beyond ASCII among that text ends the sequence for good. -/
def plainFrom (mode : Mode) (isInterrupted : Bool) : Text → Text
  | [] => []
  | c :: rest =>
    if mode = .outside || isInterrupted then
      if shows c then
        c :: plainFrom (if c.toNat < 128 then mode else .outside) isInterrupted rest
      else plainFrom (mode.next c) false rest
    else if mode.keepsLayout && isLayout c then c :: plainFrom mode true rest
    else plainFrom (mode.next c) false rest

/-- A text without control sequences and control characters. -/
def plain (t : Text) : Text := plainFrom .outside false t

end MermaidPress.Terminal
