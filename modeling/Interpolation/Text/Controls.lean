import Interpolation.Text.Utf8

/-!
# Interpolation.Text.Controls

Texts **without controls**, for a device that prints characters and understands nothing else. What
is left out are control characters, white space apart, and control sequences: an escape character
with what follows it up to the character that ends the sequence.

Design points:

* The shape of sequences is that of the standard ECMA-48, read as terminals read it. A sequence that
  is not finished takes the rest of the text with it, but a new escape character begins a new one,
  and two control characters (U+0018, U+001A) break it off.
* White space inside a sequence is printed, and what follows is printed too, up to the next control
  character: there the sequence goes on. Inside a string of a sequence nothing is printed.
* The end of a string is the byte 0x9C, wherever it occurs in the bytes of the text.
-/

namespace Interpolation

/-- Where a reader of control sequences stands. -/
inductive SequenceState
  /-- Outside of any sequence. -/
  | outside
  /-- After the escape character. -/
  | escape
  /-- After the escape character and other characters that do not end the sequence. -/
  | escapeRest
  /-- In a control sequence proper. -/
  | control
  /-- In the part of a device control string that stands before the string. -/
  | deviceControl
  /-- In a string that only the byte 0x9C ends. -/
  | string
  /-- In a command for the operating system, which the character U+0007 ends. -/
  | command
  deriving DecidableEq, Repr

namespace SequenceState

/-- Is the code point of the character between the two bounds? -/
def within (low high : Nat) (c : Char) : Bool := low ≤ c.toNat && c.toNat ≤ high

/-- The state after a character, in the middle of a sequence or outside of one. -/
def next (s : SequenceState) (c : Char) : SequenceState :=
  if c.toNat = 0x1B then .escape
  else if c.toNat = 0x18 ∨ c.toNat = 0x1A then .outside
  else match s with
    | .outside => .outside
    | .escape =>
      if c = '[' then .control
      else if c = ']' then .command
      else if c = 'P' then .deviceControl
      else if c = 'X' ∨ c = '^' ∨ c = '_' then .string
      else if within 0x20 0x2F c then .escapeRest
      else if within 0x30 0x7E c then .outside
      else .escape
    | .escapeRest => if within 0x30 0x7E c then .outside else .escapeRest
    | .control => if within 0x40 0x7E c then .outside else .control
    | .deviceControl => if within 0x40 0x7E c then .string else .deviceControl
    | .string => if 0x9C ∈ Text.toBytes [c] then .outside else .string
    | .command => if c.toNat = 7 then .outside else .command

/-- Is white space printed in this state? -/
def printsSpace : SequenceState → Bool
  | .outside | .escape | .escapeRest | .control => true
  | .deviceControl | .string | .command => false

end SequenceState

/-- Is the character white space of ASCII that moves the place where a device prints? -/
def isFormatEffector (c : Char) : Bool := c == '\t' || c == '\n' || c == Char.ofNat 0xC || c == '\r'

/-- Does the device print the character? -/
def isPrinted (c : Char) : Bool := isFormatEffector c || (0x20 ≤ c.toNat && c.toNat ≠ 0x7F)

namespace Text

/-- The characters that are printed of a text that goes on in the state `s`; with `printing`, the
state only counts again after the next control character. -/
def printedFrom : (printing : Bool) → SequenceState → Text → Text
  | _, _, [] => []
  | true, s, c :: t =>
    if isPrinted c then c :: printedFrom true (if c.toNat < 0x80 then s else .outside) t
    else printedFrom false (s.next c) t
  | false, s, c :: t =>
    if (s = .outside ∧ isPrinted c) ∨ (s.printsSpace ∧ isFormatEffector c) then
      c :: printedFrom true s t
    else printedFrom false (s.next c) t

/-- The text without controls. -/
def withoutControls (t : Text) : Text := printedFrom false .outside t

end Text

end Interpolation
