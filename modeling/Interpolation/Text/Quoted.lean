import Interpolation.Text.Blank
import Interpolation.Text.Extending
import Interpolation.Text.Unassigned

/-!
# Interpolation.Text.Quoted

The **quoted form** of a text: between double quotes, with a backslash before a quote or a
backslash, and with escapes for everything that would not show as itself. Lists of texts are quoted
item by item, in brackets.
-/

namespace Interpolation

/-- Characters without a shape: control and format characters, line and paragraph separators,
private use, and the fillers of Hangul syllables. -/
def shapelessRanges : List (Nat × Nat) :=
  [(0x0, 0x1F), (0x7F, 0x9F), (0xAD, 0xAD), (0x600, 0x605), (0x61C, 0x61C), (0x6DD, 0x6DD),
   (0x70F, 0x70F), (0x890, 0x891), (0x8E2, 0x8E2), (0x115F, 0x1160), (0x180E, 0x180E),
   (0x200B, 0x200F), (0x2028, 0x202E), (0x2060, 0x2064), (0x2066, 0x206F), (0x3164, 0x3164),
   (0xE000, 0xF8FF), (0xFEFF, 0xFEFF), (0xFFA0, 0xFFA0), (0xFFF9, 0xFFFB), (0x110BD, 0x110BD),
   (0x110CD, 0x110CD), (0x13430, 0x1343F), (0x1BCA0, 0x1BCA3), (0x1D173, 0x1D17A),
   (0xE0001, 0xE0001), (0xE0020, 0xE007F), (0xF0000, 0xFFFFD), (0x100000, 0x10FFFD)]

/-- Does the character attach to the one before it without a place of its own? The two voicing marks
of halfwidth Katakana extend a letter, but stand beside it. -/
def isCombining (c : Char) : Bool := isExtending c && c.toNat ≠ 0xFF9E && c.toNat ≠ 0xFF9F

/-- Does the character show as itself in a quoted text? Of the blanks only the space does. -/
def showsPlain (c : Char) : Bool :=
  c == ' ' || !(isBlank c || inRanges shapelessRanges c.toNat || isUnassigned c || isCombining c)

/-- The digits of a number to base sixteen, in small letters and without leading zeros. -/
def hexadecimal (n : Nat) : Text := Nat.toDigits 16 n

namespace Text

/-- A character as it stands between the quotes. -/
def quotedChar (c : Char) : Text :=
  if c = '"' then ['\\', '"']
  else if c = '\\' then ['\\', '\\']
  else if c = '\n' then ['\\', 'n']
  else if c = '\t' then ['\\', 't']
  else if c = '\r' then ['\\', 'r']
  else if c = Char.ofNat 0 then ['\\', '0']
  else if showsPlain c then [c]
  else ['\\', 'u', '{'] ++ hexadecimal c.toNat ++ ['}']

/-- The text in quotes. -/
def quoted (t : Text) : Text := '"' :: t.flatMap quotedChar ++ ['"']

/-- The items of a list in brackets, parted by a comma and a space. -/
def bracketed (items : List Text) : Text := '[' :: join [',', ' '] items ++ [']']

/-- A list of texts, each of them quoted. -/
def quotedList (items : List Text) : Text := bracketed (items.map quoted)

end Text

end Interpolation
