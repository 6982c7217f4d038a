import Interpolation.Configuration.Basic
import Interpolation.Log
import Interpolation.Text.Blank
import Interpolation.Text.Quoted

/-!
# Interpolation.Configuration.Setting

A **setting** is what a configuration holds under a key, read as one type or another. Every
reading gives nothing if the key is unset or set to no value, and nothing if the text does not
write a value of the type.
-/

namespace Interpolation

/-- The text under a key; none if the key is unset or set to no value. -/
structure Setting where
  /-- The text, if there is one. -/
  text? : Option Text
  deriving DecidableEq, Repr

/-- The setting under a key. -/
def Configuration.setting (c : Configuration) (key : Text) : Setting := ⟨(c.get? key).join⟩

/-! ### Choices -/

/-- The choice that a name picks: the one that equals it, and if none does the last that equals it
up to the case of ASCII letters. An empty name picks nothing. -/
def pickChoice (name : Text) (choices : List Text) : Option Text :=
  if name = [] then none
  else if name ∈ choices then some name
  else choices.reverse.find? fun choice => choice.sameLetters name

/-- A choice that was picked is one of the choices. -/
theorem mem_of_pickChoice_eq_some {name choice : Text} {choices : List Text}
    (h : pickChoice name choices = some choice) : choice ∈ choices := by
  rw [pickChoice] at h
  split at h
  · cases h
  · split at h
    · rename_i hmem
      cases h
      exact hmem
    · exact List.mem_reverse.1 (List.mem_of_find?_eq_some h)

/-- The choices that the items pick, in the order of the items and each one once; items that pick
nothing are skipped. `taken` holds the choices picked before. -/
def pickChoices (choices : List Text) : (taken items : List Text) → List Text
  | taken, [] => taken
  | taken, item :: items =>
    match pickChoice item choices with
    | some choice => pickChoices choices (if choice ∈ taken then taken else taken ++ [choice]) items
    | none => pickChoices choices taken items

/-- The record of an item that picks nothing. -/
def unknownChoiceRecord (choices : List Text) (item : Text) : LogRecord :=
  ⟨.debug, .configuration, '\'' :: item ++ "' is not one of ".toList ++ Text.quotedList choices⟩

namespace Setting

/-- Is there a text? -/
def isSet (s : Setting) : Bool := s.text?.isSome

/-- The text, empty if there is none. -/
def display (s : Setting) : Text := s.text?.getD []

/-- The integer of the range that the text writes. -/
def toInt? (range : IntRange) (s : Setting) : Option Int := s.text?.bind range.read?

/-- The number of the format that the text writes. -/
def toBinary? (format : BinaryFormat) (s : Setting) : Option Binary := s.text?.bind format.read?

/-- Is the text `true`, in any letter case? Every other text is false. -/
def toBool? (s : Setting) : Option Bool := s.text?.map (Text.sameLetters · "true".toList)

/-- The truth value whose exact name the text is. -/
def readBool? (s : Setting) : Option Bool :=
  s.text?.bind fun t =>
    if t = "true".toList then some true else if t = "false".toList then some false else none

/-- The character that the text consists of. -/
def readChar? (s : Setting) : Option Char :=
  match s.text? with
  | some [c] => some c
  | _ => none

/-- The items between the commas of a text, without the blanks around them. A blank
text has no items. -/
def items (t : Text) : List Text :=
  if t.trim = [] then [] else (t.splitOn ',').map Text.trim

/-- The items of the text. -/
def toList? (s : Setting) : Option (List Text) := s.text?.map items

/-- The path that the text writes; the empty text writes none. -/
def toPath? (s : Setting) : Option FilePath :=
  s.text?.bind fun t => if t = [] then none else some (FilePath.ofText t)

/-- The choice that the text picks, blanks around it apart. -/
def toChoice? (choices : List Text) (s : Setting) : Option Text :=
  s.text?.bind fun t => pickChoice t.trim choices

/-- The choices that the items of the text pick. -/
def toChoiceSet? (choices : List Text) (s : Setting) : Option (List Text) :=
  s.toList?.map (pickChoices choices [])

/-- The log of picking choices: one record for each item that picks nothing. -/
def choiceSetLog (choices : List Text) (s : Setting) : List LogRecord :=
  ((s.toList?.getD []).filter fun item => (pickChoice item choices).isNone).map
    (unknownChoiceRecord choices)

end Setting

end Interpolation
