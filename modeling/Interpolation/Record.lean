import Interpolation.Text.Quoted
import Interpolation.Value

/-!
# Interpolation.Record

**Records**: data with named members, described once and seen in two ways. As an object a
record offers the members that were declared reachable; in its shown form all members stand in
order, reachable or not.
-/

namespace Interpolation

mutual

/-- A member of a record as data. -/
inductive Member
  /-- A natural number. -/
  | number (n : Nat)
  /-- A text. -/
  | text (t : Text)
  /-- A text that may be absent. -/
  | optionalText (t : Option Text)
  /-- A list of texts. -/
  | texts (items : List Text)
  /-- A record. -/
  | record (r : Record)

/-- A record: the name of its type, all members in order with the names under which they are
kept, the names of the members that can be reached, the accessors, and the name of the member
whose members it inherits. -/
inductive Record
  /-- A record with these parts. -/
  | mk (type : Text) (members : List (Text × Member)) (reachable : List Text)
      (accessors : List (Text × Value)) (parent : Option Text)

end

/-! ### Shown form -/

mutual

/-- The form of a member. -/
def Member.shown : Member → Text
  | .number n => numeral n
  | .text t => t.quoted
  | .optionalText none => "None".toList
  | .optionalText (some t) => "Some(".toList ++ t.quoted ++ [')']
  | .texts items => Text.quotedList items
  | .record r => r.shown

/-- The form of a record: the name of its type and its members in braces. -/
def Record.shown : Record → Text
  | .mk type members _ _ _ =>
    if members.isEmpty then type
    else type ++ [' ', '{', ' '] ++ Text.join [',', ' '] (Record.shownMembers members) ++ [' ', '}']

/-- The forms of the members, each after its name. -/
def Record.shownMembers : List (Text × Member) → List Text
  | [] => []
  | (name, member) :: members => (name ++ [':', ' '] ++ member.shown) :: Record.shownMembers members

end

/-! ### Objects -/

mutual

/-- The value of a member. -/
def Member.toValue : Member → Value
  | .number n => Value.ofInt n
  | .text t => .text t
  | .optionalText t => Value.ofOption (t.map .text)
  | .texts items => .list (items.map .text)
  | .record r => .object r.toObject

/-- The object that a record is: its reachable members become fields, and the member it
inherits from its parent. -/
def Record.toObject : Record → Object
  | .mk type members reachable accessors parent =>
    .mk ((Record.memberValues members).filter fun m => reachable.contains m.1) accessors
      (match parent.bind fun name => (Record.memberValues members).lookup name with
        | some (.object o) => some o
        | _ => none)
      (Record.shown (.mk type members reachable accessors parent))

/-- The values of the members by name. -/
def Record.memberValues : List (Text × Member) → List (Text × Value)
  | [] => []
  | (name, member) :: members => (name, member.toValue) :: Record.memberValues members

end

end Interpolation
