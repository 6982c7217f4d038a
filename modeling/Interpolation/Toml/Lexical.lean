import Interpolation.Toml.Reader

/-!
# Interpolation.Toml.Lexical

The **lexical grammar** of TOML: white space, line ends, comments, strings and keys.

Control characters other than tabs may stand nowhere but in line ends, and a carriage return only
before a line feed. The readers of quoted text read up to the closing quotes and return the
characters that are meant.
-/

namespace Interpolation.Toml

/-! ### White space, line ends, comments -/

/-- A space or a tab. -/
def isSpace (c : Char) : Bool := c == ' ' || c == '\t'

/-- May the character stand in a comment, and unescaped in strings if it is no delimiter there? -/
def isPlain (c : Char) : Bool := c == '\t' || (' ' ≤ c && c ≤ '~') || 0x80 ≤ c.toNat

/-- Take spaces and tabs. -/
def spaces : Reader Unit := fun t => some ((), t.dropWhile isSpace)

/-- Take a line end. -/
def lineEnd : Reader Unit
  | '\n' :: t => some ((), t)
  | '\r' :: '\n' :: t => some ((), t)
  | _ => none

/-- Take a comment up to the end of its line. -/
def comment : Reader Unit
  | '#' :: t => some ((), t.dropWhile isPlain)
  | _ => none

/-- Refuse unless nothing remains. -/
def endOfText : Reader Unit
  | [] => some ((), [])
  | _ => none

/-- Take what may stand after a statement: a comment and the end of the line or of the document. -/
def lineRest : Reader Unit := do
  spaces
  let _ ← comment.optional
  lineEnd.orElse endOfText

/-- Leave out white space, line ends and comments, as they may stand between the items
of an array. -/
def dropLayout (t : Text) : Text :=
  match t with
  | [] => []
  | c :: rest =>
    if isSpace c then dropLayout rest
    else if c = '\n' then dropLayout rest
    else if c = '\r' then
      match rest with
      | '\n' :: rest' => dropLayout rest'
      | _ => t
    else if c = '#' then dropLayout (rest.dropWhile isPlain)
    else t
termination_by t.length
decreasing_by
  all_goals simp only [List.length_cons]
  all_goals try omega
  have := (List.dropWhile_sublist (p := isPlain) (l := rest)).length_le
  omega

/-- Take white space, line ends and comments. -/
def layout : Reader Unit := fun t => some ((), dropLayout t)

/-! ### Strings on one line -/

/-- The value of a hexadecimal digit. -/
def hexValue? (c : Char) : Option Nat :=
  if '0' ≤ c ∧ c ≤ '9' then some (c.toNat - 48)
  else if 'a' ≤ c ∧ c ≤ 'f' then some (c.toNat - 87)
  else if 'A' ≤ c ∧ c ≤ 'F' then some (c.toNat - 55)
  else none

/-- The scalar value that hexadecimal digits write. -/
def scalar? (digits : Text) : Option Char :=
  match digits.mapM hexValue? with
  | none => none
  | some values =>
    let n := values.foldl (fun n d => 16 * n + d) 0
    if n < 0xD800 ∨ (0xDFFF < n ∧ n < 0x110000) then some (Char.ofNat n) else none

/-- The character that an escape means whose text after the backslash is given, and the
length of that text. -/
def escape? : Text → Option (Char × Nat)
  | [] => none
  | c :: t =>
    if c = 'b' then some (Char.ofNat 8, 1)
    else if c = 't' then some ('\t', 1)
    else if c = 'n' then some ('\n', 1)
    else if c = 'f' then some (Char.ofNat 12, 1)
    else if c = 'r' then some ('\r', 1)
    else if c = '"' then some ('"', 1)
    else if c = '\\' then some ('\\', 1)
    else if c = 'u' ∧ 4 ≤ t.length then (scalar? (t.take 4)).map fun s => (s, 5)
    else if c = 'U' ∧ 8 ≤ t.length then (scalar? (t.take 8)).map fun s => (s, 9)
    else none

/-- Take the rest of a basic string, whose opening quote has been taken. -/
def basicRest (t : Text) : Option (Text × Text) :=
  match t with
  | [] => none
  | c :: rest =>
    if c = '"' then some ([], rest)
    else if c = '\\' then
      match escape? rest with
      | none => none
      | some (meant, n) => (basicRest (rest.drop n)).map fun p => (meant :: p.1, p.2)
    else if isPlain c then (basicRest rest).map fun p => (c :: p.1, p.2)
    else none
termination_by t.length
decreasing_by
  all_goals simp only [List.length_cons, List.length_drop]
  all_goals omega

/-- Take a basic string. -/
def basicString : Reader Text := do
  Reader.mark '"'
  basicRest

/-- May the character stand in a literal string? -/
def isLiteral (c : Char) : Bool := isPlain c && c != '\''

/-- Take a literal string. -/
def literalString : Reader Text := do
  Reader.mark '\''
  let t ← Reader.run isLiteral
  Reader.mark '\''
  return t

/-! ### Strings on several lines -/

/-- The number of quotes that come next. -/
def quoteCount (quote : Char) (t : Text) : Nat := (t.takeWhile (· == quote)).length

/-- The end of a string on several lines, if it comes next: three quotes, before which up to two
more belong to the string. -/
def closing? (quote : Char) (t : Text) : Option (Text × Text) :=
  let n := quoteCount quote t
  if n < 3 then none
  else
    let inner := min (n - 3) 2
    some (List.replicate inner quote, t.drop (inner + 3))

/-- Leave out white space and line ends, as a backslash at the end of a line does. -/
def dropLines : Text → Text
  | '\r' :: '\n' :: t => dropLines t
  | c :: t => if isSpace c || c == '\n' then dropLines t else c :: t
  | [] => []

theorem length_dropLines_le (t : Text) : (dropLines t).length ≤ t.length := by
  fun_induction dropLines t with
  | case1 t ih => simp only [List.length_cons]; omega
  | case2 c t h hc ih => simp only [List.length_cons]; omega
  | case3 c t h hc => exact Nat.le_refl _
  | case4 => exact Nat.le_refl _

/-- What remains after a backslash at the end of a line, if the line ends here. -/
def continued? (t : Text) : Option Text :=
  (lineEnd (t.dropWhile isSpace)).map fun p => dropLines p.2

theorem length_lineEnd_lt {t rest : Text} {u : Unit} (h : lineEnd t = some (u, rest)) :
    rest.length < t.length := by
  rw [lineEnd.eq_def] at h
  split at h
  · cases h; simp
  · cases h; simp only [List.length_cons]; omega
  · cases h

theorem length_continued_lt {t rest : Text} (h : continued? t = some rest) :
    rest.length < t.length := by
  obtain ⟨p, hp, rfl⟩ := Option.map_eq_some_iff.1 h
  have h₁ := length_lineEnd_lt hp
  have h₂ := length_dropLines_le p.2
  have h₃ := (List.dropWhile_sublist (p := isSpace) (l := t)).length_le
  omega

/-- Take the rest of a string on several lines; with `escapes` a backslash has its meaning. -/
def multilineRest (quote : Char) (escapes : Bool) (t : Text) : Option (Text × Text) :=
  match closing? quote t with
  | some done => some done
  | none =>
    match t with
    | [] => none
    | c :: rest =>
      if c = '\\' ∧ escapes then
        match _h : continued? rest with
        | some rest' => multilineRest quote escapes rest'
        | none =>
          match escape? rest with
          | none => none
          | some (meant, n) =>
            (multilineRest quote escapes (rest.drop n)).map fun p => (meant :: p.1, p.2)
      else if c = '\n' ∨ isPlain c then
        (multilineRest quote escapes rest).map fun p => (c :: p.1, p.2)
      else if c = '\r' ∧ rest.head? = some '\n' then multilineRest quote escapes rest
      else none
termination_by t.length
decreasing_by
  all_goals simp only [List.length_cons, List.length_drop]
  · have := length_continued_lt _h
    omega
  all_goals omega

/-- Take a string on several lines. A line end right after the opening quotes does not
belong to it. -/
def multilineString (quote : Char) (escapes : Bool) : Reader Text := do
  Reader.word [quote, quote, quote]
  let _ ← lineEnd.optional
  multilineRest quote escapes

/-- Take a string of any form. -/
def anyString : Reader Text :=
  (multilineString '"' true).orElse <| basicString.orElse <|
    (multilineString '\'' false).orElse literalString

/-! ### Keys -/

/-- May the character stand in a key without quotes? -/
def isBare (c : Char) : Bool :=
  ('A' ≤ c && c ≤ 'Z') || ('a' ≤ c && c ≤ 'z') || ('0' ≤ c && c ≤ '9') || c == '-' || c == '_'

/-- Take one name of a key. Only a quoted one may be empty. -/
def keyName : Reader Text := fun t =>
  match t with
  | '"' :: _ => basicString t
  | '\'' :: _ => literalString t
  | _ => (Reader.run isBare).filterMap (fun name => if name = [] then none else some name) t

/-- A key has fewer names than this. -/
def keyLimit : Nat := 80

/-- Take a key: names with dots between them, white space around each. -/
def key : Reader (List Text) := fun t =>
  let name : Reader Text := do
    spaces
    let n ← keyName
    spaces
    return n
  match name.separated '.' t with
  | ([], _) => none
  | (names, rest) => if names.length < keyLimit then some (names, rest) else none

end Interpolation.Toml
