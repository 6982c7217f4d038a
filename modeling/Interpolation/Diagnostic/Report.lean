import Interpolation.Diagnostic.Basic
import Interpolation.Text.CellWidth

/-!
# Interpolation.Diagnostic.Report

A **report** shows a diagnostic together with the lines of the source that it is about,
and points at the place.

Design points:

* The places that a report works with are *character* offsets. It takes the numbers of the span as
  they are, so the place is exact for sources in ASCII; after a character of several bytes the
  report points further to the right, or beyond the end, where nothing can be shown.
* A row that points at a line is drawn column by column, a column taking as many cells of the
  terminal as its character in the line above (`columnCells`).
-/

namespace Interpolation

/-! ### Lines of a source -/

/-- Characters that end a line; a carriage return and a line feed after it end it together. -/
def isLineEnd (c : Char) : Bool :=
  let n := c.toNat
  (0xA ≤ n && n ≤ 0xD) || n == 0x85 || n == 0x2028 || n == 0x2029

/-- The lines of a text, each with its ending. An empty text has no line. -/
def splitLines : Text → List Text
  | [] => []
  | '\r' :: '\n' :: t => ['\r', '\n'] :: splitLines t
  | c :: t =>
    if isLineEnd c then [c] :: splitLines t
    else match splitLines t with
      | [] => [[c]]
      | line :: lines => (c :: line) :: lines

/-- A line of a source. -/
structure SourceLine where
  /-- The number of the line, from 1. -/
  number : Nat
  /-- The character offset at which the line begins. -/
  start : Nat
  /-- The number of characters, those of the ending included. -/
  length : Nat
  /-- The line without blanks at its end. -/
  text : Text
  deriving DecidableEq, Repr

/-- Number the lines that begin at line `number` and offset `start`. -/
def numberLines (number start : Nat) : List Text → List SourceLine
  | [] => []
  | t :: ts =>
    ⟨number, start, t.length, Text.dropTrailing isBlank t⟩ ::
      numberLines (number + 1) (start + t.length) ts

/-- The lines of a source. -/
def sourceLines (source : Text) : List SourceLine := numberLines 1 0 (splitLines source)

/-- The line of an offset: the last one that begins at or before it. The end of the source is an
offset too, beyond it there is none. -/
def lineAt? (source : Text) (offset : Nat) : Option SourceLine :=
  if source.length < offset then none
  else (sourceLines source).reverse.find? fun line => line.start ≤ offset

/-! ### Cells -/

/-- Tabs reach to the next multiple of this number of columns. -/
def tabWidth : Nat := 4

/-- The number of cells of a character in a column. -/
def charCells (column : Nat) (c : Char) : Nat :=
  if c = '\t' then tabWidth - column % tabWidth else cellWidth c

/-- The number of cells of a column of a line; beyond the line one. -/
def columnCells (shown : Text) (column : Nat) : Nat :=
  match shown[column]? with
  | some c => charCells column c
  | none => 1

/-- A line as it is shown: tabs as spaces, every other blank as one space. -/
def shownLine (line : Text) : Text :=
  line.zipIdx.flatMap fun p =>
    if p.1 = '\t' then List.replicate (charCells p.2 p.1) ' '
    else if isBlank p.1 then [' '] else [p.1]

/-- A row under a line: each column drawn with its glyph, the further cells of a wide
column with a second one. -/
def drawRow (line : Text) (columns : Nat) (glyphs : Nat → Char × Char) : Text :=
  (List.range columns).flatMap fun column =>
    match columnCells line column with
    | 0 => []
    | cells + 1 => (glyphs column).1 :: List.replicate cells (glyphs column).2

/-! ### Reports -/

/-- The first word of a report. -/
def Severity.title : Severity → Text
  | .error => "Error".toList
  | .warning => "Warning".toList

/-- The number of the terminal colour in which a severity is shown: red or yellow. -/
def Severity.colour : Severity → Nat
  | .error => 31
  | .warning => 33

namespace Report

/-- What is shown of a source: the offsets concerned, their lines, and the message. -/
structure Excerpt where
  /-- The offset of the first character. -/
  start : Nat
  /-- The offset after the last character. -/
  stop : Nat
  /-- The line of the first character. -/
  first : SourceLine
  /-- The line of the last character. -/
  last : SourceLine
  /-- The number of characters of the source. -/
  sourceLength : Nat
  /-- The message at the end of the arrow. -/
  message : Text

/-- The cells of the greatest line number shown. -/
def Excerpt.margin (x : Excerpt) : Nat := (numeral x.last.number).length

/-- Spaces. -/
def blanks (n : Nat) : Text := List.replicate n ' '

/-- The beginning of a row that shows a line: its number. -/
def Excerpt.numbered (x : Excerpt) (line : SourceLine) : Text :=
  let n := numeral line.number
  ' ' :: blanks (x.margin - n.length) ++ n ++ " │ ".toList

/-- The beginning of a row without a line. -/
def Excerpt.unnumbered (x : Excerpt) (bar : Text) : Text := blanks (x.margin + 2) ++ bar ++ [' ']

/-- The rows for characters of one line: the line, the underlined characters, and an arrow from
their middle to the message. -/
def Excerpt.inlineRows (x : Excerpt) : List Text :=
  let o := x.first.start
  if o + x.first.length < x.stop then [x.unnumbered "│".toList]
  else
    let line := x.first.text
    let columns := x.stop - o + 2
    let middle := (x.start + x.stop) / 2 - o
    let underline := drawRow line columns fun column =>
      if column = middle then (if x.start = x.stop then ('│', ' ') else ('┬', '─'))
      else if x.start - o ≤ column ∧ column < x.stop - o then ('─', '─')
      else (' ', ' ')
    let arrow := drawRow line columns fun column =>
      if column < middle then (' ', ' ') else if column = middle then ('╰', '─') else ('─', '─')
    [x.numbered x.first ++ shownLine line,
      x.unnumbered "│".toList ++ underline,
      x.unnumbered "│".toList ++ arrow ++ ' ' :: x.message]

/-- The rows for characters of several lines: the first and the last of them, and an arrow from
below the last to the message. The end of the source is on no line that could be shown. -/
def Excerpt.multilineRows (x : Excerpt) : List Text :=
  let beyond := x.stop = x.sourceLength + 1
  let between := beyond ∨ x.first.number + 1 < x.last.number
  let line := x.last.text
  let columns := x.last.length + 2
  (x.numbered x.first ++ "╭─▶ ".toList ++ shownLine x.first.text) ::
    ((if between then [x.unnumbered "┆".toList ++ "┆   ".toList] else []) ++
      if beyond then []
      else
        [x.numbered x.last ++ "├─▶ ".toList ++ shownLine line,
          x.unnumbered "│".toList ++ "│   ".toList ++ drawRow line columns fun _ => (' ', ' '),
          x.unnumbered "│".toList ++ "╰───".toList ++
            (drawRow line columns fun _ => ('─', '─')) ++ ' ' :: x.message])

/-- The rows of an excerpt, from the place of its first character to the closing line. -/
def Excerpt.rows (x : Excerpt) (name : Text) : List Text :=
  let place := name ++ ':' :: numeral x.first.number ++ ':' :: numeral (x.start - x.first.start + 1)
  [blanks (x.margin + 2) ++ "╭─[".toList ++ place ++ [']'], blanks (x.margin + 2) ++ "│".toList] ++
    (if x.first.number = x.last.number then x.inlineRows else x.multilineRows) ++
    [List.replicate (x.margin + 2) '─' ++ ['╯']]

/-- What can be shown of a source for a diagnostic: nothing if its place lies beyond the end. -/
def excerpt? (source : Text) (d : Diagnostic) : Option Excerpt :=
  match lineAt? source d.span.start, lineAt? source (max d.span.start (d.span.stop - 1)) with
  | some first, some last =>
    some ⟨d.span.start, max d.span.start d.span.stop, first, last, source.length, d.message⟩
  | _, _ => none

end Report

/-- The report of a diagnostic on a source of the given name. -/
def Diagnostic.report (d : Diagnostic) (source name : Text) : Text :=
  let title := d.severity.title ++ ": ".toList ++ d.message
  let rows := match Report.excerpt? source d with
    | some x => x.rows name
    | none => []
  (title :: rows).flatMap fun row => row ++ ['\n']

end Interpolation
