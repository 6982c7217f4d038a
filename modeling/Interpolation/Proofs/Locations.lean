import Interpolation.Diagnostic.Check
import Interpolation.Diagnostic.Report
import Interpolation.Proofs.Segmentation
import Mathlib.Data.List.SplitBy

/-!
# Interpolation.Proofs.Locations

**Where a report says that a problem is.** A diagnostic counts bytes, a report counts characters,
and nothing in between turns one into the other.

* `splitLines_eq`: the lines of a source are its runs of characters that no line end separates,
  where a carriage return and the line feed behind it are one end.
* `exists_onLine_of_lineAt?`: a report finds the line that an offset is on, the last line
  for the end of the source.
* `eq_of_locatedAt`: the place that a report names can be read off its rows, so it
  names one place only.

`report_points_at_problem_iff` says when that place is the problem's: nothing but one-byte
characters stand before the problem, and its end in bytes is not beyond the end in characters. One
further is allowed if other lines follow the first one, since then that line is shown all the same.
`not_located_behind_accent` has a problem behind an `é`, and the report points past it.
-/

namespace Interpolation

/-! ### Lines -/

/-- Neighbours stand on one line if the first does not end it. A carriage return does
not before a line feed. -/
def sameLine (c d : Char) : Bool := !isLineEnd c || (c == '\r' && d == '\n')

/-- What goes with its neighbour joins the run of the neighbour. -/
theorem splitBy_cons_cons {r : Char → Char → Bool} {c d : Char} {t line : Text} {lines : List Text}
    (hcd : r c d = true) (h : (d :: t).splitBy r = line :: lines) :
    (c :: d :: t).splitBy r = (c :: line) :: lines := by
  obtain ⟨hflatten, hnil, hchain, hbreak⟩ := List.splitBy_eq_iff.1 h
  cases line with
  | nil => exact absurd List.mem_cons_self hnil
  | cons d' line =>
    obtain ⟨rfl, -⟩ := List.cons.inj hflatten
    obtain ⟨hfirst, hbreak⟩ := List.isChain_cons.1 hbreak
    refine List.splitBy_eq_iff.2 ⟨by rw [hflatten]; rfl, ?_, ?_, List.isChain_cons.2 ⟨?_, hbreak⟩⟩
    · intro hmem
      rcases List.mem_cons.1 hmem with hmem | hmem
      · cases hmem
      · exact hnil (List.mem_cons_of_mem _ hmem)
    · intro m hm
      rcases List.mem_cons.1 hm with rfl | hm
      · exact List.isChain_cons_cons.2 ⟨hcd, hchain _ List.mem_cons_self⟩
      · exact hchain m (List.mem_cons_of_mem _ hm)
    · intro next hnext
      obtain ⟨hne, hne', hlast⟩ := hfirst next hnext
      refine ⟨List.cons_ne_nil _ _, hne', ?_⟩
      rwa [List.getLast_cons hne]

/-- The lines of a text are its runs of characters on one line. -/
theorem splitLines_eq (t : Text) : splitLines t = t.splitBy sameLine := by
  induction t using splitLines.induct with
  | case1 => rfl
  | case2 t ih =>
    have hend : ∀ c ∈ ['\r', '\n'].getLast?, ∀ d ∈ t.head?, sameLine c d = false := by
      intro c hc d _
      obtain rfl := Option.some.inj hc
      rfl
    rw [splitLines, ih]
    exact (List.splitBy_append hend).symm
  | case3 c t hcrlf hc ih =>
    have hend : ∀ c' ∈ [c].getLast?, ∀ d ∈ t.head?, sameLine c' d = false := by
      intro c' hc' d hd
      obtain rfl : c = c' := Option.some.inj hc'
      obtain ⟨t', rfl⟩ := List.head?_eq_some_iff.1 hd
      have hbreak : c = '\r' → ¬ d = '\n' := fun hr hn => hcrlf t' hr (by rw [hn])
      simpa [sameLine, hc] using hbreak
    rw [splitLines, if_pos hc, ih]
    · exact (List.splitBy_append hend).symm
    · exact hcrlf
  | case4 c t hcrlf hc hnil ih =>
    rw [hnil, eq_comm, List.splitBy_eq_nil] at ih
    subst ih
    rw [splitLines, if_neg hc]
    · rfl
    · exact hcrlf
  | case5 c t hcrlf hc line lines hlines ih =>
    cases t with
    | nil => cases hlines
    | cons d t =>
      have hsame : sameLine c d = true := by simp [sameLine, hc]
      rw [splitLines, if_neg hc, hlines, splitBy_cons_cons hsame (ih.symm.trans hlines)]
      exact hcrlf

namespace SourceLine

/-- The line of a source that stands behind the lines `front`. -/
def behind (front : List Text) (line : Text) : SourceLine :=
  ⟨front.length + 1, front.flatten.length, line.length, Text.dropTrailing isBlank line⟩

end SourceLine

theorem flatten_splitLines (t : Text) : (splitLines t).flatten = t := by
  rw [splitLines_eq, List.flatten_splitBy]

theorem numberLines_append (number start : Nat) (l l' : List Text) :
    numberLines number start (l ++ l') =
      numberLines number start l ++
        numberLines (number + l.length) (start + l.flatten.length) l' := by
  induction l generalizing number start with
  | nil => rfl
  | cons line l ih =>
    have hnumber : number + 1 + l.length = number + (line :: l).length := by
      rw [List.length_cons]; omega
    have hstart : start + line.length + l.flatten.length = start + (line :: l).flatten.length := by
      rw [List.flatten_cons, List.length_append, Nat.add_assoc]
    rw [List.cons_append, numberLines, ih, hnumber, hstart]
    rfl

theorem start_le_of_mem_numberLines {number start : Nat} {l : List Text} {x : SourceLine}
    (hx : x ∈ numberLines number start l) : start ≤ x.start := by
  induction l generalizing number start with
  | nil => cases hx
  | cons line l ih =>
    rcases List.mem_cons.1 hx with rfl | hx
    · exact Nat.le_refl _
    · exact Nat.le_trans (Nat.le_add_right _ _) (ih hx)

theorem length_of_lines {source : Text} {front back : List Text} {line : Text}
    (hlines : splitLines source = front ++ line :: back) :
    source.length = front.flatten.length + (line.length + back.flatten.length) := by
  rw [← flatten_splitLines source, hlines, List.flatten_append, List.flatten_cons,
    List.length_append, List.length_append]

/-- The offset lies on the line between the lines `front` and `back`. The end of the
source is on its last line. -/
def OnLine (offset : Nat) (front : List Text) (line : Text) (back : List Text) : Prop :=
  front.flatten.length ≤ offset ∧
    (offset < front.flatten.length + line.length ∨
      back = [] ∧ offset = front.flatten.length + line.length)

/-- Every offset of a source that has lines is on one of them. -/
theorem exists_onLine {lines : List Text} (hne : lines ≠ []) {offset : Nat}
    (hle : offset ≤ lines.flatten.length) :
    ∃ front line back, lines = front ++ line :: back ∧ OnLine offset front line back := by
  induction lines generalizing offset with
  | nil => exact absurd rfl hne
  | cons first lines ih =>
    rw [List.flatten_cons, List.length_append] at hle
    by_cases hfirst : offset < first.length
    · exact ⟨[], first, lines, rfl, Nat.zero_le _, .inl (by simpa using hfirst)⟩
    · by_cases hnil : lines = []
      · subst hnil
        rw [List.flatten_nil, List.length_nil] at hle
        refine ⟨[], first, [], rfl, Nat.zero_le _, .inr ⟨rfl, ?_⟩⟩
        rw [List.flatten_nil, List.length_nil]
        omega
      · have hrest : offset - first.length ≤ lines.flatten.length := by omega
        obtain ⟨front, line, back, rfl, hle', hlt⟩ := ih hnil hrest
        refine ⟨first :: front, line, back, rfl, ?_,
          hlt.imp (fun hlt => ?_) (And.imp_right fun hend => ?_)⟩
        all_goals rw [List.flatten_cons, List.length_append]; omega

theorem OnLine.le_length {source : Text} {offset : Nat} {front back : List Text} {line : Text}
    (hon : OnLine offset front line back) (hlines : splitLines source = front ++ line :: back) :
    offset ≤ source.length := by
  rw [length_of_lines hlines]
  rcases hon.2 with hlt | ⟨-, hend⟩ <;> omega

/-- A report finds the line that an offset is on. -/
theorem lineAt?_of_onLine {source : Text} {offset : Nat} {front back : List Text} {line : Text}
    (hlines : splitLines source = front ++ line :: back) (hon : OnLine offset front line back) :
    lineAt? source offset = some (.behind front line) := by
  obtain ⟨hle, hlt⟩ := hon
  have hlength := length_of_lines hlines
  have hback :
      (numberLines (1 + (front ++ [line]).length) (0 + (front ++ [line]).flatten.length)
        back).reverse.find? (fun x => decide (x.start ≤ offset)) = none := by
    refine List.find?_eq_none.2 ?_
    intro x hx
    have hstart := start_le_of_mem_numberLines (List.mem_reverse.1 hx)
    rcases hlt with hlt | ⟨rfl, -⟩
    · simp only [List.flatten_append, List.flatten_singleton, List.length_append] at hstart
      simp only [decide_eq_true_eq]
      omega
    · cases hx
  have hsplit : front ++ line :: back = (front ++ [line]) ++ back := by rw [List.append_assoc]; rfl
  rw [lineAt?, if_neg (Nat.not_lt.2 (OnLine.le_length ⟨hle, hlt⟩ hlines)), sourceLines,
    hlines, hsplit, numberLines_append, numberLines_append, List.reverse_append, List.find?_append,
    hback, Option.none_or, List.reverse_append]
  show List.find? _ (_ :: _) = _
  rw [List.find?_cons_of_pos]
  · rw [SourceLine.behind, Nat.zero_add, Nat.add_comm]
  · simpa using hle

/-- The number of a line says which one it is. -/
theorem eq_of_lines {lines front front' back back' : List Text} {line line' : Text}
    (h : lines = front ++ line :: back) (h' : lines = front' ++ line' :: back')
    (hnumber : front.length + 1 = front'.length + 1) :
    front = front' ∧ line = line' ∧ back = back' := by
  obtain ⟨hfront, hrest⟩ := List.append_inj (h.symm.trans h') (Nat.succ.inj hnumber)
  exact ⟨hfront, List.cons.inj hrest⟩

/-- A report finds no line but the one that the offset is on. -/
theorem exists_onLine_of_lineAt? {source : Text} {offset : Nat} {x : SourceLine}
    (h : lineAt? source offset = some x) :
    ∃ front line back, splitLines source = front ++ line :: back ∧ OnLine offset front line back ∧
      x = .behind front line := by
  have hle : ¬ source.length < offset := by
    intro hlt
    rw [lineAt?, if_pos hlt] at h
    cases h
  have hne : splitLines source ≠ [] := by
    intro hnil
    rw [lineAt?, if_neg hle, sourceLines, hnil] at h
    cases h
  rw [Nat.not_lt, ← flatten_splitLines source] at hle
  obtain ⟨front, line, back, hlines, hon⟩ := exists_onLine hne hle
  rw [lineAt?_of_onLine hlines hon] at h
  exact ⟨front, line, back, hlines, hon, (Option.some.inj h).symm⟩

/-- The offset is on one line only. -/
theorem OnLine.unique {source : Text} {offset : Nat} {front front' back back' : List Text}
    {line line' : Text} (hlines : splitLines source = front ++ line :: back)
    (hon : OnLine offset front line back) (hlines' : splitLines source = front' ++ line' :: back')
    (hon' : OnLine offset front' line' back') : front = front' ∧ line = line' ∧ back = back' := by
  have hline := (lineAt?_of_onLine hlines hon).symm.trans (lineAt?_of_onLine hlines' hon')
  exact eq_of_lines hlines hlines' (congrArg SourceLine.number (Option.some.inj hline))

/-! ### What a report says -/

/-- The row of a report that names the place. -/
def Report.placeRow (margin : Nat) (name : Text) (number column : Nat) : Text :=
  blanks margin ++ "╭─[".toList ++ (name ++ ':' :: numeral number ++ ':' :: numeral column) ++ [']']

namespace Diagnostic

/-- The first row of a report. -/
def heading (d : Diagnostic) : Text := d.severity.title ++ ": ".toList ++ d.message

/-- The report puts the problem at a column of the line of that number, and the first
line that it shows is this one, with its number. An arrow may lead from the line down to
where the problem ends. -/
def LocatedAt (d : Diagnostic) (source name : Text) (number column : Nat) (line : Text) : Prop :=
  ∃ (margin indent : Nat) (mark : Text) (rest : List Text), mark ∈ [[], "╭─▶ ".toList] ∧
    d.report source name =
      (d.heading ::
        Report.placeRow margin name number column ::
        (Report.blanks margin ++ ['│']) ::
        (Report.blanks indent ++ numeral number ++ " │ ".toList ++ mark ++
          shownLine (Text.dropTrailing isBlank line)) ::
        rest).flatMap fun row => row ++ ['\n']

end Diagnostic

namespace Report

namespace Excerpt

/-- The rows begin with the line of the first character. They do not if the excerpt ends beyond that
line although its last character is said to be on it. -/
def ShowsFirst (x : Excerpt) : Prop :=
  x.first.number ≠ x.last.number ∨ x.stop ≤ x.first.start + x.first.length

/-- The row that names the place of an excerpt. -/
def place (x : Excerpt) (name : Text) : Text :=
  placeRow (x.margin + 2) name x.first.number (x.start - x.first.start + 1)

theorem numbered_eq (x : Excerpt) (line : SourceLine) :
    x.numbered line = blanks (x.margin - (numeral line.number).length + 1) ++ numeral line.number ++
      " │ ".toList :=
  rfl

theorem inlineRows_of_le {x : Excerpt} (h : x.stop ≤ x.first.start + x.first.length) :
    ∃ rest, x.inlineRows = (x.numbered x.first ++ shownLine x.first.text) :: rest := by
  rw [inlineRows, if_neg (Nat.not_lt.2 h)]
  exact ⟨_, rfl⟩

theorem multilineRows_eq (x : Excerpt) :
    ∃ rest, x.multilineRows =
      (x.numbered x.first ++ "╭─▶ ".toList ++ shownLine x.first.text) :: rest :=
  ⟨_, rfl⟩

theorem rows_of_showsFirst {x : Excerpt} (h : x.ShowsFirst) (name : Text) :
    ∃ (mark : Text) (rest : List Text), mark ∈ [[], "╭─▶ ".toList] ∧
      x.rows name = x.place name :: (blanks (x.margin + 2) ++ ['│']) ::
        (x.numbered x.first ++ mark ++ shownLine x.first.text) :: rest := by
  let closing := [List.replicate (x.margin + 2) '─' ++ ['╯']]
  by_cases hnumber : x.first.number = x.last.number
  · obtain ⟨rest, hrest⟩ := inlineRows_of_le (h.resolve_left (not_not.2 hnumber))
    refine ⟨[], rest ++ closing, List.mem_cons_self, ?_⟩
    rw [rows, if_pos hnumber, hrest, List.append_nil]
    rfl
  · obtain ⟨rest, hrest⟩ := multilineRows_eq x
    refine ⟨"╭─▶ ".toList, rest ++ closing, List.mem_cons_of_mem _ List.mem_cons_self, ?_⟩
    rw [rows, if_neg hnumber, hrest]
    rfl

theorem rows_of_not_showsFirst {x : Excerpt} (h : ¬ x.ShowsFirst) (name : Text) :
    ∃ rest : List Text, x.rows name = x.place name :: (blanks (x.margin + 2) ++ ['│']) ::
      x.unnumbered "│".toList :: rest := by
  obtain ⟨hnumber, hstop⟩ := not_or.1 h
  refine ⟨[List.replicate (x.margin + 2) '─' ++ ['╯']], ?_⟩
  rw [rows, if_pos (not_not.1 hnumber), inlineRows, if_pos (Nat.not_le.1 hstop)]
  rfl

end Excerpt
end Report

theorem report_of_excerpt {source name : Text} {d : Diagnostic} {x : Report.Excerpt}
    (hx : Report.excerpt? source d = some x) :
    d.report source name = (d.heading :: x.rows name).flatMap fun row => row ++ ['\n'] := by
  rw [Diagnostic.report, hx]
  rfl

theorem report_of_excerpt_eq_none {source name : Text} {d : Diagnostic}
    (hx : Report.excerpt? source d = none) : d.report source name = d.heading ++ ['\n'] := by
  rw [Diagnostic.report, hx]
  exact List.append_nil _

theorem locatedAt_of_showsFirst {source line : Text} {d : Diagnostic} {x : Report.Excerpt}
    (hx : Report.excerpt? source d = some x) (hshows : x.ShowsFirst)
    (hline : x.first.text = Text.dropTrailing isBlank line) (name : Text) :
    d.LocatedAt source name x.first.number (x.start - x.first.start + 1) line := by
  obtain ⟨mark, rest, hmark, hrows⟩ := Report.Excerpt.rows_of_showsFirst hshows name
  refine ⟨x.margin + 2, x.margin - (numeral x.first.number).length + 1, mark, rest, hmark, ?_⟩
  rw [report_of_excerpt hx, hrows, hline, Report.Excerpt.numbered_eq, Report.Excerpt.place]

/-- What stands before a mark and behind it, if the mark is the first of its kind. -/
theorem Text.append_mark_inj {mark : Char} {s s' t t' : Text} (hs : mark ∉ s) (hs' : mark ∉ s')
    (h : s ++ mark :: t = s' ++ mark :: t') : s = s' ∧ t = t' := by
  have hcut := congrArg (Text.cut mark) h
  rw [Text.cut_append hs, Text.cut_append hs'] at hcut
  exact Prod.mk.inj (Option.some.inj hcut)

theorem not_mem_blanks {c : Char} (hc : c ≠ ' ') (n : Nat) : c ∉ Report.blanks n :=
  fun h => hc (List.eq_of_mem_replicate h)

theorem not_mem_numeral {c : Char} (hc : c.isDigit = false) (n : Nat) : c ∉ numeral n := by
  intro h
  rw [isDigit_of_mem_numeral h] at hc
  cases hc

/-- The row that names a place says which place it is. -/
theorem placeRow_inj {margin margin' number number' column column' : Nat} {name t t' : Text}
    (h : Report.placeRow margin name number column ++ t =
      Report.placeRow margin' name number' column' ++ t') :
    margin = margin' ∧ number = number' ∧ column = column' ∧ t = t' := by
  have hcorner : "╭─[".toList = ['╭', '─', '['] := rfl
  simp only [Report.placeRow, hcorner, List.append_assoc, List.cons_append, List.nil_append] at h
  obtain ⟨hmargin, h⟩ :=
    Text.append_mark_inj (not_mem_blanks (by decide) _) (not_mem_blanks (by decide) _) h
  obtain ⟨-, h⟩ := List.cons.inj h
  obtain ⟨-, h⟩ := List.cons.inj h
  obtain ⟨-, h⟩ := List.cons.inj (List.append_cancel_left h)
  obtain ⟨hnumber, h⟩ :=
    Text.append_mark_inj (not_mem_numeral (by decide) _) (not_mem_numeral (by decide) _) h
  obtain ⟨hcolumn, ht⟩ :=
    Text.append_mark_inj (not_mem_numeral (by decide) _) (not_mem_numeral (by decide) _) h
  refine ⟨?_, numeral_injective hnumber, numeral_injective hcolumn, ht⟩
  rw [← List.length_replicate (n := margin), ← List.length_replicate (n := margin')]
  exact congrArg List.length hmargin

/-- A row without a line is none with a line: a bar is no number. -/
theorem bar_ne_numeral {margin indent number : Nat} {t t' : Text} :
    Report.blanks margin ++ ("│".toList ++ t) ≠
      Report.blanks indent ++ (numeral number ++ (" │ ".toList ++ t')) := by
  intro h
  have hcut : Report.blanks margin ++ '│' :: t =
      Report.blanks indent ++ numeral number ++ [' '] ++ '│' :: ' ' :: t' := by
    rw [List.append_assoc, List.append_assoc]
    exact h
  have hbar : '│' ∉ Report.blanks indent ++ numeral number ++ [' '] := by
    rw [List.mem_append, List.mem_append, not_or, not_or]
    exact ⟨⟨not_mem_blanks (by decide) _, not_mem_numeral (by decide) _⟩, by decide⟩
  obtain ⟨hblanks, -⟩ := Text.append_mark_inj (not_mem_blanks (by decide) _) hbar hcut
  obtain ⟨c, hc⟩ := List.exists_mem_of_ne_nil _ (numeral_ne_nil number)
  have hblank : c = ' ' := by
    refine List.eq_of_mem_replicate (n := margin) ?_
    rw [← Report.blanks, hblanks]
    exact List.mem_append_left _ (List.mem_append_right _ hc)
  have hdigit := isDigit_of_mem_numeral hc
  rw [hblank] at hdigit
  cases hdigit

theorem flatMap_rows_cons (row : Text) (rows : List Text) :
    ((row :: rows).flatMap fun row => row ++ ['\n']) =
      row ++ '\n' :: rows.flatMap fun row => row ++ ['\n'] := by
  rw [List.flatMap_cons, List.append_assoc]
  rfl

theorem eq_of_locatedAt {source name line : Text} {number column : Nat} {d : Diagnostic}
    (h : d.LocatedAt source name number column line) :
    ∃ x, Report.excerpt? source d = some x ∧ x.ShowsFirst ∧ number = x.first.number ∧
      column = x.start - x.first.start + 1 := by
  obtain ⟨margin, indent, mark, rest, -, hreport⟩ := h
  rw [flatMap_rows_cons, flatMap_rows_cons] at hreport
  cases hx : Report.excerpt? source d with
  | none =>
    rw [report_of_excerpt_eq_none hx, List.append_cancel_left_eq] at hreport
    simp at hreport
  | some x =>
    rw [report_of_excerpt hx, flatMap_rows_cons] at hreport
    have hrows := List.tail_eq_of_cons_eq (List.append_cancel_left hreport)
    by_cases hshows : x.ShowsFirst
    · obtain ⟨mark', rest', -, hrows'⟩ := Report.Excerpt.rows_of_showsFirst hshows name
      rw [hrows', flatMap_rows_cons] at hrows
      obtain ⟨-, hnumber, hcolumn, -⟩ := placeRow_inj hrows
      exact ⟨x, rfl, hshows, hnumber.symm, hcolumn.symm⟩
    · -- Where a line should be shown with its number there is only a bar.
      obtain ⟨rest', hrows'⟩ := Report.Excerpt.rows_of_not_showsFirst hshows name
      rw [hrows', flatMap_rows_cons] at hrows
      obtain ⟨rfl, -, -, hbehind⟩ := placeRow_inj hrows
      rw [flatMap_rows_cons, flatMap_rows_cons, flatMap_rows_cons] at hbehind
      have hthird :=
        List.tail_eq_of_cons_eq (List.append_cancel_left (List.tail_eq_of_cons_eq hbehind))
      rw [flatMap_rows_cons, Report.Excerpt.unnumbered] at hthird
      simp only [List.append_assoc] at hthird
      exact absurd hthird bar_ne_numeral

theorem excerpt?_eq_some_iff {source : Text} {d : Diagnostic} {x : Report.Excerpt} :
    Report.excerpt? source d = some x ↔
      ∃ first last, lineAt? source d.span.start = some first ∧
        lineAt? source (max d.span.start (d.span.stop - 1)) = some last ∧
        x = ⟨d.span.start, max d.span.start d.span.stop, first, last, source.length,
          d.message⟩ := by
  rw [Report.excerpt?]
  cases lineAt? source d.span.start with
  | none => simp
  | some first =>
    cases lineAt? source (max d.span.start (d.span.stop - 1)) with
    | none => simp
    | some last => simp [eq_comm]

/-! ### Bytes and characters -/

theorem Text.length_le_byteLength (t : Text) : t.length ≤ t.byteLength := by
  induction t with
  | nil => exact Nat.le_refl _
  | cons c t ih =>
    have hpos := c.utf8Size_pos
    rw [List.length_cons, Text.byteLength_cons]
    omega

/-- A text has as many bytes as characters if each takes one byte. -/
theorem Text.byteLength_eq_length_iff {t : Text} :
    t.byteLength = t.length ↔ ∀ c ∈ t, c.utf8Size = 1 := by
  induction t with
  | nil => exact ⟨fun _ c hc => absurd hc List.not_mem_nil, fun _ => rfl⟩
  | cons c t ih =>
    have hpos := c.utf8Size_pos
    have hle := Text.length_le_byteLength t
    rw [List.forall_mem_cons, ← ih, List.length_cons, Text.byteLength_cons]
    omega

/-- The character at a byte of a source stands on a line, behind others. -/
theorem exists_line_of_lt {source part : Text} {start stop : Nat}
    (hslice : source.slice? ⟨start, stop⟩ = some part) (hlt : start < source.byteLength) :
    ∃ (front : List Text) (head : Text) (c : Char) (tail : Text) (back : List Text),
      splitLines source = front ++ (head ++ c :: tail) :: back ∧
        start = Text.byteLength (front.flatten ++ head) := by
  obtain ⟨before, after, hsource, hstart, -⟩ := Text.slice?_eq_some_iff.1 hslice
  have hrest : part ++ after ≠ [] := by
    intro hnil
    rw [hsource, hnil, List.append_nil, hstart] at hlt
    exact Nat.lt_irrefl _ hlt
  obtain ⟨c, rest, hc⟩ := List.exists_cons_of_ne_nil hrest
  rw [hc] at hsource
  have hlength : source.length = before.length + (rest.length + 1) := by
    rw [hsource, List.length_append, List.length_cons]
  have hflatten := flatten_splitLines source
  have hne : splitLines source ≠ [] := by
    rw [splitLines_eq, List.splitBy_ne_nil, hsource]
    exact List.append_ne_nil_of_right_ne_nil _ (List.cons_ne_nil _ _)
  have hbefore : before.length ≤ (splitLines source).flatten.length := by rw [hflatten]; omega
  obtain ⟨front, line, back, hlines, hle, hon⟩ := exists_onLine hne hbefore
  have htotal := length_of_lines hlines
  rw [hlines, List.flatten_append, List.flatten_cons] at hflatten
  -- The text before the character ends on its line, and the line goes on behind the character.
  obtain ⟨head, rfl⟩ : front.flatten <+: before :=
    List.prefix_of_prefix_length_le ⟨_, hflatten⟩ ⟨_, hsource.symm⟩ hle
  rw [hsource, List.append_assoc, List.append_cancel_left_eq] at hflatten
  have hshort : (head ++ [c]).length ≤ line.length := by
    rw [List.length_append] at hlength hon
    rw [List.length_append, List.length_singleton]
    rcases hon with hon | ⟨rfl, hon⟩
    · omega
    · rw [List.flatten_nil, List.length_nil] at htotal
      omega
  obtain ⟨tail, rfl⟩ : head ++ [c] <+: line := by
    refine List.prefix_of_prefix_length_le ⟨rest, ?_⟩ ⟨_, hflatten⟩ hshort
    rw [List.append_assoc]
    rfl
  refine ⟨front, head, c, tail, back, ?_, hstart.symm⟩
  rw [hlines, List.append_assoc]
  rfl

section Characters

variable {source : Text} {d : Diagnostic} {front back : List Text} {head tail : Text} {c : Char}

/-- If the report is right, it has taken bytes for as many characters, and it had no lines
to show beyond the end. -/
theorem start_and_stop_of_locatedAt {name : Text}
    (hlines : splitLines source = front ++ (head ++ c :: tail) :: back)
    (hlocated : d.LocatedAt source name (front.length + 1) (head.length + 1) (head ++ c :: tail)) :
    d.span.start = (front.flatten ++ head).length ∧
      (d.span.stop ≤ source.length ∨ d.span.stop = source.length + 1 ∧ back ≠ []) := by
  have hlength := length_of_lines hlines
  obtain ⟨x, hx, hshows, hnumber, hcolumn⟩ := eq_of_locatedAt hlocated
  obtain ⟨first, last, hfirst, hlast, rfl⟩ := excerpt?_eq_some_iff.1 hx
  obtain ⟨front₁, line₁, back₁, hlines₁, ⟨hle₁, -⟩, rfl⟩ := exists_onLine_of_lineAt? hfirst
  obtain ⟨front₂, line₂, back₂, hlines₂, hon₂, rfl⟩ := exists_onLine_of_lineAt? hlast
  obtain ⟨rfl, rfl, rfl⟩ := eq_of_lines hlines hlines₁ hnumber
  have hle₂ := hon₂.le_length hlines₂
  simp only [SourceLine.behind] at hcolumn
  rw [List.length_append, List.length_cons] at hlength
  rw [List.length_append]
  refine ⟨by omega, ?_⟩
  by_cases hstop : d.span.stop ≤ source.length
  · exact .inl hstop
  · refine .inr ⟨by omega, ?_⟩
    rintro rfl
    -- The end of the source would be on the same line, and the excerpt would reach beyond it.
    rw [List.flatten_nil, List.length_nil] at hlength
    have hend : OnLine (max d.span.start (d.span.stop - 1)) front (head ++ c :: tail) [] := by
      rw [OnLine, List.length_append, List.length_cons]
      exact ⟨by omega, .inr ⟨rfl, by omega⟩⟩
    obtain ⟨rfl, rfl, -⟩ := hend.unique hlines hlines₂ hon₂
    rcases hshows with hshows | hshows
    · exact hshows rfl
    · simp only [SourceLine.behind, List.length_append, List.length_cons] at hshows
      omega

theorem locatedAt_of_start_and_stop
    (hlines : splitLines source = front ++ (head ++ c :: tail) :: back)
    (hstart : d.span.start = (front.flatten ++ head).length)
    (hstop : d.span.stop ≤ source.length ∨ d.span.stop = source.length + 1 ∧ back ≠ [])
    (name : Text) :
    d.LocatedAt source name (front.length + 1) (head.length + 1) (head ++ c :: tail) := by
  have hlength := length_of_lines hlines
  rw [List.length_append, List.length_cons] at hlength
  rw [List.length_append] at hstart
  have hne : splitLines source ≠ [] := by
    rw [hlines]
    exact List.append_ne_nil_of_right_ne_nil _ (List.cons_ne_nil _ _)
  have hon : OnLine d.span.start front (head ++ c :: tail) back := by
    rw [OnLine, List.length_append, List.length_cons]
    omega
  have hle₂ : max d.span.start (d.span.stop - 1) ≤ (splitLines source).flatten.length := by
    rw [flatten_splitLines]
    omega
  obtain ⟨front₂, line₂, back₂, hlines₂, hon₂⟩ := exists_onLine hne hle₂
  have hfirst := lineAt?_of_onLine hlines hon
  have hx := excerpt?_eq_some_iff.2 ⟨_, _, hfirst, lineAt?_of_onLine hlines₂ hon₂, rfl⟩
  have hlocated := locatedAt_of_showsFirst hx ?_ rfl name
  · have hcolumn : d.span.start - front.flatten.length + 1 = head.length + 1 := by omega
    rw [← hcolumn]
    exact hlocated
  · -- On the line of its first character the excerpt does not reach beyond it.
    by_cases hnumber : front.length + 1 = front₂.length + 1
    · obtain ⟨rfl, rfl, rfl⟩ := eq_of_lines hlines hlines₂ hnumber
      refine .inr ?_
      obtain ⟨-, hlt⟩ := hon₂
      simp only [SourceLine.behind, List.length_append, List.length_cons] at hlt ⊢
      rcases hlt with hlt | ⟨rfl, hend⟩
      · omega
      · simp only [List.flatten_nil, List.length_nil, ne_eq, not_true_eq_false, and_false,
          or_false] at hlength hstop
        omega
    · exact .inl hnumber

end Characters

/-- **When a report points at the problem.** The character where a diagnostic begins stands
somewhere on a line of the source. The report names the number of that line and the column of that
character, and shows that line, exactly if each character before it takes one byte, and the bytes up
to the end of the problem are not more than the characters of the source, or one more if the problem
does not begin on the last line. -/
theorem report_points_at_problem_iff {source part : Text} {d : Diagnostic}
    (hslice : source.slice? d.span = some part) (name : Text) :
    (d.span.start < source.byteLength →
      ∃ (front : List Text) (head : Text) (c : Char) (tail : Text) (back : List Text),
        source.splitBy sameLine = front ++ (head ++ c :: tail) :: back ∧
          d.span.start = Text.byteLength (front.flatten ++ head)) ∧
    ∀ (front : List Text) (head : Text) (c : Char) (tail : Text) (back : List Text),
      source.splitBy sameLine = front ++ (head ++ c :: tail) :: back →
      d.span.start = Text.byteLength (front.flatten ++ head) →
      (d.LocatedAt source name (front.length + 1) (head.length + 1) (head ++ c :: tail) ↔
        (∀ c' ∈ front.flatten ++ head, c'.utf8Size = 1) ∧
          (d.span.stop ≤ source.length ∨ d.span.stop = source.length + 1 ∧ back ≠ [])) := by
  rw [← splitLines_eq]
  refine ⟨exists_line_of_lt hslice, ?_⟩
  intro front head c tail back hlines hstart
  rw [← Text.byteLength_eq_length_iff, ← hstart]
  constructor
  · exact start_and_stop_of_locatedAt hlines
  · rintro ⟨hbytes, hstop⟩
    exact locatedAt_of_start_and_stop hlines hbytes hstop name

/-- A problem on the second line of a source. Only behind it stands a character of two bytes. -/
theorem report_points_at_problem_on_second_line :
    let source : Text := ['a', '\r', '\n', 'b', '$', '{', 'x', '}', ' ', 'é']
    let d : Diagnostic := ⟨.warning, ⟨4, 8⟩, (Problem.unresolved ['x']).message⟩
    source.slice? d.span = some ['$', '{', 'x', '}'] ∧
      d.LocatedAt source ['t'] 2 2 ['b', '$', '{', 'x', '}', ' ', 'é'] := by
  intro source d
  have hslice : source.slice? d.span = some ['$', '{', 'x', '}'] := by decide +kernel
  have hlines : source.splitBy sameLine =
      [['a', '\r', '\n']] ++ (['b'] ++ '$' :: ['{', 'x', '}', ' ', 'é']) :: [] := by decide +kernel
  have hstart : d.span.start = Text.byteLength ([['a', '\r', '\n']].flatten ++ ['b']) := rfl
  have hbytes : ∀ c ∈ [['a', '\r', '\n']].flatten ++ ['b'], c.utf8Size = 1 :=
    Text.byteLength_eq_length_iff.1 rfl
  have hstop : d.span.stop ≤ source.length := by decide
  exact ⟨hslice,
    ((report_points_at_problem_iff hslice ['t']).2 _ _ _ _ _ hlines hstart).2 ⟨hbytes, .inl hstop⟩⟩

/-- The placeholder is at column 3 of the only line. Its span begins at byte 3, because `é` takes
two, and the report says column 4. -/
theorem not_located_behind_accent :
    let source : Text := ['é', ' ', '$', '{', 'x', '}', ' ', 'b']
    let d : Diagnostic := ⟨.warning, ⟨3, 7⟩, (Problem.unresolved ['x']).message⟩
    (check source fun _ => none).map Finding.toDiagnostic = [d] ∧
      source.slice? d.span = some ['$', '{', 'x', '}'] ∧
      source.splitBy sameLine = [['é', ' '] ++ '$' :: ['{', 'x', '}', ' ', 'b']] ∧
      d.span.start = Text.byteLength ['é', ' '] ∧
      d.LocatedAt source ['t'] 1 4 source ∧ ¬ d.LocatedAt source ['t'] 1 3 source := by
  intro source d
  have hlines : source.splitBy sameLine = [source] := by decide +kernel
  have hline : ∀ offset < 8, lineAt? source offset = some (.behind [] source) := by
    intro offset hlt
    have honly : splitLines source = [] ++ source :: [] := (splitLines_eq source).trans hlines
    exact lineAt?_of_onLine honly ⟨Nat.zero_le _, .inl hlt⟩
  have hx :=
    excerpt?_eq_some_iff.2 ⟨_, _, hline d.span.start (by decide),
      hline (d.span.stop - 1) (by decide), rfl⟩
  refine ⟨by decide +kernel, by decide +kernel, hlines, rfl, ?_, ?_⟩
  · have hshows : (7 : Nat) ≤ 0 + source.length := by decide
    have hlocated : d.LocatedAt source ['t'] 1 (3 - 0 + 1) source :=
      locatedAt_of_showsFirst hx (.inr hshows) rfl ['t']
    exact hlocated
  · intro hlocated
    obtain ⟨x, hx', -, -, hcolumn⟩ := eq_of_locatedAt hlocated
    obtain rfl := Option.some.inj (hx.symm.trans hx')
    exact absurd hcolumn (by decide)

end Interpolation
