import Interpolation.Proofs.Segmentation

/-!
# Interpolation.Proofs.Joins

Reading a text that was **put together from pieces**, when every placeholder of every
piece is complete.

Reading the pieces one by one and reading them together can differ only where a `$` ends one piece
and a `{` begins the next (`joins`). There a placeholder opens that no piece knows of, and it takes
in whatever follows up to its closing brace. That brace never stands inside a placeholder of a
piece, so behind it the pieces are read as before (`AllPlaceholders.closing_append`).

`allPlaceholders_flatten_iff`: what holds of the placeholders of the pieces holds of those of the
whole text, if it holds of the ones that open at a join.
-/

namespace Interpolation

variable {P : Expression → Prop}

/-! ### Texts whose placeholders are all complete -/

/-- Every placeholder of the text is closed and has the property `P`. -/
inductive AllPlaceholders (P : Expression → Prop) : Text → Prop
  /-- There is no placeholder. -/
  | plain {t : Text} (ht : ¬ HasOpening t) : AllPlaceholders P t
  /-- The first placeholder is closed and has the property, and so are and have those behind it. -/
  | closed {lead raw rest : Text} (hl : ¬ HasOpening lead) (hr : BraceBalanced raw)
      (hp : P (Expression.parse raw)) (hrest : AllPlaceholders P rest) :
      AllPlaceholders P (lead ++ '$' :: '{' :: (raw ++ '}' :: rest))

/-- The only placeholder of a placeholder that is written back is that placeholder. -/
theorem allPlaceholders_written {raw : Text} (hr : BraceBalanced raw)
    (hp : P (Expression.parse raw)) : AllPlaceholders P (Expression.parse raw).written :=
  .closed not_hasOpening_nil hr hp (.plain not_hasOpening_nil)

/-- The segment is literal, or a complete placeholder with the property `P`. -/
def Segment.Satisfies (P : Expression → Prop) : Segment → Prop
  | .literal _ => True
  | .placeholder e _ => P e
  | .unterminated _ => False

theorem Segment.satisfies_of_mem_literalSegments {t : Text} {s : Segment}
    (h : s ∈ literalSegments t) : s.Satisfies P := by
  rw [eq_literal_of_mem_literalSegments h]
  trivial

theorem allPlaceholders_iff {t : Text} (start : Nat) :
    AllPlaceholders P t ↔ ∀ s ∈ segmentsFrom start t, s.Satisfies P := by
  constructor
  · intro h
    induction h generalizing start with
    | plain ht =>
      rw [segmentsFrom_of_not_hasOpening ht]
      exact fun _ hs => Segment.satisfies_of_mem_literalSegments hs
    | closed hl hr hp _ ih =>
      intro s hs
      rcases (mem_segmentsFrom_closed hl hr).1 hs with hs | rfl | hs
      · exact Segment.satisfies_of_mem_literalSegments hs
      · exact hp
      · exact ih _ s hs
  · intro h
    induction t using Text.segmentInduction generalizing start with
    | plain t ht => exact .plain ht
    | unclosed lead body hl hb =>
      exact (h _ ((mem_segmentsFrom_unclosed hl hb).2 (.inr rfl))).elim
    | closed lead raw rest hl hr ih =>
      have hp := h _ ((mem_segmentsFrom_closed hl hr).2 (.inr (.inl rfl)))
      exact .closed hl hr hp
        (ih _ fun s hs => h s ((mem_segmentsFrom_closed hl hr).2 (.inr (.inr hs))))

theorem not_allPlaceholders_unclosed {lead body : Text} (hl : ¬ HasOpening lead)
    (hb : StaysOpen 0 body) : ¬ AllPlaceholders P (lead ++ '$' :: '{' :: body) := by
  intro h
  rw [allPlaceholders_iff 0] at h
  exact h _ ((mem_segmentsFrom_unclosed hl hb).2 (.inr rfl))

theorem allPlaceholders_closed_iff {lead raw rest : Text} (hl : ¬ HasOpening lead)
    (hr : BraceBalanced raw) :
    AllPlaceholders P (lead ++ '$' :: '{' :: (raw ++ '}' :: rest)) ↔
      P (Expression.parse raw) ∧ AllPlaceholders P rest := by
  constructor
  · intro h
    rw [allPlaceholders_iff 0] at h
    refine ⟨h _ ((mem_segmentsFrom_closed hl hr).2 (.inr (.inl rfl))), ?_⟩
    exact (allPlaceholders_iff _).2 fun s hs =>
      h s ((mem_segmentsFrom_closed hl hr).2 (.inr (.inr hs)))
  · rintro ⟨hp, hrest⟩
    exact .closed hl hr hp hrest

/-- A first character that opens nothing can be taken away. -/
theorem AllPlaceholders.of_cons {c : Char} {t : Text} (h : AllPlaceholders P (c :: t))
    (hc : c ≠ '$') : AllPlaceholders P t := by
  generalize hu : c :: t = u at h
  cases h with
  | plain ht =>
    subst hu
    exact .plain fun ho => ht (hasOpening_cons_iff.2 (Or.inr ho))
  | @closed lead raw rest hl hr hp hrest =>
    cases lead with
    | nil => exact absurd (List.cons.inj hu).1 hc
    | cons d lead =>
      obtain ⟨-, rfl⟩ := List.cons.inj hu
      exact .closed (fun ho => hl (hasOpening_cons_iff.2 (Or.inr ho))) hr hp hrest

/-! ### Closing braces across pieces -/

/-- The search for a closing brace ends in the first text or goes on in the second. -/
theorem closing_append_cases {level : Nat} {s t raw rest : Text}
    (h : closing level (s ++ t) = some (raw, rest)) :
    (∃ u : Text, u <:+ s ∧ rest = u ++ t) ∨
      ∃ (level' : Nat) (raw' : Text), closing level' t = some (raw', rest) := by
  induction s generalizing level raw with
  | nil => exact .inr ⟨level, raw, h⟩
  | cons c s ih =>
    have hmore : ∀ {level' : Nat} {f : Text × Text → Text},
        (closing level' (s ++ t)).map (fun p => (f p, p.2)) = some (raw, rest) →
        (∃ u : Text, u <:+ c :: s ∧ rest = u ++ t) ∨
          ∃ (level' : Nat) (raw' : Text), closing level' t = some (raw', rest) := by
      intro level' f hmap
      obtain ⟨⟨raw', rest'⟩, hp, he⟩ := Option.map_eq_some_iff.1 hmap
      obtain ⟨-, rfl⟩ := Prod.mk.inj he
      rcases ih hp with ⟨u, hu, hrest⟩ | hgo
      · exact .inl ⟨u, hu.trans (List.suffix_cons c s), hrest⟩
      · exact .inr hgo
    rw [List.cons_append, closing] at h
    split at h
    · exact hmore h
    · split at h
      · split at h
        · obtain ⟨-, rfl⟩ := Prod.mk.inj (Option.some.inj h)
          exact .inl ⟨s, List.suffix_cons c s, rfl⟩
        · exact hmore h
      · exact hmore h

/-- Nothing closes inside a balanced text. -/
theorem closing_balanced_append {raw : Text} (hr : BraceBalanced raw) (level : Nat) (t : Text) :
    closing level (raw ++ t) = (closing level t).map fun p => (raw ++ p.1, p.2) := by
  -- The braces of a suffix of a balanced text close some levels too many.
  have hgeneral : ∀ (raw : Text) (k : Nat), StaysOpen k raw → raw.closes = raw.opens + k →
      closing (level + k) (raw ++ t) = (closing level t).map fun p => (raw ++ p.1, p.2) := by
    intro raw
    induction raw with
    | nil =>
      intro k _ heq
      obtain rfl : k = 0 := by simpa using heq.symm
      simp
    | cons c raw ih =>
      intro k hopen heq
      rw [List.cons_append, closing]
      by_cases ho : c = '{'
      · subst ho
        rw [if_pos rfl, Nat.add_assoc, ih (k + 1) (staysOpen_cons_open.1 hopen)
          (by simp only [Text.closes_cons_open, Text.opens_cons_open] at heq; omega),
          Option.map_map]
        rfl
      · rw [if_neg ho]
        by_cases hc : c = '}'
        · subst hc
          cases k with
          | zero => exact absurd hopen not_staysOpen_zero_cons_close
          | succ k =>
            rw [if_pos rfl, if_neg (by omega), ← Nat.add_assoc, Nat.add_sub_cancel,
              ih k (staysOpen_succ_cons_close.1 hopen)
                (by simp only [Text.closes_cons_close, Text.opens_cons_close] at heq; omega),
                Option.map_map]
            rfl
        · simp only [Text.closes_cons, Text.opens_cons, if_neg ho, if_neg hc, Nat.add_zero] at heq
          rw [if_neg hc, ih k ((staysOpen_cons_of_ne ho hc).1 hopen) heq, Option.map_map]
          rfl
  exact hgeneral raw 0 hr.staysOpen hr.closes_eq

/-- The search for a closing brace ends between the placeholders of a text or goes on behind it. -/
theorem AllPlaceholders.closing_append {t : Text} (h : AllPlaceholders P t) {level : Nat}
    {r raw rest : Text} (hc : closing level (t ++ r) = some (raw, rest)) :
    (∃ u v : Text, t = u ++ v ∧ AllPlaceholders P v ∧ rest = v ++ r) ∨
      ∃ (level' : Nat) (raw' : Text), closing level' r = some (raw', rest) := by
  induction h generalizing level raw with
  | plain ht =>
    rcases closing_append_cases hc with ⟨v, ⟨u, hu⟩, hrest⟩ | hgo
    · subst hu
      exact .inl ⟨u, v, rfl, .plain fun ho => ht (ho.mono (List.suffix_append u v).isInfix), hrest⟩
    · exact .inr hgo
  | @closed lead body after hl hr hp hafter ih =>
    rw [List.append_assoc] at hc
    rcases closing_append_cases hc with ⟨v, ⟨u, hu⟩, hrest⟩ | ⟨level', raw', hgo⟩
    · subst hu
      refine .inl ⟨u, v ++ '$' :: '{' :: (body ++ '}' :: after), by simp, ?_, by simpa using hrest⟩
      exact .closed (fun ho => hl (ho.mono (List.suffix_append u v).isInfix)) hr hp hafter
    · -- The whole placeholder is passed, and the level behind it is the one before it.
      have hbody : ∃ raw'' : Text, closing level' (after ++ r) = some (raw'', rest) := by
        simp only [List.cons_append, List.append_assoc, closing, closing_balanced_append hr,
          Char.reduceEq, if_true, if_false, Nat.add_one_ne_zero, Nat.add_sub_cancel,
          Option.map_map] at hgo
        obtain ⟨⟨raw'', rest'⟩, hp, he⟩ := Option.map_eq_some_iff.1 hgo
        obtain ⟨-, rfl⟩ := Prod.mk.inj he
        exact ⟨raw'', hp⟩
      obtain ⟨raw'', hbody⟩ := hbody
      rcases ih hbody with ⟨u, v, rfl, hv, hrest⟩ | hgo'
      · exact .inl ⟨lead ++ '$' :: '{' :: (body ++ '}' :: u), v, by simp, hv, hrest⟩
      · exact .inr hgo'

theorem exists_of_closing_flatten {ps : List Text} (h : ∀ p ∈ ps, AllPlaceholders P p) {level : Nat}
    {raw rest : Text} (hc : closing level ps.flatten = some (raw, rest)) :
    ∃ (front : List Text) (u v : Text) (back : List Text),
      ps = front ++ (u ++ v) :: back ∧ AllPlaceholders P v ∧ rest = v ++ back.flatten := by
  induction ps generalizing level raw with
  | nil => simp [closing] at hc
  | cons p ps ih =>
    rw [List.flatten_cons] at hc
    rcases (h p List.mem_cons_self).closing_append hc with
      ⟨u, v, rfl, hv, hrest⟩ | ⟨level', raw', hgo⟩
    · exact ⟨[], u, v, ps, rfl, hv, hrest⟩
    · obtain ⟨front, u, v, back, rfl, hv, hrest⟩ :=
        ih (fun q hq => h q (List.mem_cons_of_mem _ hq)) hgo
      exact ⟨p :: front, u, v, back, rfl, hv, hrest⟩

/-- A placeholder that opens with the first brace of the pieces ends between the
placeholders of one of them. -/
theorem exists_of_opening_flatten {ps : List Text} (h : ∀ p ∈ ps, AllPlaceholders P p)
    {raw rest : Text} (hr : BraceBalanced raw) (hps : ps.flatten = '{' :: (raw ++ '}' :: rest)) :
    ∃ (front : List Text) (u v : Text) (back : List Text),
      ps = front ++ (u ++ v) :: back ∧ AllPlaceholders P v ∧ rest = v ++ back.flatten := by
  induction ps with
  | nil => cases hps
  | cons p ps ih =>
    have hmem : ∀ q ∈ ps, AllPlaceholders P q := fun q hq => h q (List.mem_cons_of_mem _ hq)
    cases p with
    | nil =>
      obtain ⟨front, u, v, back, rfl, hv, hrest⟩ := ih hmem hps
      exact ⟨[] :: front, u, v, back, rfl, hv, hrest⟩
    | cons c p =>
      rw [List.flatten_cons, List.cons_append] at hps
      obtain ⟨rfl, htail⟩ := List.cons.inj hps
      have hp : AllPlaceholders P p := (h _ List.mem_cons_self).of_cons (by decide)
      have hall : ∀ q ∈ p :: ps, AllPlaceholders P q := List.forall_mem_cons.2 ⟨hp, hmem⟩
      have hc : closing 0 (p :: ps).flatten = some (raw, rest) :=
        closing_zero_eq_some_iff.2 ⟨htail, hr⟩
      obtain ⟨front, u, v, back, heq, hv, hrest⟩ := exists_of_closing_flatten hall hc
      cases front with
      | nil =>
        obtain ⟨rfl, rfl⟩ := List.cons.inj heq
        exact ⟨[], '{' :: u, v, ps, rfl, hv, hrest⟩
      | cons q front =>
        obtain ⟨rfl, rfl⟩ := List.cons.inj heq
        exact ⟨('{' :: p) :: front, u, v, back, rfl, hv, hrest⟩

/-! ### Where pieces meet -/

/-- The byte offsets at which the pieces end, if the first one begins at byte `start`. -/
def joins (start : Nat) : List Text → List Nat
  | [] => []
  | p :: ps => (start + p.byteLength) :: joins (start + p.byteLength) ps

theorem joins_append (start : Nat) (ps qs : List Text) :
    joins start (ps ++ qs) = joins start ps ++ joins (start + Text.byteLength ps.flatten) qs := by
  induction ps generalizing start with
  | nil => simp [joins]
  | cons p ps ih => simp [joins, ih, Nat.add_assoc]

/-- The byte offset of the `{` that opens the segment. -/
def Segment.brace? : Segment → Option Nat
  | .literal _ => none
  | .placeholder _ span => some (span.start + 1)
  | .unterminated span => some (span.start + 1)

/-- The `${` of the segment was made of the end of one piece and the beginning of another. -/
def Segment.OpensAtJoin (ps : List Text) (s : Segment) : Prop := ∃ n ∈ s.brace?, n ∈ joins 0 ps

/-- Behind text that opens nothing the segments are those of what follows. -/
theorem mem_segmentsFrom_of_mem_append {u t : Text} (hu : ¬ HasOpening u)
    (hseam : ¬ (u.getLast? = some '$' ∧ t.head? = some '{')) {start : Nat} {s : Segment}
    (hs : s ∈ segmentsFrom start (u ++ t)) :
    s.Satisfies P ∨ s ∈ segmentsFrom (start + u.byteLength) t := by
  have hplain : ∀ lead body : Text, t = lead ++ body → ¬ HasOpening lead →
      ¬ HasOpening (u ++ lead) := by
    rintro lead body rfl hl ho
    rcases hasOpening_append_iff.1 ho with ho | ho | ⟨hlast, hhead⟩
    · exact hu ho
    · exact hl ho
    · obtain ⟨lead, rfl⟩ := List.head?_eq_some_iff.1 hhead
      exact hseam ⟨hlast, rfl⟩
  -- The first placeholder of `t` is the first one of `u ++ t`, with `u` in front of
  -- what stands before it.
  induction t using Text.segmentInduction with
  | plain t ht =>
    rw [segmentsFrom_of_not_hasOpening (hplain t [] (List.append_nil t).symm ht)] at hs
    exact .inl (Segment.satisfies_of_mem_literalSegments hs)
  | unclosed lead body hl hb =>
    rw [← List.append_assoc, segmentsFrom_unclosed (hplain lead _ rfl hl) hb] at hs
    rcases List.mem_append.1 hs with hs | hs
    · exact .inl (Segment.satisfies_of_mem_literalSegments hs)
    · rw [List.mem_singleton.1 hs, segmentsFrom_unclosed hl hb]
      simp [Nat.add_assoc]
  | closed lead raw rest hl hr _ =>
    rw [← List.append_assoc, segmentsFrom_closed (hplain lead _ rfl hl) hr] at hs
    rcases List.mem_append.1 hs with hs | hs
    · exact .inl (Segment.satisfies_of_mem_literalSegments hs)
    · rw [segmentsFrom_closed hl hr]
      rw [Text.byteLength_append, ← Nat.add_assoc] at hs
      exact .inr (List.mem_append_right _ hs)

/-- Where the pieces end does not depend on where the reading of them begins. -/
theorem mem_joins_of_suffix {front : List Text} {u v : Text} {back : List Text} {start start' : Nat}
    (h : start' = start + Text.byteLength front.flatten + u.byteLength) {n : Nat}
    (hn : n ∈ joins start' (v :: back)) : n ∈ joins start (front ++ (u ++ v) :: back) := by
  have hend : start' + v.byteLength =
      start + Text.byteLength front.flatten + Text.byteLength (u ++ v) := by
    rw [h, Text.byteLength_append, Nat.add_assoc]
  rw [joins, hend] at hn
  rw [joins_append, joins]
  exact List.mem_append_right _ hn

/-- Reading `ps` from byte `start` goes on with `qs` from byte `start'`. -/
structure ReadsOn (start : Nat) (ps : List Text) (start' : Nat) (qs : List Text) : Prop where
  /-- The pieces end where they ended. -/
  ends : ∀ n ∈ joins start' qs, n ∈ joins start ps
  /-- The pieces are fewer or shorter. -/
  shorter : qs.flatten.length + qs.length < ps.flatten.length + ps.length

/-- Reading goes on behind a piece. -/
theorem readsOn_behind_piece (start : Nat) (p : Text) (ps : List Text) :
    ReadsOn start (p :: ps) (start + p.byteLength) ps where
  ends n hn := List.mem_cons_of_mem _ hn
  shorter := by
    simp only [List.flatten_cons, List.length_append, List.length_cons]
    omega

/-- Reading goes on inside a piece, behind its first placeholder. -/
theorem readsOn_behind_placeholder (start : Nat) (lead raw rest : Text) (ps : List Text) :
    ReadsOn start ((lead ++ '$' :: '{' :: (raw ++ '}' :: rest)) :: ps)
      (start + lead.byteLength + raw.byteLength + 3) (rest :: ps) where
  ends n hn := by
    have hcut : lead ++ '$' :: '{' :: (raw ++ '}' :: rest) =
        (lead ++ '$' :: '{' :: (raw ++ ['}'])) ++ rest := by
      simp
    show n ∈ joins start ([] ++ (lead ++ '$' :: '{' :: (raw ++ '}' :: rest)) :: ps)
    rw [hcut]
    refine mem_joins_of_suffix ?_ hn
    simp only [List.flatten_nil, Text.byteLength_append, Text.byteLength_cons,
      Text.byteLength_nil, Text.utf8Size_dollar, Text.utf8Size_open, Text.utf8Size_close]
    omega
  shorter := by
    simp only [List.flatten_cons, List.length_append, List.length_cons]
    omega

/-- Behind a placeholder that opens at a join the reading goes on inside one of the pieces. -/
theorem cases_of_joined {lead body : Text} (hl : ¬ HasOpening lead) {ps : List Text}
    (h : ∀ p ∈ ps, AllPlaceholders P p) (hbody : ps.flatten = '{' :: body)
    {start : Nat} {s : Segment} (hs : s ∈ segmentsFrom start (lead ++ '$' :: '{' :: body)) :
    s.Satisfies P ∨ s.brace? = some (start + lead.byteLength + 1) ∨
      ∃ (start' : Nat) (qs : List Text), (∀ q ∈ qs, AllPlaceholders P q) ∧
        ReadsOn start ((lead ++ ['$']) :: ps) start' qs ∧ s ∈ segmentsFrom start' qs.flatten := by
  cases hc : closing 0 body with
  | none =>
    rcases (mem_segmentsFrom_unclosed hl (closing_eq_none_iff.1 hc)).1 hs with hs | rfl
    · exact .inl (Segment.satisfies_of_mem_literalSegments hs)
    · exact .inr (.inl rfl)
  | some cut =>
    obtain ⟨raw, rest⟩ := cut
    obtain ⟨rfl, hr⟩ := closing_zero_eq_some_iff.1 hc
    rcases (mem_segmentsFrom_closed hl hr).1 hs with hs | rfl | hs
    · exact .inl (Segment.satisfies_of_mem_literalSegments hs)
    · exact .inr (.inl rfl)
    obtain ⟨front, u, v, back, rfl, hv, rfl⟩ := exists_of_opening_flatten h hr hbody
    have hback : ∀ q ∈ v :: back, AllPlaceholders P q := by
      refine List.forall_mem_cons.2 ⟨hv, fun q hq => h q ?_⟩
      exact List.mem_append_right _ (List.mem_cons_of_mem _ hq)
    have hbytes := congrArg Text.byteLength hbody
    have hchars := congrArg List.length hbody
    simp only [List.flatten_append, List.flatten_cons, Text.byteLength_append, Text.byteLength_cons,
      Text.utf8Size_open, Text.utf8Size_close, List.length_append,
      List.length_cons] at hbytes hchars
    refine .inr (.inr ⟨_, v :: back, hback, ⟨fun n hn => ?_, ?_⟩, hs⟩)
    · show n ∈ joins start ((lead ++ ['$']) :: front ++ (u ++ v) :: back)
      refine mem_joins_of_suffix ?_ hn
      simp only [List.flatten_cons, Text.byteLength_append, Text.byteLength_cons,
        Text.byteLength_nil, Text.utf8Size_dollar]
      omega
    · simp only [List.flatten_cons, List.flatten_append, List.length_append, List.length_cons]
      omega

/-- A segment of the pieces together opens at a join or is as the segments of the pieces are. -/
theorem satisfies_or_joined {ps : List Text} (h : ∀ p ∈ ps, AllPlaceholders P p)
    {start : Nat} {s : Segment} (hs : s ∈ segmentsFrom start ps.flatten) :
    s.Satisfies P ∨ ∃ n ∈ s.brace?, n ∈ joins start ps := by
  induction hn : ps.flatten.length + ps.length using Nat.strongRecOn generalizing ps start with
  | ind n ih =>
    cases ps with
    | nil =>
      rw [List.flatten_nil, segmentsFrom_of_not_hasOpening not_hasOpening_nil] at hs
      cases hs
    | cons p ps =>
      have hmem : ∀ q ∈ ps, AllPlaceholders P q := fun q hq => h q (List.mem_cons_of_mem _ hq)
      -- What is left to read is covered by the induction hypothesis.
      have hon : ∀ {start' : Nat} {qs : List Text}, (∀ q ∈ qs, AllPlaceholders P q) →
          ReadsOn start (p :: ps) start' qs → s ∈ segmentsFrom start' qs.flatten →
          s.Satisfies P ∨ ∃ n ∈ s.brace?, n ∈ joins start (p :: ps) := by
        intro start' qs hqs hreads hs
        rcases ih _ (hn ▸ hreads.shorter) hqs hs rfl with hs | ⟨m, hm, hjoin⟩
        · exact .inl hs
        · exact .inr ⟨m, hm, hreads.ends m hjoin⟩
      have hp := h p List.mem_cons_self
      rw [List.flatten_cons] at hs
      cases hp with
      | plain hplain =>
        by_cases hseam : p.getLast? = some '$' ∧ ps.flatten.head? = some '{'
        · obtain ⟨lead, rfl⟩ := List.getLast?_eq_some_iff.1 hseam.1
          obtain ⟨body, hbody⟩ := List.head?_eq_some_iff.1 hseam.2
          have hl : ¬ HasOpening lead :=
            fun ho => hplain (ho.mono (List.prefix_append lead ['$']).isInfix)
          rw [hbody, List.append_assoc, List.singleton_append] at hs
          rcases cases_of_joined hl hmem hbody hs with hs | hs | ⟨start', qs, hqs, hreads, hs⟩
          · exact .inl hs
          · refine .inr ⟨_, hs, ?_⟩
            rw [joins, Text.byteLength_append]
            exact List.mem_cons_self
          · exact hon hqs hreads hs
        · rcases mem_segmentsFrom_of_mem_append hplain hseam hs with hs | hs
          · exact .inl hs
          · exact hon hmem (readsOn_behind_piece start p ps) hs
      | @closed lead raw rest hl hr hp hrest =>
        have happend : (lead ++ '$' :: '{' :: (raw ++ '}' :: rest)) ++ ps.flatten =
            lead ++ '$' :: '{' :: (raw ++ '}' :: (rest :: ps).flatten) := by
          simp
        rw [happend] at hs
        rcases (mem_segmentsFrom_closed hl hr).1 hs with hs | rfl | hs
        · exact .inl (Segment.satisfies_of_mem_literalSegments hs)
        · exact .inl hp
        · exact hon (List.forall_mem_cons.2 ⟨hrest, hmem⟩)
            (readsOn_behind_placeholder start lead raw rest ps) hs

/-- **Reading pieces together is reading them one by one, but for what opens at their joins.** -/
theorem allPlaceholders_flatten_iff {ps : List Text} (h : ∀ p ∈ ps, AllPlaceholders P p) :
    AllPlaceholders P ps.flatten ↔ ∀ s ∈ segments ps.flatten, s.OpensAtJoin ps → s.Satisfies P := by
  rw [allPlaceholders_iff 0]
  constructor
  · intro hall s hs _
    exact hall s hs
  · intro hjoined s hs
    rcases satisfies_or_joined h hs with hsat | hjoin
    · exact hsat
    · exact hjoined s hs hjoin

end Interpolation
