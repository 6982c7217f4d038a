import Interpolation.Proofs.DottedNames
import Interpolation.Resolver
import Mathlib.Logic.Relation

/-!
# Interpolation.Proofs.ObjectPaths

**What a dotted path finds**, whatever kind of objects it goes through: trees, or objects that lead
to each other in circles.

Looking up one name is described without the two searches that do it: the nearest ancestor that has
a field of the name answers, and only where no ancestor has one the nearest with an accessor
(`Navigable.LooksUp`, `lookup?_eq_some_iff`). Looking up the names of a path one after the other is
then a walk from object to object (`Navigable.Leads`).

`dotted_paths_follow_objects` says that a path of names without dots finds what the last name looks
up to where the walk along the others ends, and that paths compose.
-/

namespace Interpolation

namespace Navigable

/-! ### Inheritance -/

section Chains

variable {ν : Type} [Navigable ν] {β : Type} {o p : ν}

/-- `p` is the object `o`, or one that `o` inherits from at some distance. -/
def Ancestor (o p : ν) : Prop := Relation.ReflTransGen (fun o p => parent? o = some p) o p

/-- Of the object `o` and those it inherits from, the nearest that has something has `b`. -/
inductive Nearest (get : ν → Option β) : ν → β → Prop
  /-- The object itself has it. -/
  | own {o : ν} {b : β} (h : get o = some b) : Nearest get o b
  /-- The object has nothing, and inherits from one for which `b` is the nearest. -/
  | inherited {o p : ν} {b : β} (hown : get o = none) (hparent : parent? o = some p)
    (h : Nearest get p b) : Nearest get o b

theorem chain_of_parent (h : parent? o = some p) : chain o = o :: chain p := by
  rw [chain]
  split
  · rename_i hnone
    rw [h] at hnone
    cases hnone
  · rename_i parent hparent
    rw [h] at hparent
    cases hparent
    rfl

theorem chain_of_no_parent (h : parent? o = none) : chain o = [o] := by
  rw [chain]
  split
  · rfl
  · rename_i parent hparent
    rw [h] at hparent
    cases hparent

theorem mem_chain_iff : p ∈ chain o ↔ Ancestor o p := by
  induction o using chain.induct with
  | case1 o ih =>
    cases hparent : parent? o with
    | none =>
      rw [chain_of_no_parent hparent, List.mem_singleton]
      constructor
      · rintro rfl
        exact .refl
      · intro h
        rcases h.cases_head with rfl | ⟨q, hq, -⟩
        · rfl
        · rw [hparent] at hq
          cases hq
    | some q =>
      rw [chain_of_parent hparent, List.mem_cons, ih q hparent]
      constructor
      · rintro (rfl | h)
        · exact .refl
        · exact .head hparent h
      · intro h
        rcases h.cases_head with rfl | ⟨q', hq', h'⟩
        · exact .inl rfl
        · rw [hparent] at hq'
          cases hq'
          exact .inr h'

/-- Searching the chain finds what the nearest object has. -/
theorem findSome?_chain_eq_some_iff {get : ν → Option β} {b : β} :
    (chain o).findSome? get = some b ↔ Nearest get o b := by
  induction o using chain.induct with
  | case1 o ih =>
    cases hget : get o with
    | some b' =>
      have hfirst : (chain o).findSome? get = some b' := by
        rw [chain, List.findSome?_cons, hget]
      rw [hfirst]
      constructor
      · intro h
        exact .own (hget.trans h)
      · intro h
        cases h with
        | own h => rw [← hget, h]
        | inherited hown => rw [hget] at hown; cases hown
    | none =>
      cases hparent : parent? o with
      | none =>
        rw [chain_of_no_parent hparent, List.findSome?_cons, hget]
        constructor
        · intro h
          cases h
        · intro h
          cases h with
          | own h => rw [hget] at h; cases h
          | inherited _ hp => rw [hparent] at hp; cases hp
      | some p =>
        rw [chain_of_parent hparent, List.findSome?_cons, hget]
        refine (ih p hparent).trans ⟨.inherited hget hparent, fun h => ?_⟩
        cases h with
        | own h => rw [hget] at h; cases h
        | inherited _ hp h =>
          rw [hparent] at hp
          cases hp
          exact h

theorem findSome?_chain_eq_none_iff {get : ν → Option β} :
    (chain o).findSome? get = none ↔ ∀ p, Ancestor o p → get p = none := by
  rw [List.findSome?_eq_none_iff]
  exact forall_congr' fun p => by rw [mem_chain_iff]

end Chains

/-! ### Names -/

section Walks

variable {ν : Type} [Navigable ν] {o : ν} {name : Text} {found : Found ν}

/-- What the name looks up to on `o`: the field of the nearest ancestor that has one; where none has
one, the accessor of the nearest that has one. -/
inductive LooksUp (o : ν) (name : Text) (found : Found ν) : Prop
  /-- An ancestor has a field of the name. -/
  | field (h : Nearest (field? · name) o found)
  /-- No ancestor has one, but an ancestor has an accessor of the name. -/
  | accessor (hfield : ∀ p, Ancestor o p → field? p name = none)
    (h : Nearest (accessor? · name) o found)

theorem lookup?_eq_some_iff : lookup? o name = some found ↔ LooksUp o name found := by
  rw [lookup?, Option.or_eq_some_iff, findSome?_chain_eq_some_iff, findSome?_chain_eq_some_iff,
    findSome?_chain_eq_none_iff]
  constructor
  · rintro (h | ⟨hfield, h⟩)
    · exact .field h
    · exact .accessor hfield h
  · rintro (h | ⟨hfield, h⟩)
    · exact .inl h
    · exact .inr ⟨hfield, h⟩

/-- **Fields shadow accessors**, from whatever distance they are inherited. -/
theorem exists_nearest_field {p : ν} (hp : Ancestor o p) (hfield : (field? p name).isSome) :
    ∃ found, Nearest (field? · name) o found ∧ lookup? o name = some found := by
  cases hfound : (chain o).findSome? (field? · name) with
  | none =>
    rw [findSome?_chain_eq_none_iff.1 hfound p hp] at hfield
    cases hfield
  | some found =>
    have hnearest := findSome?_chain_eq_some_iff.1 hfound
    exact ⟨found, hnearest, lookup?_eq_some_iff.2 (.field hnearest)⟩

/-- The names lead from the object `o` to another: each one looks up to an object on
the one before. -/
inductive Leads : ν → List Text → ν → Prop
  /-- Without names an object leads to itself. -/
  | here (o : ν) : Leads o [] o
  /-- The first name looks up to an object, and the others lead on from there. -/
  | on {o inner last : ν} {name : Text} {names : List Text} (h : LooksUp o name (.object inner))
    (hon : Leads inner names last) : Leads o (name :: names) last

theorem LooksUp.unique {found' : Found ν} (h : LooksUp o name found) (h' : LooksUp o name found') :
    found = found' :=
  Option.some.inj ((lookup?_eq_some_iff.2 h).symm.trans (lookup?_eq_some_iff.2 h'))

theorem Leads.unique {names : List Text} {last last' : ν} (h : Leads o names last)
    (h' : Leads o names last') : last = last' := by
  induction h with
  | here o =>
    cases h'
    rfl
  | on hinner _ ih =>
    cases h' with
    | on hinner' hlast' =>
      cases hinner.unique hinner'
      exact ih hlast'

theorem follow?_cons {names : List Text} (h : names ≠ []) :
    follow? o (name :: names) = some found ↔
      ∃ inner, LooksUp o name (.object inner) ∧ follow? inner names = some found := by
  cases names with
  | nil => exact absurd rfl h
  | cons name' names =>
    rw [follow?.eq_3 o name (name' :: names) h]
    constructor
    · intro hfollow
      split at hfollow
      · rename_i inner hinner
        exact ⟨inner, lookup?_eq_some_iff.1 hinner, hfollow⟩
      · cases hfollow
    · rintro ⟨inner, hinner, hfollow⟩
      rw [lookup?_eq_some_iff.2 hinner]
      exact hfollow

/-- Following a path is walking along its first names, and following the rest from there. -/
theorem follow?_append {names others : List Text} (h : others ≠ []) :
    follow? o (names ++ others) = some found ↔
      ∃ last, Leads o names last ∧ follow? last others = some found := by
  induction names generalizing o with
  | nil =>
    constructor
    · intro hfollow
      exact ⟨o, .here o, hfollow⟩
    · rintro ⟨last, hlast, hfollow⟩
      cases hlast
      exact hfollow
  | cons name names ih =>
    rw [List.cons_append, follow?_cons (by simp [h])]
    constructor
    · rintro ⟨inner, hinner, hfollow⟩
      obtain ⟨last, hlast, hfollow⟩ := ih.1 hfollow
      exact ⟨last, .on hinner hlast, hfollow⟩
    · rintro ⟨last, hlast, hfollow⟩
      cases hlast with
      | on hinner hlast => exact ⟨_, hinner, ih.2 ⟨last, hlast, hfollow⟩⟩

end Walks

/-! ### Members that differ -/

/-- The objects are the same in the one view and in the other, apart from members with
a dot in their name. -/
structure SameApartFromDots {ν : Type} (G G' : Navigable ν) : Prop where
  /-- They inherit from the same objects. -/
  parent? : ∀ o, G'.parent? o = G.parent? o
  /-- They are shown in the same form. -/
  shown : ∀ o, G'.shown o = G.shown o
  /-- They have the same fields, -/
  field? : ∀ o name, '.' ∉ name → G'.field? o name = G.field? o name
  /-- and the same accessors. -/
  accessor? : ∀ o name, '.' ∉ name → G'.accessor? o name = G.accessor? o name

namespace SameApartFromDots

variable {ν : Type} {G G' : Navigable ν}

theorem chain_eq (h : SameApartFromDots G G') (o : ν) : @chain ν G' o = @chain ν G o := by
  induction o using @chain.induct ν G with
  | case1 o ih =>
    cases hparent : G.parent? o with
    | none =>
      rw [@chain_of_no_parent ν G o hparent,
        @chain_of_no_parent ν G' o ((h.parent? o).trans hparent)]
    | some p =>
      rw [@chain_of_parent ν G o p hparent,
        @chain_of_parent ν G' o p ((h.parent? o).trans hparent), ih p hparent]

theorem lookup?_eq (h : SameApartFromDots G G') (o : ν) {name : Text} (hname : '.' ∉ name) :
    @lookup? ν G' o name = @lookup? ν G o name := by
  have hfield : (fun p => G'.field? p name) = fun p => G.field? p name :=
    funext fun p => h.field? p name hname
  have haccessor : (fun p => G'.accessor? p name) = fun p => G.accessor? p name :=
    funext fun p => h.accessor? p name hname
  unfold lookup?
  rw [h.chain_eq o, hfield, haccessor]

theorem follow?_eq (h : SameApartFromDots G G') (o : ν) {names : List Text}
    (hnames : ∀ name ∈ names, '.' ∉ name) : @follow? ν G' o names = @follow? ν G o names := by
  induction names generalizing o with
  | nil => rfl
  | cons name names ih =>
    obtain ⟨hname, hothers⟩ := List.forall_mem_cons.1 hnames
    cases names with
    | nil => exact h.lookup?_eq o hname
    | cons name' names =>
      unfold follow?
      rw [h.lookup?_eq o hname]
      split
      · exact ih _ hothers
      · rfl

theorem text_eq (h : SameApartFromDots G G') : @Found.text ν G' = @Found.text ν G := by
  funext found
  cases found with
  | object o => exact h.shown o
  | value v => rfl

end SameApartFromDots

end Navigable

/-! ### Resolving paths -/

namespace Resolver

variable {ν : Type} [Navigable ν] {root : ν} {path : Text}

theorem object_eq_some_iff {t : Text} : Resolver.object (some root) path = some t ↔
    ∃ found, Navigable.follow? root (pathNames path) = some found ∧ found.text = t := by
  rw [Resolver.object, Option.bind_some, Option.map_eq_some_iff]

theorem object_append {names : List Text} (hne : names ≠ []) (h : ∀ name ∈ names, IsPlainName name)
    (rest t : Text) :
    Resolver.object (some root) (Text.join ['.'] names ++ '.' :: rest) = some t ↔
      ∃ o, Navigable.Leads root names o ∧ Resolver.object (some o) rest = some t := by
  rw [object_eq_some_iff, pathNames_join_append hne h]
  constructor
  · rintro ⟨found, hfollow, ht⟩
    obtain ⟨o, ho, hfollow⟩ := (Navigable.follow?_append (pathNames_ne_nil rest)).1 hfollow
    exact ⟨o, ho, object_eq_some_iff.2 ⟨found, hfollow, ht⟩⟩
  · rintro ⟨o, ho, hresolve⟩
    obtain ⟨found, hfollow, ht⟩ := object_eq_some_iff.1 hresolve
    exact ⟨found, (Navigable.follow?_append (pathNames_ne_nil rest)).2 ⟨o, ho, hfollow⟩, ht⟩

end Resolver

/-- **Dotted paths follow objects.** A path of names without dots finds something just if each
name but the last looks up to an object, on the one before, and the last name looks up to
something; it finds the text of that.

A field that is inherited from anywhere prevails over an accessor. Members with a dot in their name
make no difference to such a path. A path that goes on finds what the rest of it finds from the
object that its beginning leads to, and nothing if that is no object. -/
theorem dotted_paths_follow_objects {ν : Type} [G : Navigable ν] (root : ν)
    (names : List Text) (last : Text) (h : ∀ name ∈ names ++ [last], IsPlainName name) :
    let path := Text.join ['.'] (names ++ [last])
    (∀ t, Resolver.object (some root) path = some t ↔
      ∃ o found, Navigable.Leads root names o ∧ Navigable.LooksUp o last found ∧ found.text = t) ∧
    (∀ (o p : ν) (name : Text), Navigable.Ancestor o p → (Navigable.field? p name).isSome →
      ∃ found, Navigable.Nearest (Navigable.field? · name) o found ∧
        Navigable.lookup? o name = some found) ∧
    (∀ G' : Navigable ν, Navigable.SameApartFromDots G G' →
      @Resolver.object ν G' (some root) path = @Resolver.object ν G (some root) path) ∧
    ∀ rest,
      (∀ o, Navigable.Leads root (names ++ [last]) o →
        Resolver.object (some root) (path ++ '.' :: rest) = Resolver.object (some o) rest) ∧
      ((∀ o, ¬ Navigable.Leads root (names ++ [last]) o) →
        Resolver.object (some root) (path ++ '.' :: rest) = none) := by
  have hne : names ++ [last] ≠ [] := by simp
  have hpath : pathNames (Text.join ['.'] (names ++ [last])) = names ++ [last] :=
    pathNames_join hne h
  refine ⟨fun t => ?_, fun o p name => Navigable.exists_nearest_field, fun G' hsame => ?_,
    fun rest => ⟨?_, ?_⟩⟩
  · rw [Resolver.object_eq_some_iff, hpath]
    constructor
    · rintro ⟨found, hfollow, ht⟩
      obtain ⟨o, ho, hfound⟩ := (Navigable.follow?_append (List.cons_ne_nil _ _)).1 hfollow
      exact ⟨o, found, ho, Navigable.lookup?_eq_some_iff.1 hfound, ht⟩
    · rintro ⟨o, found, ho, hfound, ht⟩
      have hlast : Navigable.follow? o [last] = some found := Navigable.lookup?_eq_some_iff.2 hfound
      exact ⟨found, (Navigable.follow?_append (List.cons_ne_nil _ _)).2 ⟨o, ho, hlast⟩, ht⟩
  · unfold Resolver.object
    have hfollow := hsame.follow?_eq root fun name hname => (h name hname).2
    rw [hpath, Option.bind_some, Option.bind_some, hsame.text_eq, hfollow]
  · intro o ho
    refine Option.ext fun t => (Resolver.object_append hne h rest t).trans ?_
    constructor
    · rintro ⟨o', ho', hresolve⟩
      rwa [ho.unique ho']
    · intro hresolve
      exact ⟨o, ho, hresolve⟩
  · intro hno
    refine Option.eq_none_iff_forall_ne_some.2 fun t hresolve => ?_
    obtain ⟨o, ho, -⟩ := (Resolver.object_append hne h rest t).1 hresolve
    exact hno o ho

/-- A field that is inherited over two steps prevails over an accessor of the object, and over a
field whose name is the whole path. -/
theorem dotted_paths_follow_inherited_field :
    let inner : Object := .mk [(['y'], .text ['v'])] [] none []
    let ancestor : Object := .mk [(['x'], .object inner)] [] none []
    let parent : Object := .mk [] [] (some ancestor) []
    let root : Object :=
      .mk [(['x', '.', 'y'], .text ['w'])] [(['x'], .text ['u'])] (some parent) []
    (∀ name ∈ [['x']] ++ [['y']], IsPlainName name) ∧
      Resolver.object (some root) ['x', '.', 'y'] = some ['v'] := by
  intro inner ancestor parent root
  have hplain : ∀ name ∈ [['x']] ++ [['y']], IsPlainName name := by simp [IsPlainName]
  have hinner : Navigable.LooksUp root ['x'] (.object inner) :=
    .field (.inherited rfl rfl (.inherited rfl rfl (.own rfl)))
  have hfound : Navigable.LooksUp inner ['y'] (.value (.text ['v'])) := .field (.own rfl)
  have hpath := (dotted_paths_follow_objects root [['x']] ['y'] hplain).1 ['v']
  exact ⟨hplain, hpath.2 ⟨inner, .value (.text ['v']), .on hinner (.here inner), hfound, rfl⟩⟩

end Interpolation
