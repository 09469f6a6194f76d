import Mathlib.Data.List.Forall2
import Scribe.Proofs.Build.Trimming

/-!
# Places of sequences

The commas of a sequence cut its children into segments, and every segment is
a place for one item. `items_fill_places` says what a sequence builds: each
place holds what the last child of its segment builds and is a gap if the
segment is empty, so that no item changes its place, however many separators
stand in front of it, behind it or next to each other. Only a sequence
without any child has no place at all.

The children are read from left to right. `FillsPlaces` relates those read so
far to the places filled so far; a separator opens a place
(`FillsPlaces.separate`) and an item fills the last one
(`FillsPlaces.place`).
-/

namespace Scribe

variable {α β : Type}

/-! ## Segments of lists -/

/-- What separates nothing joins the last segment. -/
theorem splitOnP_concat {p : α → Bool} {xs last : List α} {init : List (List α)} {x : α}
    (hx : p x = false) (h : xs.splitOnP p = init ++ [last]) :
    (xs ++ [x]).splitOnP p = init ++ [last ++ [x]] := by
  induction xs generalizing init last with
  | nil =>
    obtain ⟨rfl, rfl⟩ : init = [] ∧ last = [] := by
      cases init <;> simp_all
    simp [List.splitOnP_cons_eq_if_modifyHead, hx]
  | cons y xs ih =>
    rw [List.splitOnP_cons_eq_if_modifyHead] at h
    rw [List.cons_append, List.splitOnP_cons_eq_if_modifyHead]
    cases hy : p y with
    | true =>
      rw [hy, if_pos rfl] at h
      -- `y` separates, and the last segment lies behind it
      cases init with
      | nil => simp at h
      | cons first init =>
        obtain ⟨rfl, htail⟩ := List.cons.inj h
        rw [if_pos rfl, ih htail, List.cons_append]
    | false =>
      rw [hy, if_neg Bool.false_ne_true] at h
      rw [if_neg Bool.false_ne_true]
      obtain ⟨first, rest, hxs⟩ := List.exists_cons_of_ne_nil (List.splitOnP_ne_nil p xs)
      rw [hxs, List.modifyHead_cons] at h
      -- `y` begins the first segment, which may be the last one too
      cases init with
      | nil =>
        obtain ⟨rfl, rfl⟩ : y :: first = last ∧ rest = [] := by simpa using h
        have hjoined : (xs ++ [x]).splitOnP p = [] ++ [first ++ [x]] := ih hxs
        rw [hjoined]
        rfl
      | cons _ init =>
        obtain ⟨rfl, rfl⟩ := List.cons.inj h
        have hjoined : (xs ++ [x]).splitOnP p = (first :: init) ++ [last ++ [x]] := ih hxs
        rw [hjoined]
        rfl

/-- What is related to a list with a last element has a last one too. -/
theorem exists_concat_of_forall₂ {R : α → β → Prop} {as : List α} {a : α} {bs : List β}
    (h : List.Forall₂ R (as ++ [a]) bs) :
    ∃ bs' b, bs = bs' ++ [b] ∧ List.Forall₂ R as bs' ∧ R a b := by
  induction as generalizing bs with
  | nil =>
    obtain _ | ⟨hb, ⟨⟩⟩ := h
    exact ⟨[], _, rfl, .nil, hb⟩
  | cons a' as ih =>
    obtain _ | ⟨hb, hrest⟩ := h
    obtain ⟨bs', b, rfl, hbs, hlast⟩ := ih hrest
    exact ⟨_ :: bs', b, rfl, .cons hb hbs, hlast⟩

/-! ## Places and segments -/

section Places

/-- **The place is filled from the segment**: it holds what the last of the
segment builds, and is a gap exactly if the segment is empty. -/
structure Fills (build : α → Traced Expr) (segment : List α) (place : Option Expr) : Prop where
  gap : place = none ↔ segment = []
  item : ∀ e ∈ place, ∃ a ∈ segment.getLast?, (build a).result = .ok e

/-- **The places are filled from the list**: one from each segment between
separators, or none if the list is empty. -/
def FillsPlaces (build : α → Traced Expr) (separates : α → Bool) (xs : List α)
    (is : List (Option Expr)) : Prop :=
  xs = [] ∧ is = [] ∨ xs ≠ [] ∧ List.Forall₂ (Fills build) (xs.splitOnP separates) is

variable {build : α → Traced Expr} {separates : α → Bool} {xs : List α}
variable {is is' : List (Option Expr)}

/-- An empty segment leaves a gap. -/
theorem fills_gap : Fills build [] none :=
  ⟨by simp, nofun⟩

/-- The last of a segment is what its place holds. -/
theorem fills_item {x : α} {e : Expr} (he : (build x).result = .ok e) (segment : List α) :
    Fills build (segment ++ [x]) (some e) := by
  refine ⟨by simp, ?_⟩
  rintro _ ⟨⟩
  exact ⟨x, by simp, he⟩

/-- A segment fills its place in one way. -/
theorem Fills.unique : Relator.RightUnique (Fills build) := by
  intro segment place place' h h'
  cases place with
  | none => exact (h'.gap.2 (h.gap.1 rfl)).symm
  | some e =>
    cases place' with
    | none => exact nomatch h.gap.2 (h'.gap.1 rfl)
    | some e' =>
      obtain ⟨a, ha, he⟩ := h.item e rfl
      obtain ⟨a', ha', he'⟩ := h'.item e' rfl
      obtain rfl := Option.some.inj (ha.symm.trans ha')
      rw [Except.ok.inj (he.symm.trans he')]

namespace FillsPlaces

/-- **A separator opens a place**, and the first one opens two. -/
theorem separate (h : FillsPlaces build separates xs is) {x : α} (hx : separates x = true) :
    FillsPlaces build separates (xs ++ [x]) (Items.separate is) := by
  refine .inr ⟨by simp, ?_⟩
  rw [List.splitOnP_append_cons xs [] hx, List.splitOnP_nil]
  rcases h with ⟨rfl, rfl⟩ | ⟨-, hfills⟩
  · exact .cons fills_gap (.cons fills_gap .nil)
  · have hseparate : Items.separate is = is ++ [none] := by
      cases is with
      | nil => exact absurd (List.forall₂_nil_right_iff.1 hfills) (List.splitOnP_ne_nil _ _)
      | cons i is => rfl
    rw [hseparate]
    exact List.rel_append hfills (.cons fills_gap .nil)

/-- **An item fills the last place**, and opens one if there is none. -/
theorem place (h : FillsPlaces build separates xs is) {x : α} (hx : separates x = false)
    {e : Expr} (he : (build x).result = .ok e) :
    FillsPlaces build separates (xs ++ [x]) (Items.place e is) := by
  refine .inr ⟨by simp, ?_⟩
  rcases h with ⟨rfl, rfl⟩ | ⟨-, hfills⟩
  · have hsingle : ([] ++ [x]).splitOnP separates = [] ++ [[] ++ [x]] :=
      splitOnP_concat hx List.splitOnP_nil
    rw [hsingle]
    exact .cons (fills_item he []) .nil
  · obtain ⟨init, last, hxs⟩ : ∃ init last, xs.splitOnP separates = init ++ [last] :=
      ⟨_, _, (List.dropLast_append_getLast (List.splitOnP_ne_nil separates xs)).symm⟩
    rw [hxs] at hfills
    obtain ⟨is, i, rfl, hinit, -⟩ := exists_concat_of_forall₂ hfills
    have hplace : Items.place e (is ++ [i]) = is ++ [some e] := by
      cases is with
      | nil => rfl
      | cons j is =>
        have hdrop : ((j :: is) ++ [i]).dropLast = j :: is := List.dropLast_concat
        exact congrArg (· ++ [some e]) hdrop
    rw [splitOnP_concat hx hxs, hplace]
    exact List.rel_append hinit (.cons (fills_item he last) .nil)

theorem unique (h : FillsPlaces build separates xs is) (h' : FillsPlaces build separates xs is') :
    is = is' := by
  rcases h with ⟨rfl, rfl⟩ | ⟨hxs, hfills⟩
  · rcases h' with ⟨-, rfl⟩ | ⟨hne, -⟩
    · rfl
    · exact absurd rfl hne
  · rcases h' with ⟨rfl, -⟩ | ⟨-, hfills'⟩
    · exact absurd rfl hxs
    · exact Fills.unique.forall₂ hfills hfills'

end FillsPlaces

end Places

/-! ## Reading a sequence -/

namespace Cst

/-- The tree is a bracket around a sequence. -/
def isBracket (c : Cst) : Bool :=
  bracketTokens.any fun name => c.kind == .token name

/-- The tree separates the items of a sequence. -/
def isComma (c : Cst) : Bool :=
  c.kind == .token ","

/-- The children that fill or separate places: all but extras and
brackets. -/
def sequenced (c : Cst) : List Cst :=
  c.kept.filter (!·.isBracket)

end Cst

variable {file : String} {build : Part → Traced Expr} {is is' : List (Option Expr)}

theorem isComma_part (d : Cst) : (d.part file).isToken "," = d.isComma := by
  rw [Part.isToken, Cst.kind_part, Cst.isComma]

theorem isBracket_part (d : Cst) : (d.part file).isTokenOf bracketTokens = d.isBracket := by
  unfold Part.isTokenOf Part.isToken Cst.isBracket
  rw [Cst.kind_part]

variable {d : Cst} {ps : List Part}

theorem buildItems_bracket (h : d.isBracket = true) :
    buildItems build is (d.part file :: ps) = buildItems build is ps := by
  rw [buildItems, isBracket_part, if_pos h]

theorem buildItems_comma (h : d.isBracket = false) (hcomma : d.isComma = true) :
    buildItems build is (d.part file :: ps) = buildItems build (Items.separate is) ps := by
  rw [buildItems, isBracket_part, h, if_neg Bool.false_ne_true, isComma_part, if_pos hcomma]

theorem buildItems_item (h : d.isBracket = false) (hcomma : d.isComma = false) :
    buildItems build is (d.part file :: ps) = (do
      let e ← build (d.part file)
      buildItems build (Items.place e is) ps) := by
  rw [buildItems, isBracket_part, h, if_neg Bool.false_ne_true, isComma_part, hcomma,
    if_neg Bool.false_ne_true]

/-- **Reading on**: if the places so far are filled from the children read so
far, then those in the end are filled from all of them. -/
theorem fillsPlaces_buildItems {read cs : List Cst}
    (h : FillsPlaces (fun d => build (d.part file)) Cst.isComma read is)
    (hbuild : (buildItems build is (cs.map (Cst.part file))).result = .ok is') :
    FillsPlaces (fun d => build (d.part file)) Cst.isComma
      (read ++ cs.filter (!·.isBracket)) is' := by
  induction cs generalizing read is with
  | nil =>
    obtain rfl := Traced.pure_eq_ok.1 hbuild
    simpa using h
  | cons d cs ih =>
    rw [List.map_cons] at hbuild
    cases hbracket : d.isBracket with
    | true =>
      rw [buildItems_bracket hbracket] at hbuild
      rw [List.filter_cons_of_neg (by simp [hbracket])]
      exact ih h hbuild
    | false =>
      rw [List.filter_cons_of_pos (by simp [hbracket]), List.append_cons]
      cases hcomma : d.isComma with
      | true =>
        rw [buildItems_comma hbracket hcomma] at hbuild
        exact ih (h.separate hcomma) hbuild
      | false =>
        rw [buildItems_item hbracket hcomma] at hbuild
        obtain ⟨e, he, hrest⟩ := Traced.bind_eq_ok.1 hbuild
        exact ih (h.place hcomma he) hrest

/-- **A sequence is built** if and only if all its items are. -/
theorem exists_buildItems_iff {cs : List Cst} :
    (∃ is', (buildItems build is (cs.map (Cst.part file))).result = .ok is') ↔
      ∀ d ∈ cs.filter (!·.isBracket), d.isComma = false →
        ∃ e, (build (d.part file)).result = .ok e := by
  induction cs generalizing is with
  | nil => exact ⟨fun _ => nofun, fun _ => ⟨is, rfl⟩⟩
  | cons d cs ih =>
    rw [List.map_cons]
    cases hbracket : d.isBracket with
    | true =>
      rw [buildItems_bracket hbracket, List.filter_cons_of_neg (by simp [hbracket])]
      exact ih
    | false =>
      rw [List.filter_cons_of_pos (by simp [hbracket]), List.forall_mem_cons]
      cases hcomma : d.isComma with
      | true =>
        simp only [buildItems_comma hbracket hcomma, ih, reduceCtorEq, false_implies, true_and]
      | false =>
        simp only [buildItems_item hbracket hcomma, Traced.bind_eq_ok, true_implies]
        constructor
        · rintro ⟨is', e, he, hrest⟩
          exact ⟨⟨e, he⟩, ih.1 ⟨is', hrest⟩⟩
        · rintro ⟨⟨e, he⟩, hrest⟩
          obtain ⟨is', his⟩ := ih.2 hrest
          exact ⟨is', e, he, his⟩

/-- **Items keep their places.** A node builds the items of a sequence if and
only if every child that is no separator builds one; and then there is one
place for each segment of its children, extras and brackets left out, between
commas, which holds what the last child of the segment builds and is a gap
exactly if the segment is empty. Without any such child there is no place. -/
theorem items_fill_places (file : String) (c : Cst) (ctx : Context)
    (build : Part → Context → Traced Expr) (is : List (Option Expr)) :
    ((c.branch file).items ctx build).result = .ok is ↔
      (∀ d ∈ c.sequenced, d.isComma = false →
        ∃ e, (build (d.part file) (ctx.within c.kind)).result = .ok e) ∧
      FillsPlaces (fun d => build (d.part file) (ctx.within c.kind)) Cst.isComma
        c.sequenced is := by
  have hfills : ∀ is', ((c.branch file).items ctx build).result = .ok is' →
      FillsPlaces (fun d => build (d.part file) (ctx.within c.kind)) Cst.isComma c.sequenced is' :=
    fun is' h => fillsPlaces_buildItems (.inl ⟨rfl, rfl⟩) h
  have hbuilds : (∃ is', ((c.branch file).items ctx build).result = .ok is') ↔
      ∀ d ∈ c.sequenced, d.isComma = false →
        ∃ e, (build (d.part file) (ctx.within c.kind)).result = .ok e :=
    exists_buildItems_iff
  constructor
  · intro h
    exact ⟨hbuilds.1 ⟨is, h⟩, hfills is h⟩
  · rintro ⟨hall, h⟩
    obtain ⟨is', his⟩ := hbuilds.2 hall
    rwa [h.unique (hfills is' his)]

/-- The tree of `[, a, , b, ]`, a comment behind the first name. -/
def gappedList : Cst :=
  .tree .list [.leaf (.token "[") "[" none, .leaf (.token ",") "," none,
    .leaf .identifier "a" none, .leaf .comment "# first" none, .leaf (.token ",") "," none,
    .leaf (.token ",") "," none, .leaf .identifier "b" none, .leaf (.token ",") "," none,
    .leaf (.token "]") "]" none] none

example : ((gappedList.branch "m").items .root Part.element).result =
    .ok [none, some (.reference "a" none none), none, some (.reference "b" none none), none] :=
  rfl

end Scribe
