import Scribe.Proofs.Naming.Words
import Scribe.Proofs.Types.Reading

/-!
# Gaps in written types

The written form of a type has parts: the arguments between angle brackets,
the elements of a tuple and the members of a union. A part that is empty is
a gap, and a type with a gap is none of the output language. `Gapless` finds
gaps by a scan of the text alone.

A text is put together from others, so the scan is followed through names,
rows of texts with commas or bars between them, and brackets. `Fullness` says
of a text what this takes: it is empty itself, it has a gap, or it has none.
-/

namespace Scribe

open Scribe.Text Scribe.TypeName

/-! ## The scan -/

/-- Where a scan of a written type stands. -/
inductive Place where
  /-- A part has to start. -/
  | due
  /-- A tuple has been opened: it ends, or a part starts. -/
  | opened
  /-- A part stands in front. -/
  | filled
  deriving DecidableEq

/-- **One character of a written type**; none if it ends a part that is
empty. -/
def placeStep (p : Place) (c : Char) : Option Place :=
  if c = ' ' then some p
  else if c = '[' then some .opened
  else if c = ',' ∨ c = '|' ∨ c = '<' then if p = .filled then some .due else none
  else if c = '>' then if p = .filled then some .filled else none
  else if c = ']' then if p = .due then none else some .filled
  else some .filled

/-- Where a scan stands behind a text. -/
def scanParts (p : Place) (t : String) : Option Place :=
  t.toList.foldlM placeStep p

/-- **The text is a written type without gaps**: none of its type
arguments, tuple elements and union members is empty. -/
def Gapless (t : String) : Prop :=
  scanParts .due t = some .filled

instance (t : String) : Decidable (Gapless t) :=
  inferInstanceAs (Decidable (_ = _))

variable {p : Place} {t u sep : String} {ts : List String}

/-- A part may start at two places. -/
theorem forall_place_iff {P : Place → Prop} :
    (∀ p, p ≠ .filled → P p) ↔ P .due ∧ P .opened := by
  constructor
  · exact fun h => ⟨h .due (by decide), h .opened (by decide)⟩
  · rintro ⟨hdue, hopened⟩ p hp
    cases p with
    | due => exact hdue
    | opened => exact hopened
    | filled => exact absurd rfl hp

theorem scanParts_append (p : Place) (t u : String) :
    scanParts p (t ++ u) = (scanParts p t).bind fun q => scanParts q u := by
  rw [scanParts, String.toList_append, List.foldlM_append]
  rfl

/-- The characters between parts. -/
def partMarks : List Char :=
  [' ', '[', ',', '|', '<', '>', ']']

theorem placeStep_of_not_mem {c : Char} (h : c ∉ partMarks) : placeStep p c = some .filled := by
  simp only [partMarks, List.mem_cons, List.not_mem_nil, or_false, not_or] at h
  simp [placeStep, h]

/-! ## How full a text is -/

/-- What the parts of a text are like. -/
inductive Fullness where
  /-- The text is empty. -/
  | blank
  /-- A part of the text is empty. -/
  | gapped
  /-- Neither the text nor a part of it is empty. -/
  | full
  deriving DecidableEq

/-- **The text is of this kind**, wherever a part may start. -/
def Fullness.Describes : Fullness → String → Prop
  | .blank, t => t = ""
  | .gapped, t => ∀ p, p ≠ .filled → scanParts p t = none ∨ scanParts p t = some .due
  | .full, t => ∀ p, p ≠ .filled → scanParts p t = some .filled

/-- The text ends a part: it cannot follow an empty one. -/
def EndsPart (t : String) : Prop :=
  ∀ p, p ≠ .filled → scanParts p t = none

theorem EndsPart.append (ht : EndsPart t) (u : String) : EndsPart (t ++ u) := by
  intro p hp
  rw [scanParts_append, ht p hp, Option.bind_none]

namespace Fullness

variable {f : Fullness} {fs : List Fullness}

theorem gapless_iff (h : f.Describes t) : Gapless t ↔ f = .full := by
  cases f with
  | blank =>
    obtain rfl : t = "" := h
    decide
  | gapped =>
    refine iff_of_false (fun hfull => ?_) (by decide)
    have hgap := h .due (by decide)
    rw [Gapless] at hfull
    simp [hfull] at hgap
  | full => exact iff_of_true (h .due (by decide)) rfl

/-- A gap stays: what ends a part cannot follow a text that is empty or has
a gap. -/
theorem gap_append (h : f.Describes t) (hf : f ≠ .full) (hu : EndsPart u) : EndsPart (t ++ u) := by
  intro p hp
  cases f with
  | full => exact absurd rfl hf
  | blank =>
    obtain rfl : t = "" := h
    rw [String.empty_append, hu p hp]
  | gapped =>
    rw [scanParts_append]
    rcases h p hp with hnone | hdue
    · rw [hnone, Option.bind_none]
    · rw [hdue, Option.bind_some, hu .due (by decide)]

theorem describes_gapped (h : EndsPart t) : gapped.Describes t :=
  fun p hp => .inl (h p hp)

/-- What follows a full text goes on behind a part. -/
theorem scanParts_append_of_full (h : full.Describes t) (hp : p ≠ .filled) (u : String) :
    scanParts p (t ++ u) = scanParts .filled u := by
  rw [scanParts_append, h p hp, Option.bind_some]

/-! ## Texts in a row -/

/-- How full texts with separators between them are. -/
def joined : List Fullness → Fullness
  | [] => .blank
  | [f] => f
  | f :: g :: fs => if f = .full ∧ joined (g :: fs) = .full then .full else .gapped

/-- A separator ends a part, and another one is due behind it. -/
structure Separates (sep : String) : Prop where
  ends : EndsPart sep
  due : scanParts .filled sep = some .due

theorem separates_comma : Separates ", " :=
  ⟨forall_place_iff.2 (by decide), by decide⟩

theorem separates_bar : Separates " | " :=
  ⟨forall_place_iff.2 (by decide), by decide⟩

/-- **A row of texts** is filled as its texts are. -/
theorem describes_intercalate (hsep : Separates sep) (h : List.Forall₂ Describes fs ts) :
    (joined fs).Describes (sep.intercalate ts) := by
  induction h with
  | nil => rfl
  | @cons f t fs ts hf hfs ih =>
    cases hfs with
    | nil => rwa [joined, String.intercalate_singleton]
    | @cons g u fs ts hg hfs =>
      rw [joined, String.intercalate_cons_cons, String.append_assoc]
      by_cases hfull : f = .full
      · -- the rest of the row starts where a part is due
        subst hfull
        have hrest : ∀ p, p ≠ .filled → scanParts p (t ++ (sep ++ sep.intercalate (u :: ts))) =
            scanParts .due (sep.intercalate (u :: ts)) := by
          intro p hp
          rw [scanParts_append_of_full hf hp, scanParts_append, hsep.due, Option.bind_some]
        cases hjoined : joined (g :: fs) with
        | full =>
          rw [hjoined] at ih
          rw [if_pos ⟨rfl, rfl⟩]
          exact fun p hp => (hrest p hp).trans (ih .due (by decide))
        | gapped =>
          rw [hjoined] at ih
          rw [if_neg (by decide)]
          exact fun p hp => hrest p hp ▸ ih .due (by decide)
        | blank =>
          rw [hjoined] at ih
          have hempty : sep.intercalate (u :: ts) = "" := ih
          rw [if_neg (by decide)]
          exact fun p hp => .inr (by rw [hrest p hp, hempty]; rfl)
      · rw [if_neg fun h => hfull h.1]
        exact describes_gapped (gap_append hf hfull (hsep.ends.append _))

theorem joined_eq_full_iff : joined fs = .full ↔ fs ≠ [] ∧ ∀ f ∈ fs, f = .full := by
  induction fs with
  | nil => decide
  | cons f fs ih =>
    cases fs with
    | nil => simp [joined]
    | cons g fs => simp [joined, ih]

/-- Two rows, one behind the other. -/
theorem joined_append {gs : List Fullness} (hfs : fs ≠ []) (hgs : gs ≠ []) :
    joined (fs ++ gs) = if joined fs = .full ∧ joined gs = .full then .full else .gapped := by
  have hfull : joined (fs ++ gs) = .full ↔ joined fs = .full ∧ joined gs = .full := by
    simp only [joined_eq_full_iff, List.forall_mem_append, ne_eq, List.append_eq_nil_iff, hfs, hgs]
    tauto
  split
  · rename_i hboth
    exact hfull.2 hboth
  · -- with two texts at least the row is not empty
    rename_i hboth
    have hne := mt hfull.1 hboth
    obtain ⟨f, fs, rfl⟩ := List.exists_cons_of_ne_nil hfs
    obtain ⟨g, gs', hrest⟩ := List.exists_cons_of_ne_nil
      (List.append_ne_nil_of_right_ne_nil fs hgs)
    rw [List.cons_append, hrest, joined] at hne ⊢
    exact if_neg fun h => hne (if_pos h)

/-! ## Names and brackets -/

/-- A name is full. -/
theorem describes_full_of_not_mem (hne : t ≠ "") (h : ∀ c ∈ t.toList, c ∉ partMarks) :
    full.Describes t := by
  have hrest : ∀ cs : List Char, (∀ c ∈ cs, c ∉ partMarks) →
      cs.foldlM placeStep .filled = some .filled := by
    intro cs hcs
    induction cs with
    | nil => rfl
    | cons c cs ih =>
      rw [List.forall_mem_cons] at hcs
      rw [List.foldlM_cons, placeStep_of_not_mem hcs.1]
      exact ih hcs.2
  intro p _
  obtain ⟨c, cs, ht⟩ := List.exists_cons_of_ne_nil (mt String.toList_eq_nil_iff.1 hne)
  rw [ht, List.forall_mem_cons] at h
  rw [scanParts, ht, List.foldlM_cons, placeStep_of_not_mem h.1]
  exact hrest cs h.2

/-- The Pascal case of a word is full. -/
theorem describes_pascal (w : Word) : full.Describes (Identifier.pascal w.text) := by
  have hmarks : partMarks.all (fun c => !isWord c && decide (IsForeign c)) = true := by
    decide +kernel
  refine describes_full_of_not_mem (fun hempty => ?_) fun c hc hmark => ?_
  · have hword := Identifier.eq_empty_of_pascal_eq hempty
    exact w.ne_nil (String.ofList_eq_empty_iff.1 hword)
  · have hc' := List.all_eq_true.1 hmarks c hmark
    simp only [Bool.and_eq_true, Bool.not_eq_true', decide_eq_true_eq] at hc'
    have hmem := Identifier.mem_of_mem_pascal hc'.2 hc
    rw [Word.text, String.toList_ofList] at hmem
    have hword := w.isWord c hmem
    rw [hc'.1] at hword
    cases hword

/-- **What a name alone denotes** is full. -/
theorem describes_name (n : DottedName) : full.Describes n.type := by
  have htable : ∀ e ∈ table, scanParts .due e.2 = some .filled ∧
      scanParts .opened e.2 = some .filled := by
    decide +kernel
  have hgenerics : ∀ e ∈ generics,
      scanParts .due (if e.2 = "Record" then "Record<string, any>" else e.2 ++ "<any>")
        = some .filled ∧
      scanParts .opened (if e.2 = "Record" then "Record<string, any>" else e.2 ++ "<any>")
        = some .filled := by
    decide +kernel
  rw [DottedName.type]
  split
  · rename_i hlook
    have hfull := htable _ (mem_of_lookup hlook)
    exact forall_place_iff.2 hfull
  · rename_i hlook
    have hfull := hgenerics _ (mem_of_lookup hlook)
    exact forall_place_iff.2 hfull
  · exact describes_pascal n.last

/-- How full a name with arguments is that are as full as `all` says; `kept`
is said of those that are no ellipses. -/
def applied (outer : String) (all kept : List Fullness) : Fullness :=
  if outer = "Optional" then if all.head? = some .full then .full else .gapped
  else if outer = "Union" then joined all
  else if outer = "tuple" ∨ outer = "Tuple" then
    if joined kept = .gapped then .gapped else .full
  else if joined all = .full then .full else .gapped

theorem describes_optional (h : f.Describes t) :
    (if f = .full then full else gapped).Describes (t ++ " | null") := by
  split
  · rename_i hfull
    subst hfull
    exact fun p hp => scanParts_append_of_full h hp _
  · rename_i hfull
    exact describes_gapped (gap_append h hfull (separates_bar.ends.append "null"))

/-- Angle brackets want a part between them. -/
theorem describes_angled {name : String} (hname : full.Describes name) (h : f.Describes t) :
    (if f = .full then full else gapped).Describes (name ++ "<" ++ t ++ ">") := by
  have hends : EndsPart ">" := forall_place_iff.2 (by decide)
  have hinside : ∀ p, p ≠ .filled →
      scanParts p (name ++ "<" ++ t ++ ">") = scanParts .due (t ++ ">") := by
    intro p hp
    rw [String.append_assoc, String.append_assoc, scanParts_append_of_full hname hp]
    exact scanParts_append .filled "<" _
  split
  · rename_i hfull
    subst hfull
    exact fun p hp => (hinside p hp).trans (scanParts_append_of_full h (by decide) _)
  · rename_i hfull
    exact fun p hp => .inl ((hinside p hp).trans (gap_append h hfull hends .due (by decide)))

/-- The brackets of a tuple may stand around nothing. -/
theorem describes_tuple (h : f.Describes t) :
    (if f = .gapped then gapped else full).Describes ("[" ++ t ++ "]") := by
  have hinside : ∀ p, scanParts p ("[" ++ t ++ "]") = scanParts .opened (t ++ "]") := by
    intro p
    rw [String.append_assoc]
    exact scanParts_append p "[" _
  cases f with
  | blank =>
    obtain rfl : t = "" := h
    exact fun p _ => hinside p
  | full => exact fun p _ => (hinside p).trans (scanParts_append_of_full h (by decide) _)
  | gapped =>
    intro p _
    rw [hinside, scanParts_append]
    rcases h .opened (by decide) with hnone | hdue
    · exact .inl (by rw [hnone, Option.bind_none])
    · exact .inl (by rw [hdue]; rfl)

/-- **A name with arguments** is filled as the arguments are. -/
theorem describes_filled (w : Word) {types kept members : List String} {all left : List Fullness}
    (htypes : List.Forall₂ Describes all types) (hkept : List.Forall₂ Describes left kept)
    (hmembers : List.Forall₂ Describes all members) :
    (applied w.text all left).Describes (filledType w.text types kept members) := by
  have hname : full.Describes ((generics.lookup w.text).getD (Identifier.pascal w.text)) := by
    have hgenerics : ∀ e ∈ generics, scanParts .due e.2 = some .filled ∧
        scanParts .opened e.2 = some .filled := by
      decide +kernel
    cases hlook : generics.lookup w.text with
    | none => exact describes_pascal w
    | some generic => exact forall_place_iff.2 (hgenerics _ (mem_of_lookup hlook))
  have hfirst : (if all.head? = some .full then full else gapped).Describes
      (types.headD "" ++ " | null") := by
    cases htypes with
    | nil => exact describes_optional (f := .blank) rfl
    | cons hf _ => simpa using describes_optional hf
  rw [applied, filledType, appliedType]
  split
  · exact hfirst
  · split
    · exact describes_intercalate separates_bar hmembers
    · split
      · exact describes_tuple (describes_intercalate separates_comma hkept)
      · exact describes_angled hname (describes_intercalate separates_comma htypes)

end Fullness

end Scribe
