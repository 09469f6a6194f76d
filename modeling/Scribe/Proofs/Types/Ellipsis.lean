import Scribe.Proofs.Types.Gaps

/-!
# Where ellipses leave gaps

An ellipsis denotes the empty text. A tuple drops it, and `Optional` looks
at its first argument only; everywhere else it leaves a gap.

`OpenType.fullness` says of every open type how full its written form is,
by recursion on the grammar alone. It describes what the type denotes
(`OpenType.describes`), and that is what is read, so `gapless_iff_full`
decides from the grammar whether the written form has a gap.
-/

namespace Scribe

open Scribe.Text Scribe.TypeName

/-! ## How full a type is -/

mutual

/-- **How full the written form of a type is.** -/
def OpenType.fullness : OpenType → Fullness
  | .name _ => .full
  | .generic n args => .applied n.last.text args.fullness args.keptFullness
  | .union left _ _ right =>
    if left.fullness = .full ∧ right.fullness = .full then .full else .gapped

/-- An ellipsis is written as nothing. -/
def OpenArg.fullness : OpenArg → Fullness
  | .dots => .blank
  | .type t => t.fullness

/-- The same of every argument. -/
def OpenArgs.fullness : OpenArgs → List Fullness
  | .last _ arg _ => [arg.fullness]
  | .cons _ arg _ rest => arg.fullness :: rest.fullness

/-- The same of an argument, unless it is an ellipsis. -/
def OpenArg.keptFullness : OpenArg → List Fullness
  | .dots => []
  | .type t => [t.fullness]

/-- The same of every argument that is no ellipsis. -/
def OpenArgs.keptFullness : OpenArgs → List Fullness
  | .last _ arg _ => arg.keptFullness
  | .cons _ arg _ rest => arg.keptFullness ++ rest.keptFullness

end

mutual

/-- Every ellipsis of the type is an argument of a tuple. -/
def OpenType.isTupled : OpenType → Bool
  | .name _ => true
  | .generic n args => args.isTupled (n.last.text == "tuple" || n.last.text == "Tuple")
  | .union left _ _ right => left.isTupled && right.isTupled

/-- The same of an argument of a tuple, or of another name. -/
def OpenArg.isTupled (inTuple : Bool) : OpenArg → Bool
  | .dots => inTuple
  | .type t => t.isTupled

/-- The same of every argument. -/
def OpenArgs.isTupled (inTuple : Bool) : OpenArgs → Bool
  | .last _ arg _ => arg.isTupled inTuple
  | .cons _ arg _ rest => arg.isTupled inTuple && rest.isTupled inTuple

end

/-! ## What fullness describes -/

/-- How full a type is follows from its members. -/
theorem OpenType.joined_terms (t : OpenType) :
    Fullness.joined (t.terms.map fullness) = t.fullness := by
  induction t using OpenType.terms.induct with
  | case1 left after before right hleft hright =>
    rw [terms, List.map_append, Fullness.joined_append (by simp [left.terms_ne_nil])
      (by simp [right.terms_ne_nil]), hleft, hright, fullness]
  | case2 t hsingle =>
    cases t with
    | name n => rfl
    | generic n args => rfl
    | union left after before right => exact absurd rfl (hsingle left after before right)

/-- A member of a union is as full as the type; the null value is. -/
theorem Fullness.describes_member {f : Fullness} {isNone : Bool} {t : String} (h : f.Describes t)
    (hnone : isNone = true → f = .full) : f.Describes (memberType isNone t) := by
  cases isNone with
  | false => exact h
  | true =>
    have hnull : full.Describes "null" := forall_place_iff.2 (by decide)
    rwa [hnone rfl, memberType, if_pos rfl]

/-- The null value is full. -/
theorem OpenType.full_of_isNone {t : OpenType} (h : t.isNone = true) : t.fullness = .full := by
  cases t with
  | name n => rfl
  | generic n args => cases h
  | union left after before right => cases h

theorem OpenArg.full_of_isNone {arg : OpenArg} (h : arg.isNone = true) : arg.fullness = .full := by
  cases arg with
  | dots => cases h
  | type t => exact OpenType.full_of_isNone h

mutual

/-- **Fullness describes what a type denotes.** -/
theorem OpenType.describes : ∀ t : OpenType, t.fullness.Describes t.type
  | .name n => Fullness.describes_name n
  | .generic n args =>
    Fullness.describes_filled n.last args.describes args.describes_kept args.describes_members
  | .union left after before right => by
    rw [← OpenType.joined_terms, OpenType.terms, List.map_append]
    exact Fullness.describes_intercalate Fullness.separates_bar
      (List.rel_append left.describes_members right.describes_members)

theorem OpenType.describes_members : ∀ t : OpenType,
    List.Forall₂ Fullness.Describes (t.terms.map OpenType.fullness) t.memberTypes
  | .name n => .cons (Fullness.describes_member (Fullness.describes_name n) fun _ => rfl) .nil
  | .generic n args => .cons
    (Fullness.describes_filled n.last args.describes args.describes_kept args.describes_members)
    .nil
  | .union left _ _ right => by
    rw [OpenType.terms, List.map_append]
    exact List.rel_append left.describes_members right.describes_members

/-- An ellipsis denotes the empty text. -/
theorem OpenArg.describes : ∀ arg : OpenArg, arg.fullness.Describes arg.denoted
  | .dots => rfl
  | .type t => t.describes

theorem OpenArg.describes_kept : ∀ arg : OpenArg,
    List.Forall₂ Fullness.Describes arg.keptFullness arg.keptTypes
  | .dots => .nil
  | .type t => .cons t.describes .nil

theorem OpenArgs.describes : ∀ args : OpenArgs,
    List.Forall₂ Fullness.Describes args.fullness args.types
  | .last _ arg _ => .cons arg.describes .nil
  | .cons _ arg _ rest => .cons arg.describes rest.describes

theorem OpenArgs.describes_kept : ∀ args : OpenArgs,
    List.Forall₂ Fullness.Describes args.keptFullness args.keptTypes
  | .last _ arg _ => arg.describes_kept
  | .cons _ arg _ rest => List.rel_append arg.describes_kept rest.describes_kept

/-- As members of a union, arguments are as full as they are apart. -/
theorem OpenArgs.describes_members : ∀ args : OpenArgs,
    List.Forall₂ Fullness.Describes args.fullness args.memberTypes
  | .last _ arg _ => .cons (Fullness.describes_member arg.describes OpenArg.full_of_isNone) .nil
  | .cons _ arg _ rest =>
    .cons (Fullness.describes_member arg.describes OpenArg.full_of_isNone) rest.describes_members

end

/-! ## Tuples -/

theorem Fullness.joined_ne_gapped {fs : List Fullness} (h : ∀ f ∈ fs, f = .full) :
    joined fs ≠ .gapped := by
  by_cases hfs : fs = []
  · subst hfs
    decide
  · rw [joined_eq_full_iff.2 ⟨hfs, h⟩]
    decide

/-- A name is full with arguments that are, but a tuple may have ellipses
besides. -/
theorem Fullness.applied_eq_full {outer : String} {all kept : List Fullness} (hne : all ≠ [])
    (hkept : ∀ f ∈ kept, f = .full)
    (hall : (outer == "tuple" || outer == "Tuple") = false → ∀ f ∈ all, f = .full) :
    applied outer all kept = .full := by
  by_cases htuple : outer = "tuple" ∨ outer = "Tuple"
  · rw [applied, if_pos htuple, if_neg (joined_ne_gapped hkept)]
    rcases htuple with rfl | rfl <;> simp
  · have hfull := hall (by simpa using htuple)
    have hhead : all.head? = some .full := by
      rw [List.head?_eq_some_head hne, hfull _ (List.head_mem hne)]
    rw [applied, if_neg htuple, hhead, joined_eq_full_iff.2 ⟨hne, hfull⟩]
    simp

mutual

/-- **A type is full if only its tuples have ellipses.** -/
theorem OpenType.full_of_isTupled : ∀ t : OpenType, t.isTupled = true → t.fullness = .full
  | .name _, _ => rfl
  | .generic n args, h => by
    rw [OpenType.isTupled] at h
    obtain ⟨hkept, hall⟩ := args.full_of_isTupled h
    have hne : args.fullness ≠ [] := by cases args <;> simp [OpenArgs.fullness]
    rw [OpenType.fullness, Fullness.applied_eq_full hne hkept hall]
  | .union left _ _ right, h => by
    rw [OpenType.isTupled, Bool.and_eq_true] at h
    rw [OpenType.fullness, if_pos ⟨left.full_of_isTupled h.1, right.full_of_isTupled h.2⟩]

theorem OpenArg.full_of_isTupled {inTuple : Bool} : ∀ arg : OpenArg,
    arg.isTupled inTuple = true →
    (∀ f ∈ arg.keptFullness, f = .full) ∧ (inTuple = false → arg.fullness = .full)
  | .dots, h => ⟨nofun, fun hout => nomatch hout.symm.trans h⟩
  | .type t, h => by
    have hfull := t.full_of_isTupled h
    exact ⟨List.forall_mem_singleton.2 hfull, fun _ => hfull⟩

theorem OpenArgs.full_of_isTupled {inTuple : Bool} : ∀ args : OpenArgs,
    args.isTupled inTuple = true →
    (∀ f ∈ args.keptFullness, f = .full) ∧ (inTuple = false → ∀ f ∈ args.fullness, f = .full)
  | .last _ arg _, h => by
    obtain ⟨hkept, hall⟩ := arg.full_of_isTupled h
    exact ⟨hkept, fun hout => List.forall_mem_singleton.2 (hall hout)⟩
  | .cons _ arg _ rest, h => by
    rw [OpenArgs.isTupled, Bool.and_eq_true] at h
    obtain ⟨hkept, hall⟩ := arg.full_of_isTupled h.1
    obtain ⟨hkept', hall'⟩ := rest.full_of_isTupled h.2
    exact ⟨List.forall_mem_append.2 ⟨hkept, hkept'⟩,
      fun hout => List.forall_mem_cons.2 ⟨hall hout, hall' hout⟩⟩

end

/-- **Where ellipses leave gaps.** Every type with ellipses is read. Its
written form has no empty type argument, tuple element or union member
exactly if it is full, as it is if every ellipsis stands in a tuple. -/
theorem gapless_iff_full (t : OpenType) (before after : Blanks) :
    ∃ text, typeName (t.text before after) = .ok text ∧ (Gapless text ↔ t.fullness = .full) ∧
      (t.isTupled = true → Gapless text) := by
  have hiff := Fullness.gapless_iff t.describes
  exact ⟨t.type, t.typeName_text before after, hiff, fun h => hiff.2 (t.full_of_isTupled h)⟩

/-- A word alone, if its characters are those of one. -/
def DottedName.word (text : String) (hne : text.toList ≠ [])
    (h : text.toList.all isWord = true) : DottedName :=
  ⟨[], ⟨text.toList, hne, List.all_eq_true.1 h⟩⟩

/-- **An ellipsis leaves a gap** in `Callable[...,int]` and none in
`tuple[int,...]`. -/
theorem ellipsis_leaves_gap :
    ((∃ t : OpenType, t.text .none .none = "Callable[...,int]") ∧
      typeName "Callable[...,int]" = .ok "Callable<, number>" ∧
      ¬ Gapless "Callable<, number>") ∧
    (∃ t : OpenType, t.text .none .none = "tuple[int,...]") ∧
      typeName "tuple[int,...]" = .ok "[number]" ∧ Gapless "[number]" := by
  have hint : "int".toList.all isWord = true := by decide +kernel
  let int : OpenArg := .type (.name (.word "int" (by decide) hint))
  refine ⟨⟨⟨.generic (.word "Callable" (by decide) (by decide +kernel))
      (.cons .none .dots .none (.last .none int .none)), rfl⟩, by decide +kernel, by decide⟩,
    ⟨.generic (.word "tuple" (by decide) (by decide +kernel))
      (.cons .none int .none (.last .none .dots .none)), rfl⟩, by decide +kernel, by decide⟩

end Scribe
