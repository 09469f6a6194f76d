import Scribe.Proofs.Types.Reading

/-!
# Types of other modules

A type may be written with the module it comes from in front. In front of
brackets the path makes no difference, since only the last word of the name
is looked up. A name alone is looked up with its path, which no table has:
`typing.Any` and `typing.List` are taken for types of the program, while
`Any` and `List` are known. `qualified_alike_iff` says that this is the only
case in which the path decides.
-/

namespace Scribe

open Scribe.Text Scribe.TypeName

/-! ## Names in tables -/

/-- A name that one of the tables knows. -/
def DottedName.isTabled (n : DottedName) : Bool :=
  (table.lookup n.text).isSome || (generics.lookup n.text).isSome

/-- A name alone that one of the tables knows. -/
def TypeTerm.isTabled : TypeTerm → Bool
  | .name n => n.isTabled
  | .generic .. => false

/-- The term inside a module. -/
def TypeTerm.under (p : DottedName) : TypeTerm → TypeTerm
  | .name n => .name (n.under p)
  | .generic n args => .generic (n.under p) args

theorem TypeTerm.chars_under (p : DottedName) (t : TypeTerm) :
    (t.under p).chars = p.chars ++ '.' :: t.chars := by
  cases t with
  | name n => exact n.chars_under p
  | generic n args => simp [under, chars, n.chars_under p]

theorem isWord_generics : ∀ e ∈ generics, ∀ c ∈ e.1.toList, isWord c = true :=
  isWord_of_all (by decide +kernel)

namespace DottedName

variable {n : DottedName}

/-- **No table knows a dotted name.** -/
theorem isTabled_of_path (h : n.path ≠ []) : n.isTabled = false := by
  obtain ⟨_ | ⟨w, path⟩, last⟩ := n
  · exact absurd rfl h
  have hdot : '.' ∈ chars ⟨w :: path, last⟩ := by simp [chars_cons]
  have hword : isWord '.' = false := by decide +kernel
  rw [isTabled, text, lookup_eq_none_of_not_isWord isWord_table hdot hword,
    lookup_eq_none_of_not_isWord isWord_generics hdot hword]
  rfl

theorem isTabled_under (n p : DottedName) : (n.under p).isTabled = false :=
  isTabled_of_path (by simp [under])

/-- A name that no table knows is a type of the program, named by its last
word. -/
theorem type_of_not_isTabled (h : n.isTabled = false) : n.type = Identifier.pascal n.last.text := by
  simp only [isTabled, Bool.or_eq_false_iff, Option.isSome_eq_false_iff, Option.isNone_iff_eq_none]
    at h
  rw [type, h.1, h.2]

theorem table_ne_pascal : ∀ e ∈ table, e.2 ≠ Identifier.pascal e.1 := by
  decide +kernel

theorem generics_ne_pascal : ∀ e ∈ generics,
    (if e.2 = "Record" then "Record<string, any>" else e.2 ++ "<any>") ≠ Identifier.pascal e.1 := by
  decide +kernel

/-- A name that a table knows is one word. -/
theorem text_last (h : n.isTabled = true) : n.last.text = n.text := by
  have hpath : n.path = [] := by
    by_contra hne
    rw [isTabled_of_path hne] at h
    cases h
  simp [text, chars, hpath, Word.text]

/-- **What a table knows a name by** is never the name of a type of the
program. -/
theorem type_ne_of_isTabled (h : n.isTabled = true) : n.type ≠ Identifier.pascal n.text := by
  rw [type]
  cases htable : table.lookup n.text with
  | some type => exact table_ne_pascal _ (mem_of_lookup htable)
  | none =>
    cases hgeneric : generics.lookup n.text with
    | some generic => exact generics_ne_pascal _ (mem_of_lookup hgeneric)
    | none => simp [isTabled, htable, hgeneric] at h

end DottedName

/-! ## Terms in modules -/

/-- What a term denotes inside a module. -/
theorem TypeTerm.type_under (p : DottedName) (s : TypeTerm) :
    (s.under p).type = if s.isTabled then Identifier.pascal s.text else s.type := by
  cases s with
  | name n =>
    have hunder : (n.under p).type = Identifier.pascal n.last.text :=
      DottedName.type_of_not_isTabled (n.isTabled_under p)
    rw [under, type, hunder, isTabled]
    split
    · rename_i htabled
      rw [DottedName.text_last htabled, text, chars, DottedName.text]
    · rename_i htabled
      rw [type, DottedName.type_of_not_isTabled (Bool.not_eq_true _ ▸ htabled)]
  | generic n args => rw [under, type, type, isTabled, if_neg (by decide), DottedName.under]

theorem TypeTerm.type_ne_of_isTabled {s : TypeTerm} (h : s.isTabled = true) :
    s.type ≠ Identifier.pascal s.text := by
  cases s with
  | name n =>
    rw [type, text, chars, ← DottedName.text]
    exact DottedName.type_ne_of_isTabled h
  | generic n args => cases h

theorem TypeTerm.text_under (p : DottedName) (s : TypeTerm) :
    (s.under p).text = p.text ++ "." ++ s.text := by
  rw [text, s.chars_under p, ← String.toList_inj]
  simp [DottedName.text, text]

/-- **A module in front of a type** makes no difference to it, unless the
type is a name alone that a table knows. Such a name is taken for one of a
type of the program. -/
theorem qualified_alike_iff (p : DottedName) (s : TypeTerm) :
    (typeName (p.text ++ "." ++ s.text) = typeName s.text ↔ s.isTabled = false) ∧
    typeName (p.text ++ "." ++ s.text) =
      if s.isTabled then .ok (Identifier.pascal s.text) else typeName s.text := by
  rw [← s.text_under p, (s.under p).typeName_text, s.typeName_text, s.type_under p]
  cases htabled : s.isTabled with
  | false => exact ⟨iff_of_true rfl rfl, rfl⟩
  | true =>
    -- the two are different types, since no table maps a name to its own Pascal case
    refine ⟨iff_of_false (fun heq => ?_) (by decide), rfl⟩
    exact TypeTerm.type_ne_of_isTabled htabled (Except.ok.inj heq).symm

/-- Known names are lost in a module. -/
theorem module_hides_known :
    typeName "Any" = .ok "any" ∧ typeName "typing.Any" = .ok "Any" ∧
    typeName "List" = .ok "Array<any>" ∧ typeName "typing.List" = .ok "List" := by
  decide +kernel

end Scribe
