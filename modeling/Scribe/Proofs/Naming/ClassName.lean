import Scribe.Proofs.Emit.Nesting
import Scribe.Proofs.Naming.Words

/-!
# Class names where they are declared and where they are used

A class is declared under its Pascal case, and a bare reference to it is
written in camel case. `DeclaredAs` and `UsedAs` say for a text in which
places it has to stand: behind `class` and among the names that a body
declares, and on the other side in references, calls, `extends` clauses
and what is assigned to.

A name that follows the convention for classes starts with a capital.
`class_name_agrees_iff` says that one text serves both sides exactly if
the name has a lower-case letter as well. A name of capitals and digits
is declared with a capital and used without one (`acronym_disagrees`).
-/

namespace Scribe

open Identifier

/-! ## The two sides -/

/-- **The convention for class names**: between the underscores at its
ends the name starts with a capital and has letters and digits only. -/
def IsClassName (name : String) : Prop :=
  (parts name.toList).core.head?.any Char.isUpper = true ∧
    (parts name.toList).core.all Char.isAlphanum = true

instance (name : String) : Decidable (IsClassName name) :=
  inferInstanceAs (Decidable (_ ∧ _))

/-- **A class of this name is declared as `w`.** -/
structure DeclaredAs (name w : String) : Prop where
  /-- Its opening line has it. -/
  header : ∀ (s : Scope) (body : List Stmt) (arguments : Option (List Expr))
    (decorators : List String) (loc : Option Location) (f : Fragment),
    (Stmt.classDefinition name body arguments decorators loc).emit s = .ok f →
    ∃ base, extendsText s arguments = .ok base ∧ "class " ++ w ++ base ++ " \x7b" ∈ f.lines
  /-- A body with the class does not declare it again. -/
  excluded : ∀ (body members : List Stmt) (arguments : Option (List Expr))
    (decorators : List String) (loc : Option Location),
    .classDefinition name members arguments decorators loc ∈ body → w ∈ declaredNames body

/-- **A class of this name is used as `w`**, wherever the name does not
stand for the receiver. -/
structure UsedAs (name w : String) : Prop where
  /-- A reference to it, read or assigned to. -/
  reference : ∀ (s : Scope) (loc : Option Location), s.receiver ≠ some name →
    (Expr.reference name none loc).emit s = .ok w
  /-- A call. -/
  call : ∀ (s : Scope) (arguments : List Expr) (loc loc' : Option Location) (text : String),
    s.receiver ≠ some name →
    (Expr.call (.reference name none loc) arguments loc').emit s = .ok text →
    ∃ passed, text = w ++ "(" ++ passed ++ ")"
  /-- The base of another class. -/
  base : ∀ (s : Scope) (arguments : Option (List Expr)) (loc : Option Location),
    s.receiver ≠ some name →
    keptBases (arguments.getD []) = .ok [.reference name none loc] →
    extendsText s arguments = .ok (" extends " ++ w)
  /-- What is recorded for an assignment to it. -/
  recorded : ∀ (receiver : Option String) (loc : Option Location), receiver ≠ some name →
    (Expr.reference name none loc).targets receiver = [(w, none)]

theorem declaredAs_iff {name w : String} : DeclaredAs name w ↔ w = pascal name := by
  constructor
  · intro h
    -- an empty class shows the name it is declared as
    have hf : (Stmt.classDefinition name [] none [] none).emit .top =
        .ok ⟨braced ("class " ++ pascal name ++ "" ++ " \x7b") [], []⟩ := rfl
    obtain ⟨base, hbase, hmem⟩ := h.header _ _ _ _ _ _ hf
    obtain rfl : "" = base := Except.ok.inj hbase
    rcases List.mem_cons.1 hmem with hline | hline
    · simpa using hline
    · have hhead := congrArg (·.toList.head?) (List.mem_singleton.1 hline)
      simp at hhead
  · rintro rfl
    refine ⟨?_, ?_⟩
    · intro s body arguments decorators loc f hf
      obtain ⟨base, b, hbase, -, rfl⟩ := emit_class hf
      exact ⟨base, hbase, List.mem_append_right _ (List.mem_cons_self ..)⟩
    · intro body members arguments decorators loc hmem
      exact List.mem_filterMap.2 ⟨_, hmem, rfl⟩

theorem emit_bareName {s : Scope} {name : String} (loc : Option Location)
    (hr : s.receiver ≠ some name) :
    (Expr.reference name none loc).emit s = .ok (camel name) := by
  rw [Expr.emit, if_neg hr]

theorem usedAs_iff {name w : String} : UsedAs name w ↔ w = camel name := by
  constructor
  · intro h
    have htop : Scope.top.receiver ≠ some name := nofun
    have href := h.reference .top none htop
    rw [emit_bareName none htop] at href
    exact (Except.ok.inj href).symm
  · rintro rfl
    refine ⟨fun _ => emit_bareName, ?_, ?_, ?_⟩
    · intro s arguments loc loc' text hr htext
      obtain ⟨c, texts, hc, -, rfl⟩ := emit_call htext
      rw [if_neg (by simp [Expr.isSuperConstructor]), emit_bareName loc (s := s.reading) hr] at hc
      obtain rfl := Except.ok.inj hc
      exact ⟨_, rfl⟩
    · intro s arguments loc hr hkept
      refine Result.bind_eq_ok.2 ⟨_, hkept, ?_⟩
      exact Result.bind_eq_ok.2 ⟨_, emit_bareName loc (s := s.reading) hr, rfl⟩
    · intro receiver loc hr
      rw [Expr.targets, if_neg hr]

/-! ## Where the two cases agree -/

/-- **The convention in terms of the core.** -/
theorem IsClassName.exists_core {name : String} (h : IsClassName name) :
    ∃ c cs, (parts name.toList).core = c :: cs ∧ c.isUpper = true ∧
      ∀ d ∈ c :: cs, isWordChar d = true := by
  obtain ⟨hhead, hall⟩ := h
  cases hcore : (parts name.toList).core with
  | nil => simp [hcore] at hhead
  | cons c cs =>
    rw [hcore] at hhead hall
    exact ⟨c, cs, rfl, by simpa using hhead, List.all_eq_true.1 hall⟩

/-- A class name is in capitalised words if it has a lower-case letter. -/
theorem IsClassName.isCapitalized_core {name : String} (h : IsClassName name) :
    isCapitalized (parts name.toList).core = (parts name.toList).core.any Char.isLower := by
  obtain ⟨c, cs, hcore, hc, hword⟩ := h.exists_core
  rw [hcore]
  have hupper : Text.isUpper c = true := by
    rw [Text.isUpper_of_lt (toNat_of_isWordChar (hword c (List.mem_cons_self ..))), hc]
  have hunderscore : (c :: cs).contains '_' = false := by
    rw [Bool.eq_false_iff]
    intro hmem
    exact absurd (hword '_' (List.contains_iff_mem.1 hmem)) (by decide)
  have hlower : (c :: cs).any Text.isLower = (c :: cs).any Char.isLower := by
    rw [Bool.eq_iff_iff, List.any_eq_true, List.any_eq_true]
    refine exists_congr fun d => and_congr_right fun hd => ?_
    rw [Text.isLower_of_lt (toNat_of_isWordChar (hword d hd))]
  rw [isCapitalized, hunderscore, hlower]
  simp [hupper]

/-- **The two cases of a class name** are one exactly if it has a
lower-case letter. Without one the first letter tells them apart. -/
theorem camel_eq_pascal_iff {name : String} (h : IsClassName name) :
    camel name = pascal name ↔ (parts name.toList).core.any Char.isLower = true := by
  rw [← h.isCapitalized_core]
  constructor
  · intro heq
    by_contra hcap
    obtain ⟨c, cs, hcore, hc, hword⟩ := h.exists_core
    obtain ⟨w, ws, hwords⟩ := words_cons cs (hword c (List.mem_cons_self ..))
    have hrewritten : isRewritten name.toList = true := by
      rw [isRewritten, Bool.eq_false_iff.2 hcap, hcore, hwords]
      rfl
    have htext := congrArg String.toList heq
    rw [toList_camel hrewritten, pascal, convert_of_isRewritten hrewritten,
      String.toList_ofList, Parts.name, Parts.name, written, hcore, hwords, List.append_assoc,
      List.append_assoc] at htext
    have hhead := (List.cons.inj (List.append_cancel_left htext)).1
    have hcase := congrArg Char.isUpper hhead
    rw [Char.isUpper_toLower_eq_false, Char.isUpper_toUpper_eq_isAlpha] at hcase
    simp [Char.isAlpha, hc] at hcase
  · intro hcap
    have hkept : isRewritten name.toList = false := by simp [isRewritten, hcap]
    rw [camel_of_not_isRewritten hkept, pascal, convert_of_not_isRewritten hkept, name_parts,
      String.ofList_toList]

/-- **Declarations and uses of a class agree exactly if its name has a
lower-case letter.** -/
theorem class_name_agrees_iff {name : String} (h : IsClassName name) :
    (∃ w, DeclaredAs name w ∧ UsedAs name w) ↔
      (parts name.toList).core.any Char.isLower = true := by
  rw [← camel_eq_pascal_iff h]
  constructor
  · rintro ⟨w, hdeclared, hused⟩
    rw [← declaredAs_iff.1 hdeclared, usedAs_iff.1 hused]
  · intro heq
    exact ⟨camel name, declaredAs_iff.2 heq, usedAs_iff.2 rfl⟩

/-- An acronym with a word behind it is declared and used alike. -/
theorem class_name_agrees_iff_server : IsClassName "_HTTPServer2" ∧
    ∃ w, DeclaredAs "_HTTPServer2" w ∧ UsedAs "_HTTPServer2" w := by
  have hname : IsClassName "_HTTPServer2" := by decide +kernel
  exact ⟨hname, (class_name_agrees_iff hname).2 (by decide +kernel)⟩

/-- A class whose name is an acronym, and a class on top of it. -/
def acronymProgram : Program :=
  ⟨[.classDefinition "HTTP" [] none [] none,
    .classDefinition "Server" [] (some [.reference "HTTP" none none]) [] none], none⟩

/-- **An acronym is declared and used differently.** The base of the
second class above is not the first one in the output. -/
theorem acronym_disagrees : IsClassName "HTTP" ∧
    (¬ ∃ w, DeclaredAs "HTTP" w ∧ UsedAs "HTTP" w) ∧
    acronymProgram.blocks =
      .ok ["class Http \x7b\n\x7d", "class Server extends http \x7b\n\x7d"] := by
  refine ⟨by decide +kernel, ?_, Result.eq_ok_of_toOption (by decide +kernel)⟩
  rintro ⟨w, hdeclared, hused⟩
  have heq : pascal "HTTP" = camel "HTTP" := by
    rw [← declaredAs_iff.1 hdeclared, usedAs_iff.1 hused]
  exact absurd heq (by decide +kernel)

end Scribe
