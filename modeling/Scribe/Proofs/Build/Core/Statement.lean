import Scribe.Build.Module
import Scribe.Proofs.Build.Core.Expression

/-!
# What a rule for statements looks at

The lemmas on cores, for the rules of statements. With them all rules are
at hand, and a node has the same core whether it is built from its parts
or from their cores (`core_part_core`).
-/

namespace Scribe.Branch

variable (b : Branch) (c : Context)

/-! ## Assignments -/

/-- Behind a target the kinds of the parts decide what is read, and the core
keeps them. -/
theorem result_assignmentTail_core (inner : Context) (t : AssignmentTail) (ps : List Part) :
    (assignmentTail inner t (ps.map Part.core)).result = (assignmentTail inner t ps).result := by
  induction ps generalizing t with
  | nil => rfl
  | cons p ps ih =>
    rw [List.map_cons, assignmentTail, assignmentTail]
    refine Traced.result_ite_congr (fun _ => ih t) fun _ => ?_
    refine Traced.result_ite_congr (fun hk => ?_) fun _ => ?_
    · rw [p.text_core (congrArg Kind.bearsText hk)]
      exact ih _
    · refine Traced.result_ite_congr (fun _ => ih _) fun _ => ?_
      exact Traced.result_bind_congr rfl fun e => ih _

@[simp] theorem result_assignment_core :
    (b.core.assignment c).result = (b.assignment c).result := by
  simp only [assignment, parts_core]
  cases b.parts with
  | nil => rfl
  | cons p ps =>
    refine Traced.result_bind_congr rfl fun left => ?_
    exact Traced.result_bind_congr (result_assignmentTail_core _ _ ps) fun _ => rfl

/-- Whether a string is documentation depends on its text and on the region,
both of which the core keeps. -/
theorem result_expressionStatement_core :
    (b.core.expressionStatement c).result = (b.expressionStatement c).result := by
  have hitems : (do
      let is ← b.core.items c Part.element
      return .expression (.sequence .tuple is b.core.loc) : Traced Stmt).result = (do
      let is ← b.items c Part.element
      return .expression (.sequence .tuple is b.loc) : Traced Stmt).result :=
    Traced.result_bind_congr (b.result_items_core c _ Part.result_element_core) fun _ => rfl
  simp only [expressionStatement, parts_core]
  rcases b.parts with _ | ⟨p, _ | ⟨q, ps⟩⟩
  · exact hitems
  · simp only [List.map_cons, List.map_nil, Part.kind_core]
    split
    · rename_i hk
      exact p.result_unlessBody _ (congrArg Kind.holdsBody hk) p.assignment
    · rename_i hk
      exact p.result_unlessBody _ (congrArg Kind.holdsBody hk) p.assignment
    -- only of a string is the text looked at
    · by_cases hk : p.kind = .string
      · have htext := p.text_core (congrArg Kind.bearsText hk)
        rw [htext]
        refine Traced.result_ite_congr (fun _ => rfl) fun _ => ?_
        exact Traced.result_map_congr _ rfl
      · simp only [hk, decide_false, Bool.false_and]
        exact Traced.result_map_congr _ rfl
  · exact hitems

/-! ## Control flow -/

/-- A body is built of the statements of its parts. -/
@[simp] theorem result_body_core : (b.core.body c).result = (b.body c).result :=
  Traced.result_bind_congr (result_buildEach_core fun _ _ => rfl) fun _ => rfl

/-- A clause looks at the body of a block and at the value of its test. -/
theorem result_choiceParts_core (test : Option Expr) (body : List Stmt) (ps : List Part) :
    (choiceParts c test body (ps.map Part.core)).result =
      (choiceParts c test body ps).result := by
  induction ps generalizing test body with
  | nil => rfl
  | cons p ps ih =>
    rw [List.map_cons, choiceParts, choiceParts]
    refine Traced.result_ite_congr (fun _ => ih test body) fun _ => ?_
    refine Traced.result_ite_congr (fun _ => ?_) fun _ => ?_
    · exact Traced.result_bind_congr rfl fun body => ih test body
    · refine Traced.result_ite_congr (fun _ => ?_) fun _ => rfl
      exact Traced.result_bind_congr rfl fun e => ih (some e) body

@[simp] theorem result_choice_core : (b.core.choice c).result = (b.choice c).result :=
  result_choiceParts_core c none [] b.parts

/-- A clause is no body. -/
theorem holdsBody_of_isClause {k : Kind} (h : isClause k = true) : k.holdsBody = false := by
  unfold isClause at h
  split at h
  · rfl
  · rfl
  · cases h

/-- Clauses are looked at as choices, and nothing else of them. -/
theorem result_conditionalStatement_core :
    (b.core.conditionalStatement c).result = (b.conditionalStatement c).result := by
  have hclauses : (b.parts.map Part.core).filter (isClause ·.kind) =
      (b.parts.filter (isClause ·.kind)).map Part.core := by
    rw [List.filter_map]
    rfl
  unfold conditionalStatement
  rw [parts_core, hclauses]
  refine Traced.result_bind_congr (b.result_choice_core _) fun first => ?_
  refine Traced.result_bind_congr (result_buildEach_core fun p hp => ?_) fun _ => rfl
  have hclause := holdsBody_of_isClause (List.mem_filter.1 hp).2
  exact p.result_unlessBody _ hclause p.choice

/-- A loop over a container looks at targets, values and one body. -/
theorem result_forParts_core (inner : Context) (f : ForParts) (ps : List Part) :
    (forParts inner f (ps.map Part.core)).result = (forParts inner f ps).result := by
  induction ps generalizing f with
  | nil => rfl
  | cons p ps ih =>
    rw [List.map_cons, forParts, forParts]
    refine Traced.result_ite_congr (fun _ => ih f) fun _ => ?_
    refine Traced.result_ite_congr (fun _ => ih _) fun _ => ?_
    refine Traced.result_ite_congr (fun _ => ?_) fun _ => ?_
    · exact Traced.result_bind_congr rfl fun body => ih _
    refine Traced.result_ite_congr (fun _ => ?_) fun _ => ?_
    · exact Traced.result_bind_congr rfl fun e => ih _
    refine Traced.result_ite_congr (fun _ => ?_) fun _ => rfl
    exact Traced.result_bind_congr rfl fun e => ih _

theorem result_forStatement_core :
    (b.core.forStatement c).result = (b.forStatement c).result :=
  Traced.result_bind_congr (result_forParts_core _ _ b.parts) fun _ => rfl

theorem result_whileParts_core (inner : Context) (test : Option Expr) (body : List Stmt)
    (ps : List Part) : (whileParts inner test body (ps.map Part.core)).result =
      (whileParts inner test body ps).result := by
  induction ps generalizing test body with
  | nil => rfl
  | cons p ps ih =>
    rw [List.map_cons, whileParts, whileParts]
    refine Traced.result_ite_congr (fun _ => ih test body) fun _ => ?_
    refine Traced.result_ite_congr (fun _ => ?_) fun _ => ?_
    · exact Traced.result_bind_congr rfl fun body => ih test body
    · refine Traced.result_ite_congr (fun _ => ?_) fun _ => rfl
      exact Traced.result_bind_congr rfl fun e => ih (some e) body

theorem result_whileStatement_core :
    (b.core.whileStatement c).result = (b.whileStatement c).result :=
  Traced.result_bind_congr (result_whileParts_core _ _ _ b.parts) fun _ => rfl

/-- What is returned is looked at as a value. -/
theorem result_returnStatement_core :
    (b.core.returnStatement c).result = (b.returnStatement c).result := by
  simp only [returnStatement, partsWithout_core]
  rcases b.partsWithout ["return"] with _ | ⟨p, _ | ⟨q, ps⟩⟩ <;> simp

theorem result_raiseStatement_core :
    (b.core.raiseStatement c).result = (b.raiseStatement c).result := by
  simp only [raiseStatement, partsWithout_core]
  rcases b.partsWithout ["raise"] with _ | ⟨p, _ | ⟨q, ps⟩⟩ <;> simp

/-! ## Definitions -/

/-- Of its parts a function reads a name, parameters, a type and a body. -/
theorem result_functionParts_core (inner : Context) (f : FunctionParts) (ps : List Part) :
    (functionParts inner f (ps.map Part.core)).result = (functionParts inner f ps).result := by
  induction ps generalizing f with
  | nil => rfl
  | cons p ps ih =>
    rw [List.map_cons, functionParts, functionParts]
    refine Traced.result_ite_congr (fun _ => ih f) fun _ => ?_
    rw [Part.kind_core]
    split
    · rename_i hk
      rw [p.text_core (congrArg Kind.bearsText hk)]
      exact ih _
    · rename_i hk
      refine Traced.result_bind_congr ?_ fun es => ih _
      exact p.result_unlessBody inner (congrArg Kind.holdsBody hk) p.parameters
    · rename_i hk
      rw [p.text_core (congrArg Kind.bearsText hk)]
      exact ih _
    · exact Traced.result_bind_congr rfl fun body => ih _
    · rfl

theorem result_function_core (decorators : List String) :
    (b.core.function decorators c).result = (b.function decorators c).result :=
  Traced.result_bind_congr (result_functionParts_core _ _ b.parts) fun _ => rfl

/-- Of its parts a class reads a name, its bases and a body. -/
theorem result_classParts_core (inner : Context) (f : ClassParts) (ps : List Part) :
    (classParts inner f (ps.map Part.core)).result = (classParts inner f ps).result := by
  induction ps generalizing f with
  | nil => rfl
  | cons p ps ih =>
    rw [List.map_cons, classParts, classParts]
    refine Traced.result_ite_congr (fun _ => ih f) fun _ => ?_
    rw [Part.kind_core]
    split
    · rename_i hk
      rw [p.text_core (congrArg Kind.bearsText hk)]
      exact ih _
    · rename_i hk
      refine Traced.result_bind_congr ?_ fun es => ih _
      exact p.result_unlessBody inner (congrArg Kind.holdsBody hk) p.arguments
    · exact Traced.result_bind_congr rfl fun body => ih _
    · rfl

theorem result_classDefinition_core (decorators : List String) :
    (b.core.classDefinition decorators c).result = (b.classDefinition decorators c).result :=
  Traced.result_bind_congr (result_classParts_core _ _ b.parts) fun _ => rfl

@[simp] theorem result_definition_core (decorators : List String) :
    (b.core.definition decorators c).result = (b.definition decorators c).result := by
  unfold definition
  rw [kind_core]
  split
  · exact b.result_classDefinition_core c decorators
  · exact b.result_function_core c decorators

/-- A decorator is read as its text, and what it decorates as a definition. -/
theorem result_decoratedParts_core (decorators : List String) (ps : List Part) :
    (decoratedParts b.core c decorators (ps.map Part.core)).result =
      (decoratedParts b c decorators ps).result := by
  induction ps generalizing decorators with
  | nil => rfl
  | cons p ps ih =>
    rw [List.map_cons, decoratedParts, decoratedParts, Part.kind_core]
    split
    · rename_i hk
      rw [p.text_core (congrArg Kind.bearsText hk)]
      exact ih _
    · rename_i hk
      exact p.result_unlessBody c (congrArg Kind.holdsBody hk) (p.definition decorators)
    · rename_i hk
      exact p.result_unlessBody c (congrArg Kind.holdsBody hk) (p.definition decorators)
    · rfl

/-! ## The role of a statement -/

/-- **No statement looks past the core.** The rule is chosen by the kind, and
every rule looks at cores. -/
@[simp] theorem result_statement_core :
    (b.core.statement c).result = (b.statement c).result := by
  unfold statement
  rw [kind_core]
  split
  · exact Traced.result_map_congr some (b.result_expressionStatement_core c)
  · exact Traced.result_map_congr some (b.result_function_core c [])
  · exact Traced.result_map_congr some (b.result_classDefinition_core c [])
  · exact Traced.result_map_congr some (b.result_decoratedParts_core c [] b.parts)
  · exact Traced.result_map_congr some (b.result_conditionalStatement_core c)
  · exact Traced.result_map_congr some (b.result_forStatement_core c)
  · exact Traced.result_map_congr some (b.result_whileStatement_core c)
  · exact Traced.result_map_congr some (b.result_returnStatement_core c)
  · exact Traced.result_map_congr some (b.result_raiseStatement_core c)
  · rfl
  · rfl
  · rfl
  · rfl
  · rfl
  · rfl
  · rfl

/-! ## All roles -/

/-- **No rule looks past the core.** A node has the same core whether it
is built from its parts or from their cores. -/
theorem core_part_core : b.core.part.core = b.part.core := by
  have htext : b.core.part.core.text = b.part.core.text := by
    show (if b.kind.bearsText then b.core.text else "") = if b.kind.bearsText then b.text else ""
    split
    · exact b.text_core ‹_›
    · rfl
  refine (Part.mk.injEq ..).mpr ⟨rfl, htext, rfl, ?_, ?_, ?_, ?_, ?_, ?_, ?_, ?_, ?_, ?_, ?_, ?_,
    ?_, ?_, ?_⟩
  · exact funext fun c => Traced.quiet_congr (b.result_statement_core c)
  · exact funext fun c => Traced.quiet_congr (b.result_expression_core c)
  · exact funext fun c => Traced.quiet_congr (b.result_argument_core c)
  · exact funext fun c => Traced.quiet_congr (b.result_element_core c)
  · exact funext fun c => Traced.quiet_congr (b.result_target_core c)
  · exact funext fun c => Traced.quiet_congr (b.result_parameter_core c)
  · exact funext fun c => Traced.quiet_congr (b.result_body_core c)
  · exact funext fun c => Part.unlessBody_congr _ c rfl rfl (b.result_arguments_core c)
  · exact funext fun c => Part.unlessBody_congr _ c rfl rfl (b.result_parameters_core c)
  · exact funext fun c => Part.unlessBody_congr _ c rfl rfl (b.result_choice_core c)
  · exact funext fun c => Part.unlessBody_congr _ c rfl rfl (b.result_assignment_core c)
  · exact funext fun ds => funext fun c =>
      Part.unlessBody_congr _ c rfl rfl (b.result_definition_core c ds)
  · exact funext fun c => Part.unlessBody_congr _ c rfl rfl (b.result_pair_core c)
  · exact funext fun c => Part.unlessBody_congr _ c rfl rfl (b.result_bounds_core c)
  · exact funext fun c => Part.unlessBody_congr _ c rfl rfl (b.result_starred_core c)

/-- Of a body nothing but its statements is in the core. -/
theorem core_part_of_body {k : Kind} {t t' : String} {loc : Option Location} {ps ps' : List Part}
    (hk : k.holdsBody = true)
    (h : ∀ c, (body ⟨k, t, loc, ps⟩ c).result = (body ⟨k, t', loc, ps'⟩ c).result) :
    (part ⟨k, t, loc, ps⟩).core = (part ⟨k, t', loc, ps'⟩).core := by
  have hkind : k = .moduleRoot ∨ k = .block := by
    unfold Kind.holdsBody at hk
    split at hk
    · exact .inl rfl
    · exact .inr rfl
    · cases hk
  have hbody : (fun c => (body ⟨k, t, loc, ps⟩ c).quiet) = fun c =>
      (body ⟨k, t', loc, ps'⟩ c).quiet :=
    funext fun c => Traced.quiet_congr (h c)
  -- all other roles of the two kinds are refused, whatever the parts
  rcases hkind with rfl | rfl
  · exact (Part.mk.injEq ..).mpr ⟨rfl, rfl, rfl, rfl, rfl, rfl, rfl, rfl, rfl, hbody, rfl, rfl, rfl,
      rfl, rfl, rfl, rfl, rfl⟩
  · exact (Part.mk.injEq ..).mpr ⟨rfl, rfl, rfl, rfl, rfl, rfl, rfl, rfl, rfl, hbody, rfl, rfl, rfl,
      rfl, rfl, rfl, rfl, rfl⟩

end Scribe.Branch
