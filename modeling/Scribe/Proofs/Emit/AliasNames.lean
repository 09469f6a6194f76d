import Scribe.Proofs.Build.Located
import Scribe.Proofs.Emit.Aliases
import Scribe.Proofs.Naming.Words

/-!
# Names of options aliases

The aliases of all functions end up at the top of the module, however
deep the functions are, so all their names live in one place. A name is
made of the function's and, for a method, that of the class right around
it; what is further out does not count (`qualifiedName`).
`Stmt.aliasOwners` lists these names in source order, from the syntax
alone.

`aliases_distinct_iff` says that the aliases have exactly these names, and
so that no two of them are called the same exactly if no two functions
with a typed default have one qualified name. Functions of one body have
different ones as soon as they differ in Pascal case; functions of
different bodies need not (`nested_aliases_clash`).
-/

namespace Scribe

variable {s : Scope} {cls : Option String}

/-! ## Qualified names -/

/-- **What the options of a function are called after**: the function, or
the class right around it and the function. The constructor stands for
its class. -/
def qualifiedName : Option String → String → String
  | none, name => Identifier.pascal name
  | some c, name =>
    if name = constructorName then Identifier.pascal c
    else Identifier.pascal c ++ Identifier.pascal name

mutual

/-- **The functions with a typed default**, each by its qualified name, in
source order. `cls` is the class right around the statement. -/
def Stmt.aliasOwners (cls : Option String) : Stmt → List String
  | .function name parameters body _ _ _ =>
    (if parameters.any Expr.isTypedDefault then [qualifiedName cls name] else [])
      ++ Stmt.bodyAliasOwners none body
  | .classDefinition name body _ _ _ => Stmt.bodyAliasOwners (some name) body
  | .conditional choices _ => Stmt.choiceAliasOwners cls choices
  | .forLoop _ _ body _ => Stmt.bodyAliasOwners cls body
  | .whileLoop _ body _ => Stmt.bodyAliasOwners cls body
  | _ => []

/-- Those of the statements of a body. -/
def Stmt.bodyAliasOwners (cls : Option String) : List Stmt → List String
  | [] => []
  | st :: sts => st.aliasOwners cls ++ Stmt.bodyAliasOwners cls sts

/-- Those of the bodies of a chain of choices. -/
def Stmt.choiceAliasOwners (cls : Option String) : List Choice → List String
  | [] => []
  | c :: cs => c.aliasOwners cls ++ Stmt.choiceAliasOwners cls cs

/-- Those of the body of a choice. -/
def Choice.aliasOwners (cls : Option String) : Choice → List String
  | .mk _ body => Stmt.bodyAliasOwners cls body

end

/-- The functions of a module with a typed default, by qualified name. -/
def Program.aliasOwners (p : Program) : List String :=
  Stmt.bodyAliasOwners none p.body

/-- The name of the alias for a qualified name. -/
def aliasFor (owner : String) : String :=
  owner ++ "Options"

/-- Different functions by qualified name have different aliases. -/
theorem aliasFor_injective : Function.Injective aliasFor := by
  intro a b h
  exact (String.append_left_inj _).1 h

/-! ## Names in a scope -/

/-- The class right around what stands in the scope. -/
def Scope.directClass (s : Scope) : Option String :=
  if s.kind = .classBody then s.className else none

theorem directClass_enterFunction (receiver : Option String) :
    (s.enterFunction receiver).directClass = none := rfl

/-- **The emitter's name is the qualified one.** -/
theorem optionsName_eq (s : Scope) (name : String) :
    s.optionsName name = aliasFor (qualifiedName s.directClass name) := by
  obtain ⟨kind, target, receiver, className⟩ := s
  cases kind with
  | top => rfl
  | function => rfl
  | classBody =>
    cases className with
    | none => rfl
    | some c =>
      -- the only scope in which the class counts
      simp only [Scope.optionsName, Scope.isConstructor, Scope.directClass, qualifiedName,
        aliasFor, decide_true, Bool.true_and, if_true, beq_iff_eq]
      split <;> rfl

/-- The names of the aliases of the functions. -/
def aliasNames (sites : List FunctionSite) : List String :=
  (sites.filter FunctionSite.isAliased).map FunctionSite.aliasName

theorem aliasNames_append (as bs : List FunctionSite) :
    aliasNames (as ++ bs) = aliasNames as ++ aliasNames bs := by
  rw [aliasNames, List.filter_append, List.map_append]
  rfl

/-- **The names of a statement's aliases** are those of its owners. -/
def Stmt.NamesOwners (st : Stmt) : Prop :=
  ∀ d s, aliasNames (st.functions d s) = (st.aliasOwners s.directClass).map aliasFor

theorem aliasNames_bodyFunctions {body : List Stmt} (hbody : ∀ st ∈ body, st.NamesOwners)
    (d : Nat) (s : Scope) : aliasNames (Stmt.bodyFunctions d s body) =
      (Stmt.bodyAliasOwners s.directClass body).map aliasFor := by
  induction body with
  | nil => rfl
  | cons st body ih =>
    obtain ⟨hst, hbody⟩ := List.forall_mem_cons.1 hbody
    rw [Stmt.bodyFunctions, Stmt.bodyAliasOwners, aliasNames_append, List.map_append, hst, ih hbody]

theorem aliasNames_choiceFunctions {choices : List Choice}
    (hchoices : ∀ test body, Choice.mk test body ∈ choices → ∀ st ∈ body, st.NamesOwners)
    (d : Nat) (s : Scope) : aliasNames (Stmt.choiceFunctions d s choices) =
      (Stmt.choiceAliasOwners s.directClass choices).map aliasFor := by
  induction choices with
  | nil => rfl
  | cons c choices ih =>
    obtain ⟨test, body⟩ := c
    have hbody := aliasNames_bodyFunctions (hchoices test body (List.mem_cons_self ..)) d s
    have hrest := ih fun t b h => hchoices t b (List.mem_cons_of_mem _ h)
    rw [Stmt.choiceFunctions, Choice.functions, Stmt.choiceAliasOwners, Choice.aliasOwners,
      aliasNames_append, List.map_append, hbody, hrest]

/-- **Only the class right around a function counts.** A function hides
the class around it from its body; choices and loops do not. -/
theorem Stmt.namesOwners (st : Stmt) : st.NamesOwners := by
  induction st using Stmt.induction with
  | function name parameters body returnType decorators loc ih =>
    intro d s
    -- a class around the function is still in the scope of its body, but no longer right around
    have hbody := aliasNames_bodyFunctions ih (d + 1)
      (s.enterFunction (s.receiverInside decorators parameters))
    rw [directClass_enterFunction] at hbody
    have hown : aliasNames [⟨d, s, name, parameters, decorators⟩] =
        (if parameters.any Expr.isTypedDefault then [qualifiedName s.directClass name]
          else []).map aliasFor := by
      rw [aliasNames, List.filter_singleton, FunctionSite.isAliased]
      cases parameters.any Expr.isTypedDefault with
      | true => exact congrArg (fun n => [n]) (optionsName_eq s name)
      | false => rfl
    rw [Stmt.functions, Stmt.aliasOwners, ← List.singleton_append, aliasNames_append,
      List.map_append, hown, hbody]
  | classDefinition name body arguments decorators loc ih =>
    exact fun d s => aliasNames_bodyFunctions ih (d + 1) (s.enterClass name)
  | conditional choices loc ih =>
    exact fun d s => aliasNames_choiceFunctions ih (d + 1) s
  | forLoop left right body loc ih =>
    exact fun d s => aliasNames_bodyFunctions ih (d + 1) s
  | whileLoop test body loc ih =>
    exact fun d s => aliasNames_bodyFunctions ih (d + 1) s
  | _ => exact fun d s => rfl

/-! ## Definitions of types -/

/-- The block is the definition of the type of that name. -/
def DefinesType (name block : String) : Prop :=
  ∃ members, block = assemble ["type " ++ name ++ " = \x7b " ++ members ++ " \x7d"]

/-- The name of the type that a block defines, as the text has it: what
stands behind the keyword, up to the next blank. -/
def definedType (block : String) : String :=
  .ofList ((block.toList.drop "type ".length).takeWhile (· != ' '))

/-- A name whose characters are all above the blank. -/
def IsSolid (name : String) : Prop :=
  ∀ c ∈ name.toList, ' ' < c

/-- The name of an alias is above the blank if its owner is. -/
theorem IsSolid.aliasFor {owner : String} (h : IsSolid owner) : IsSolid (aliasFor owner) := by
  intro c hc
  rw [Scribe.aliasFor, String.toList_append, List.mem_append] at hc
  rcases hc with hc | hc
  · exact h c hc
  · exact of_decide_eq_true (List.all_eq_true.1 (by decide : "Options".toList.all (' ' < ·)) c hc)

/-- The alias of a function defines the type of its name. -/
theorem FunctionSite.HasAlias.definesType {q : FunctionSite} {text : String}
    (h : q.HasAlias text) : DefinesType q.aliasName (assemble [text]) := by
  obtain ⟨members, index, -, -, rfl⟩ := h
  exact ⟨_, rfl⟩

/-- **A name above the blank can be read off the definition.** -/
theorem DefinesType.definedType_eq {name block : String} (h : DefinesType name block)
    (hname : IsSolid name) : definedType block = name := by
  obtain ⟨members, rfl⟩ := h
  -- the newlines that are released and the blank that ends the name are no characters of it
  have hreleased : name.toList.map (fun c => if c = Literal.heldNewline then '\n' else c) =
      name.toList := by
    refine (List.map_congr_left fun c hc => if_neg ?_).trans (List.map_id _)
    rintro rfl
    exact absurd (hname _ hc) (by decide)
  have hsolid : ∀ c ∈ name.toList, (c != ' ') = true := by
    intro c hc
    rw [bne_iff_ne]
    rintro rfl
    exact absurd (hname _ hc) (by decide)
  have htext : ∃ rest, (assemble ["type " ++ name ++ " = \x7b " ++ members ++ " \x7d"]).toList =
      "type ".toList ++ (name.toList ++ ' ' :: rest) := by
    rw [assemble, Text.unlines_singleton, Literal.releaseNewlines, String.toList_ofList]
    simp only [String.toList_append, List.map_append, List.append_assoc]
    rw [hreleased]
    exact ⟨_, rfl⟩
  obtain ⟨rest, htext⟩ := htext
  rw [definedType, htext, show "type ".length = "type ".toList.length from rfl, List.drop_left,
    List.takeWhile_append_of_pos hsolid, List.takeWhile_cons_of_neg (by decide), List.append_nil,
    String.ofList_toList]

/-! ## Functions of one body -/

/-- **Functions of one body that differ in Pascal case have different
qualified names**, a constructor included. -/
theorem qualifiedName_ne {a b : String} (ha : a ≠ "") (hb : b ≠ "")
    (h : Identifier.pascal a ≠ Identifier.pascal b) :
    qualifiedName cls a ≠ qualifiedName cls b := by
  -- a constructor is called like its class, and a method never is
  have hmethod : ∀ {c m : String}, m ≠ "" → Identifier.pascal c ≠
      Identifier.pascal c ++ Identifier.pascal m := by
    intro c m hm heq
    have hnone : Identifier.pascal m = "" :=
      (String.append_right_inj (Identifier.pascal c)).1 (heq.symm.trans String.append_empty.symm)
    exact hm (Identifier.eq_empty_of_pascal_eq hnone)
  cases cls with
  | none => exact h
  | some c =>
    rw [qualifiedName, qualifiedName]
    split <;> split
    · rename_i hca hcb
      exact absurd (congrArg Identifier.pascal (hca.trans hcb.symm)) h
    · exact hmethod hb
    · exact (hmethod ha).symm
    · exact fun heq => h ((String.append_right_inj _).1 heq)

/-- The name of a function. -/
def Stmt.functionName? : Stmt → Option String
  | .function name .. => some name
  | _ => none

/-- The functions that stand directly in a body, by name. -/
def functionNames (body : List Stmt) : List String :=
  body.filterMap Stmt.functionName?

/-! ## The aliases of a module -/

/-- **The alias blocks of a module**: those that the top-level statements
hand on, in front of their own. -/
def Program.AliasBlocks (p : Program) (blocks aliases : List String) : Prop :=
  ∃ fragments, List.Forall₂ (fun st f => st.emit .top = .ok f) p.body fragments ∧
    blocks = declarationBlock p.body ++ fragments.flatMap Fragment.blocks ∧
    aliases = fragments.flatMap fun f => f.prologue.map fun text => assemble [text]

/-- **How the aliases of a module are named.** -/
structure Program.NamesAliases (p : Program) (aliases : List String) : Prop where
  /-- One alias for each function with a typed default, in source order,
  named after its qualified name. -/
  named : List.Forall₂ DefinesType (p.aliasOwners.map aliasFor) aliases
  /-- No two have the same name exactly if no two of these functions have
  the same qualified name. -/
  apart : (p.aliasOwners.map aliasFor).Nodup ↔ p.aliasOwners.Nodup
  /-- The names are those that the blocks show. -/
  shown : (∀ owner ∈ p.aliasOwners, IsSolid owner) →
    aliases.map definedType = p.aliasOwners.map aliasFor
  /-- Functions of one body that differ in Pascal case differ in their
  qualified names, whatever class is around them. -/
  siblings : ∀ (cls : Option String) (body : List Stmt), "" ∉ functionNames body →
    ((functionNames body).map Identifier.pascal).Nodup →
    ((functionNames body).map (qualifiedName cls)).Nodup

theorem exists_fragments {body : List Stmt} {blocks : List String}
    (h : statementBlocks body = .ok blocks) :
    ∃ fragments, List.Forall₂ (fun st f => st.emit .top = .ok f) body fragments ∧
      blocks = fragments.flatMap Fragment.blocks := by
  induction body generalizing blocks with
  | nil =>
    obtain rfl := Except.ok.inj h
    exact ⟨[], .nil, rfl⟩
  | cons st body ih =>
    simp only [statementBlocks, Result.bind_eq_ok, Result.pure_eq_ok] at h
    obtain ⟨f, hf, rest, hrest, rfl⟩ := h
    obtain ⟨fragments, hfragments, rfl⟩ := ih hrest
    exact ⟨f :: fragments, .cons hf hfragments, rfl⟩

/-- The aliases of one top-level statement. -/
theorem Stmt.definesTypes {st : Stmt} {f : Fragment} (h : st.emit .top = .ok f) :
    List.Forall₂ DefinesType ((st.aliasOwners none).map aliasFor)
      (f.prologue.map fun text => assemble [text]) := by
  have hnames : aliasNames (st.functions 0 .top) = (st.aliasOwners none).map aliasFor :=
    st.namesOwners 0 .top
  rw [← hnames, aliasNames, List.forall₂_map_left_iff, List.forall₂_map_right_iff]
  exact (st.handsOn 0 .top f h).imp fun _ _ hq => hq.definesType

theorem definesTypes_body {body : List Stmt} {fragments : List Fragment}
    (h : List.Forall₂ (fun st f => st.emit .top = .ok f) body fragments) :
    List.Forall₂ DefinesType ((Stmt.bodyAliasOwners none body).map aliasFor)
      (fragments.flatMap fun f => f.prologue.map fun text => assemble [text]) := by
  induction h with
  | nil => exact .nil
  | cons hf _ ih =>
    rw [Stmt.bodyAliasOwners, List.map_append, List.flatMap_cons]
    exact List.rel_append (Stmt.definesTypes hf) ih

theorem map_definedType {owners aliases : List String}
    (h : List.Forall₂ DefinesType (owners.map aliasFor) aliases)
    (hsolid : ∀ owner ∈ owners, IsSolid owner) :
    aliases.map definedType = owners.map aliasFor := by
  rw [List.forall₂_map_left_iff] at h
  induction h with
  | nil => rfl
  | cons hfirst _ ih =>
    obtain ⟨howner, howners⟩ := List.forall_mem_cons.1 hsolid
    rw [List.map_cons, List.map_cons, hfirst.definedType_eq howner.aliasFor, ih howners]

theorem nodup_qualifiedNames {names : List String} (hne : "" ∉ names)
    (h : (names.map Identifier.pascal).Nodup) : (names.map (qualifiedName cls)).Nodup := by
  rw [List.Nodup, List.pairwise_map] at h ⊢
  refine h.imp_of_mem fun ha hb hab => qualifiedName_ne ?_ ?_ hab
  · exact fun heq => hne (heq ▸ ha)
  · exact fun heq => hne (heq ▸ hb)

/-- **When aliases clash.** The aliases of a module are those of the
functions with a typed default, at any depth, and no two have the same
name exactly if the qualified names of these functions are pairwise
different in the whole module. Within one body it is enough that the
functions differ in Pascal case. -/
theorem aliases_distinct_iff {p : Program} {blocks : List String} (h : p.blocks = .ok blocks) :
    ∃ aliases, p.AliasBlocks blocks aliases ∧ p.NamesAliases aliases := by
  obtain ⟨rest, hrest, rfl⟩ := blocks_eq_ok.1 h
  obtain ⟨fragments, hfragments, rfl⟩ := exists_fragments hrest
  have hnamed := definesTypes_body hfragments
  exact ⟨_, ⟨fragments, hfragments, rfl, rfl⟩, {
    named := hnamed
    apart := List.nodup_map_iff aliasFor_injective
    shown := map_definedType hnamed
    siblings := fun _ _ hne hnames => nodup_qualifiedNames hne hnames }⟩

/-- A class whose constructor takes an option, and a function that does. -/
def crateProgram : Program :=
  let option : Expr := .typedDefaultParameter "n" "int" (.number .integer "1" none) none
  ⟨[.classDefinition "crate" [.function "__init__" [.reference "self" none none, option]
      [.simple .pass none] none [] none] none [] none,
    .function "fill" [option] [.simple .pass none] none [] none], none⟩

/-- The blocks of the program. -/
def crateBlocks : List String :=
  ["type CrateOptions = \x7b n?: number \x7d",
    "class Crate \x7b\n  constructor(\x7b n = 1 \x7d: CrateOptions = \x7b\x7d) \x7b\n  \x7d\n\x7d",
    "type FillOptions = \x7b n?: number \x7d",
    "function fill(\x7b n = 1 \x7d: FillOptions = \x7b\x7d) \x7b\n\x7d"]

/-- The constructor above counts as its class. -/
theorem aliases_distinct_iff_crate : crateProgram.blocks = .ok crateBlocks ∧
    crateProgram.aliasOwners = ["Crate", "Fill"] ∧
    ∃ aliases, crateProgram.AliasBlocks crateBlocks aliases ∧
      crateProgram.NamesAliases aliases := by
  have hblocks : crateProgram.blocks = .ok crateBlocks :=
    Result.eq_ok_of_toOption (by decide +kernel)
  exact ⟨hblocks, by decide +kernel, aliases_distinct_iff hblocks⟩

/-! ## Functions of different bodies -/

/-- **Functions and classes of one body are called differently**, in the
bodies of this statement and of all inside it. -/
inductive Stmt.Apart : Stmt → Prop
  | mk {st : Stmt} : (declaredNames st.bodies).Nodup → (∀ inner ∈ st.bodies, Apart inner) →
      Apart st

/-- A function with one inside it that takes an option. -/
def outerTree (name : String) : Cst :=
  let token (t : String) : Cst := .leaf (.token t) t none
  .tree .functionDefinition [.leaf .identifier name none, .tree .parameters [] none,
    .tree .block [.tree .functionDefinition [.leaf .identifier "inner" none,
      .tree .parameters [.tree .typedDefaultParameter [.leaf .identifier "x" none, token ":",
        .leaf .type "int" none, token "=", .leaf .integer "1" none] none] none,
      .tree .block [.tree .passStatement [] none] none] none] none] none

/-- The function of the tree. -/
def outerFunction (name : String) : Stmt :=
  .function name [] [.function "inner" [.typedDefaultParameter "x" "int"
    (.number .integer "1" none) none] [.simple .pass none] none [] none] none [] none

/-- The alias of the inner function. -/
def innerAlias : String :=
  "type InnerOptions = \x7b x?: number \x7d"

/-- The text of the outer function. -/
def outerBlock (name : String) : String :=
  "function " ++ name ++ "() \x7b\n  function inner(\x7b x = 1 \x7d: InnerOptions = \x7b\x7d) "
    ++ "\x7b\n  \x7d\n\x7d"

theorem apart_outerFunction (name : String) : (outerFunction name).Apart :=
  .mk (List.nodup_singleton _) (List.forall_mem_singleton.2 (.mk List.nodup_nil
    (List.forall_mem_singleton.2 (.mk List.nodup_nil nofun))))

/-- **Functions of different bodies can share an alias.** The two outer
functions are called differently and so is everything in one body, but
each has an `inner`, and what is around it does not count: the type is
defined twice. -/
theorem nested_aliases_clash :
    (Cst.build "m" (.tree .moduleRoot [outerTree "f", outerTree "g"] none)).result =
      .ok ⟨[outerFunction "f", outerFunction "g"], none⟩ ∧
    (declaredNames [outerFunction "f", outerFunction "g"]).Nodup ∧
    (∀ st ∈ [outerFunction "f", outerFunction "g"], st.Apart) ∧
    Program.blocks ⟨[outerFunction "f", outerFunction "g"], none⟩ =
      .ok [innerAlias, outerBlock "f", innerAlias, outerBlock "g"] ∧
    DefinesType "InnerOptions" innerAlias := by
  refine ⟨rfl, by decide +kernel, ?_, Result.eq_ok_of_toOption (by decide +kernel),
    "x?: number", by decide +kernel⟩
  exact List.forall_mem_cons.2 ⟨apart_outerFunction "f",
    List.forall_mem_singleton.2 (apart_outerFunction "g")⟩

end Scribe
