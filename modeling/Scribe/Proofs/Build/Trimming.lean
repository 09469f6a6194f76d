import Scribe.Proofs.Build.Core.Statement
import Scribe.Proofs.Build.Inversion
import Scribe.Proofs.Syntax.Induction

/-!
# Trees without extras and imports

A tree is *trimmed* by leaving out extras among the children of any node
and imports among the statements of a body, any number of them and at any
depth. A trimmed tree builds the same module, or fails in the same way.

Extras are never among the parts, so leaving one out changes no part at
all. An import is a part, but the body it stands in skips it. Everything
else is the work of the cores: a node whose parts have the same cores has
the same core.
-/

namespace Scribe

/-- The kinds of the statements that import. -/
def Kind.isImport : Kind → Bool
  | importStatement => true
  | importFromStatement => true
  | futureImportStatement => true
  | _ => false

/-- A node of the first kind may lose a child of the second. -/
def Kind.mayLose (k child : Kind) : Bool :=
  child.isExtra || k.holdsBody && child.isImport

namespace Cst

mutual

/-- **The second tree is the first, trimmed.** -/
inductive Trimmed : Cst → Cst → Prop
  | leaf {k : Kind} {text : String} {span : Option Span} :
      Trimmed (.leaf k text span) (.leaf k text span)
  | tree {k : Kind} {cs cs' : List Cst} {span : Option Span} : TrimmedBelow k cs cs' →
      Trimmed (.tree k cs span) (.tree k cs' span)

/-- The second trees are the first, trimmed, as children of a node of
the kind. -/
inductive TrimmedBelow : Kind → List Cst → List Cst → Prop
  | nil {k : Kind} : TrimmedBelow k [] []
  | keep {k : Kind} {c c' : Cst} {cs cs' : List Cst} : Trimmed c c' → TrimmedBelow k cs cs' →
      TrimmedBelow k (c :: cs) (c' :: cs')
  | lose {k : Kind} {c : Cst} {cs cs' : List Cst} : k.mayLose c.kind = true →
      TrimmedBelow k cs cs' → TrimmedBelow k (c :: cs) cs'

end

mutual

/-- The nodes whose text is read are leaves. -/
def readsLeaves : Cst → Bool
  | leaf .. => true
  | tree k cs _ => !k.bearsText && allReadLeaves cs

/-- The nodes whose text is read are leaves, in all of the trees. -/
def allReadLeaves : List Cst → Bool
  | [] => true
  | c :: cs => c.readsLeaves && allReadLeaves cs

end

theorem allReadLeaves_iff {cs : List Cst} :
    allReadLeaves cs = true ↔ ∀ c ∈ cs, c.readsLeaves = true := by
  induction cs with
  | nil => simp [allReadLeaves]
  | cons c cs ih => simp [allReadLeaves, ih]

end Cst

/-! ## Bodies skip imports -/

theorem Branch.result_statement_of_isImport {b : Branch} (h : b.kind.isImport = true)
    (c : Context) : (b.statement c).result = .ok none := by
  unfold Kind.isImport at h
  split at h
  · rename_i hk
    simp [statement, hk]
  · rename_i hk
    simp [statement, hk]
  · rename_i hk
    simp [statement, hk]
  · cases h

theorem result_body_cons (k : Kind) (t : String) (loc : Option Location) (p : Part)
    (ps : List Part) (c : Context) :
    (Branch.body ⟨k, t, loc, p :: ps⟩ c).result =
      (do
        let st ← (p.statement (c.within k)).result
        let ss ← (Branch.body ⟨k, t, loc, ps⟩ c).result
        return st.toList ++ ss) := by
  simp only [Branch.body, buildEach, Traced.result_bind]
  cases (p.statement (c.within k)).result with
  | error e => rfl
  | ok st =>
    cases (buildEach (·.statement (c.within k)) ps).result with
    | error e => rfl
    | ok ss =>
      cases st with
      | none => rfl
      | some st => rfl

/-- Parts that build no statement can be left out of a body. -/
theorem result_body_filter {k : Kind} {t : String} {loc : Option Location} {ps : List Part}
    {keep : Part → Bool} (c : Context)
    (h : ∀ p ∈ ps, keep p = false → ∀ c, (p.statement c).result = .ok none) :
    (Branch.body ⟨k, t, loc, ps.filter keep⟩ c).result =
      (Branch.body ⟨k, t, loc, ps⟩ c).result := by
  induction ps with
  | nil => rfl
  | cons p ps ih =>
    have hps := ih fun q hq => h q (List.mem_cons_of_mem _ hq)
    rw [result_body_cons]
    cases hkeep : keep p with
    | true => rw [List.filter_cons_of_pos hkeep, result_body_cons, hps]
    | false =>
      rw [List.filter_cons_of_neg (by simp [hkeep]), hps, h p (List.mem_cons_self ..) hkeep]
      cases (Branch.body ⟨k, t, loc, ps⟩ c).result with
      | error e => rfl
      | ok ss => rfl

/-! ## Trimming keeps the core -/

namespace Cst

variable {file : String}

/-- The parts that a node may not lose have the same cores before and
after. -/
theorem map_core_partsOf {k : Kind} {cs cs' : List Cst} (h : TrimmedBelow k cs cs')
    (hcs : ∀ c ∈ cs, ∀ c', Trimmed c c' → (c'.part file).core = (c.part file).core) :
    ((partsOf file cs').filter (!k.mayLose ·.kind)).map Part.core =
      ((partsOf file cs).filter (!k.mayLose ·.kind)).map Part.core := by
  induction cs generalizing cs' with
  | nil =>
    cases h
    rfl
  | cons c cs ih =>
    have hrest := fun d hd => hcs d (List.mem_cons_of_mem c hd)
    cases h with
    | keep hc htail =>
      have hcore := hcs c (List.mem_cons_self ..) _ hc
      have hkind := congrArg Part.kind hcore
      rw [Part.kind_core, Part.kind_core] at hkind
      simp only [partsOf, List.filter_cons, hkind]
      split
      · rw [List.map_cons, List.map_cons, hcore, ih htail hrest]
      · exact ih htail hrest
    | lose hk htail =>
      rw [partsOf, List.filter_cons_of_neg (by simp [hk])]
      exact ih htail hrest

/-- Only extras and imports can be lost, and imports only by a body. -/
theorem filter_mayLose (k : Kind) (ps : List Part) :
    ps.filter (!k.mayLose ·.kind) =
      (ps.filter (!·.kind.isExtra)).filter (fun p => !(k.holdsBody && p.kind.isImport)) := by
  rw [List.filter_filter]
  refine List.filter_congr fun p _ => ?_
  simp [Kind.mayLose, Bool.and_comm]

/-- A part that builds no statement, if it is an import. -/
theorem result_statement_of_isImport {cs : List Cst} {p : Part} (h : p ∈ partsOf file cs)
    (hp : p.kind.isImport = true) (c : Context) : (p.statement c).result = .ok none := by
  induction cs with
  | nil => cases h
  | cons d cs ih =>
    rcases List.mem_cons.1 h with rfl | h
    · cases d with
      | leaf k text span => exact Branch.result_statement_of_isImport hp c
      | tree k cs span => exact Branch.result_statement_of_isImport hp c
    · exact ih h

theorem core_eq_of_parts {k : Kind} {t t' : String} {loc : Option Location} {ps ps' : List Part}
    (hk : k.bearsText = false) (h : ps.map Part.core = ps'.map Part.core) :
    Branch.core ⟨k, t, loc, ps⟩ = Branch.core ⟨k, t', loc, ps'⟩ := by
  simp only [Branch.core, hk, h, Bool.false_eq_true, if_false]

/-- **A trimmed tree has the same core**, if the texts that are read
stand at the leaves. -/
theorem core_part_of_trimmed {c c' : Cst} (hleaves : c.readsLeaves = true) (h : Trimmed c c') :
    (c'.part file).core = (c.part file).core := by
  induction c using Cst.induction generalizing c' with
  | leaf k text span =>
    cases h
    rfl
  | tree k cs span ih =>
    simp only [readsLeaves, Bool.and_eq_true, Bool.not_eq_true', allReadLeaves_iff] at hleaves
    cases h with
    | @tree _ _ cs' _ hcs =>
      have hcores := map_core_partsOf hcs fun c hc c' => ih c hc (hleaves.2 c hc)
      rw [filter_mayLose, filter_mayLose] at hcores
      rw [part, part]
      cases hbody : k.holdsBody with
      | false =>
        -- only extras are lost, and the parts have lost them already
        simp only [hbody, Bool.false_and, Bool.not_false, List.filter_eq_self.2,
          implies_true] at hcores
        rw [← Branch.core_part_core, core_eq_of_parts hleaves.1 hcores, Branch.core_part_core]
      | true =>
        -- imports are lost as well, and they are among the parts: a body skips them
        simp only [hbody, Bool.true_and] at hcores
        refine Branch.core_part_of_body hbody fun c => ?_
        have hskip : ∀ ds : List Cst, ∀ p ∈ (partsOf file ds).filter (!·.kind.isExtra),
            (!p.kind.isImport) = false → ∀ c, (p.statement c).result = .ok none :=
          fun ds p hp himport =>
            result_statement_of_isImport (List.mem_filter.1 hp).1 (by simpa using himport)
        rw [← result_body_filter c (hskip cs'), ← result_body_filter c (hskip cs),
          ← Branch.result_body_core, core_eq_of_parts hleaves.1 hcores, Branch.result_body_core]

end Cst

/-! ## Modules -/

/-- **Extras and imports do not matter.** A trimmed tree builds the same
module, places included, or fails with the same failure. -/
theorem build_trimmed {file : String} {c c' : Cst} (hleaves : c.readsLeaves = true)
    (h : c.Trimmed c') : (c'.build file).result = (c.build file).result := by
  have hcore : (c'.part file).core = (c.part file).core := Cst.core_part_of_trimmed hleaves h
  have hkind : (c'.part file).core.kind = (c.part file).core.kind := congrArg Part.kind hcore
  have hloc : (c'.part file).core.loc = (c.part file).core.loc := congrArg Part.loc hcore
  have hbody : ((c'.part file).body .root).result = ((c.part file).body .root).result :=
    congrArg (fun p => (p.body .root).result) hcore
  rw [Part.kind_core, Part.kind_core] at hkind
  rw [Part.loc_core, Part.loc_core] at hloc
  simp only [Cst.build, Part.refuse, hkind, hloc]
  refine Traced.result_ite_congr (fun _ => rfl) fun _ => ?_
  exact Traced.result_bind_congr hbody fun _ => rfl

/-- A documented function that returns a chain of comparisons, with the
imports and extras of the lists put in. -/
def chainTree (imports extras : List Cst) : Cst :=
  let name (n : String) : Cst := .leaf .identifier n none
  let token (t : String) : Cst := .leaf (.token t) t none
  .tree .moduleRoot (imports ++ [
    .tree .functionDefinition [name "f", .tree .parameters (name "a" :: extras) none,
      .tree .block (
        .tree .expressionStatement (.leaf .string "\"\"\"d\"\"\"" none :: extras) none ::
        (imports ++ [.tree .returnStatement [.tree .comparisonOperator (name "a" :: (extras ++
          token "<" :: name "b" :: token "<" :: (extras ++ [name "c"]))) none] none]))
      none] none]) none

/-- An import of each kind. -/
def importTrees : List Cst :=
  [.importStatement, .importFromStatement, .futureImportStatement].map fun k =>
    .tree k [.leaf (.token "import") "import" none, .leaf .identifier "os" none] none

/-- An extra of each kind. -/
def extraLeaves : List Cst :=
  [.leaf .comment "# a" none, .leaf .lineContinuation "\\" none]

theorem trimmedBelow_of_lost {k : Kind} {lost cs cs' : List Cst}
    (hlost : ∀ c ∈ lost, k.mayLose c.kind = true) (h : Cst.TrimmedBelow k cs cs') :
    Cst.TrimmedBelow k (lost ++ cs) cs' := by
  induction lost with
  | nil => exact h
  | cons c lost ih =>
    have hrest := ih fun d hd => hlost d (List.mem_cons_of_mem _ hd)
    exact .lose (hlost c (List.mem_cons_self ..)) hrest

theorem trimmed_chainTree : (chainTree importTrees extraLeaves).Trimmed (chainTree [] []) := by
  have hextra : ∀ k, ∀ c ∈ extraLeaves, Kind.mayLose k c.kind = true := by
    simp [extraLeaves, Kind.mayLose, Cst.kind, Kind.isExtra]
  have hextras : ∀ k, Cst.TrimmedBelow k extraLeaves [] := fun k => by
    simpa using trimmedBelow_of_lost (hextra k) .nil
  refine .tree (trimmedBelow_of_lost (by decide) (.keep (.tree (.keep .leaf ?_)) .nil))
  refine .keep (.tree (.keep .leaf (hextras _))) (.keep (.tree ?_) .nil)
  refine .keep (.tree (.keep .leaf (hextras _))) (trimmedBelow_of_lost (by decide) ?_)
  refine .keep (.tree (.keep (.tree (.keep .leaf ?_)) .nil)) .nil
  refine trimmedBelow_of_lost (hextra _) (.keep .leaf (.keep .leaf (.keep .leaf ?_)))
  exact trimmedBelow_of_lost (hextra _) (.keep .leaf .nil)

/-- The program of the function. -/
def chainProgram : Program :=
  let name (n : String) : Expr := .reference n none none
  ⟨[.function "f" [name "a"] [.comment "\"\"\"d\"\"\"" none,
    .returning (some (.binary (.binary (name "a") .lt (name "b") none) .and
      (.binary (name "b") .lt (name "c") none) none)) none] none [] none], none⟩

/-- With imports and extras all over it the function is still documented
and its chain still has two comparisons. -/
theorem build_trimmed_chain : (chainTree importTrees extraLeaves).readsLeaves = true ∧
    (chainTree importTrees extraLeaves).Trimmed (chainTree [] []) ∧
    ((chainTree importTrees extraLeaves).build "m").result = .ok chainProgram ∧
    ((chainTree [] []).build "m").result = .ok chainProgram := by
  have hleaves : (chainTree importTrees extraLeaves).readsLeaves = true := by decide
  have hbuild : ((chainTree importTrees extraLeaves).build "m").result = .ok chainProgram := rfl
  exact ⟨hleaves, trimmed_chainTree, hbuild,
    (build_trimmed hleaves trimmed_chainTree).trans hbuild⟩

end Scribe
