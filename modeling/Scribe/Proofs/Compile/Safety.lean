import Scribe.Proofs.Build.Safe.Statement
import Scribe.Proofs.Build.Trimming
import Scribe.Proofs.Emit.Domain.Program
import Scribe.Proofs.Parsed.Tree
import Scribe.Proofs.Text.Optional

/-!
# No compilation breaks off

A compilation ends with blocks or with a fault that is reported, unless
the parsed tree breaks a promise of the parser or a type lacks an
argument. `ParsedTree.Promised` lists the promises; they are asked only
of the nodes that are read (`ParsedTree.Reads`).

Under them the tree is read (`ParsedTree.exists_toCst`), every node of it
is built or refused (`Branch.part_safe`), and every type in a built
program is accepted, so that the program is written or refused
(`Program.decides_blocks`). `compile_reports` joins the stages.
-/

namespace Scribe

/-! ## Kinds of parts -/

theorem Cst.map_kind_partsOf (file : String) (cs : List Cst) :
    (Cst.partsOf file cs).map Part.kind = cs.map Cst.kind := by
  induction cs with
  | nil => rfl
  | cons c cs ih => rw [Cst.partsOf, List.map_cons, List.map_cons, ih, Cst.kind_part]

namespace ParsedTree

/-! ## What the parser promises -/

/-- **What the parser promises** of a node that is read. -/
structure Keeps (source : List UInt8) (t : ParsedTree) : Prop where
  /-- The bytes of a leaf are those of a text. -/
  decodes : t.isLeaf = true → ∃ cs, t.bytesIn source = Text.encode cs
  /-- Calls, subscripts and assignments have a part. -/
  headed : t.kind ∈ ["call", "subscript", "assignment", "augmented_assignment"] →
    ∃ c ∈ t.children, c.kind ∉ ["comment", "line_continuation"]
  /-- No value stands behind the third colon of a slice. -/
  bounded : t.kind = "slice" → ∀ k : Kind, k.isExpression = true →
    ¬ [":", ":", ":", k.name].Sublist (t.children.map kind)
  /-- No type has an `Optional` without an argument. -/
  typed : t.kind = "type" → ∀ cs, t.bytesIn source = Text.encode cs →
    ¬ TypeName.BareOptional cs

/-- The parser keeps its promises on all nodes that are read. -/
def Promised (source : List UInt8) (root : ParsedTree) : Prop :=
  ∀ t, root.Reads t → t.Keeps source

variable {source : List UInt8} {file : String} {t c : ParsedTree}

theorem Promised.child (h : t.Promised source) (hleaf : t.isLeaf = false) (hc : c ∈ t.children) :
    c.Promised source :=
  fun x hx => h x (.child hleaf hc hx)

/-! ## Reading a promised tree -/

/-- The types that are accepted. -/
def Accepted (spelling : String) : Prop :=
  ¬ TypeName.BareOptional spelling.toList

/-- What a promised tree becomes: a tree of the same kind that is a safe
part. -/
def Becomes (file : String) (t : ParsedTree) (c : Cst) : Prop :=
  c.kind = .ofName t.kind ∧ (c.part file).Safe Accepted

theorem exists_toCsts {ts : List ParsedTree}
    (h : ∀ t ∈ ts, ∃ c, t.toCst source = .ok c ∧ t.Becomes file c) :
    ∃ cs, toCsts source ts = .ok cs ∧ cs.map Cst.kind = ts.map (.ofName ·.kind) ∧
      ∀ c ∈ cs, (c.part file).Safe Accepted := by
  induction ts with
  | nil => exact ⟨[], rfl, rfl, nofun⟩
  | cons t ts ih =>
    obtain ⟨c, hc, hkind, hsafe⟩ := h t (List.mem_cons_self ..)
    obtain ⟨cs, hcs, hkinds, hsafes⟩ := ih fun t ht => h t (List.mem_cons_of_mem _ ht)
    refine ⟨c :: cs, by rw [toCsts, hc, hcs]; rfl, ?_, List.forall_mem_cons.2 ⟨hsafe, hsafes⟩⟩
    rw [List.map_cons, List.map_cons, hkind, hkinds]

theorem kind_of_ofName {k : String} {kind : Kind} (h : Kind.ofName k = kind) : k = kind.name := by
  rw [← h, Kind.name_ofName]

/-- The kinds of the parts of a node, by their names. -/
theorem map_name_sublist {ts : List ParsedTree} {cs : List Cst} {p : Part → Bool}
    (hkinds : cs.map Cst.kind = ts.map (.ofName ·.kind)) {ks : List Kind}
    (h : ks.Sublist (((Cst.partsOf file cs).filter p).map Part.kind)) :
    (ks.map Kind.name).Sublist (ts.map kind) := by
  have hsub : ks.Sublist (ts.map (Kind.ofName ·.kind)) := by
    rw [← hkinds, ← Cst.map_kind_partsOf file]
    exact h.trans (List.filter_sublist.map _)
  simpa [List.map_map, Function.comp_def, Kind.name_ofName] using hsub.map Kind.name

theorem kind_mem_headed {k : String}
    (h : Kind.ofName k ∈ [.call, .subscript, .assignment, .augmentedAssignment]) :
    k ∈ ["call", "subscript", "assignment", "augmented_assignment"] := by
  have hname := List.mem_map_of_mem (f := Kind.name) h
  rwa [Kind.name_ofName] at hname

theorem isExtra_ofName {k : String} (h : k ∉ ["comment", "line_continuation"]) :
    (Kind.ofName k).isExtra = false := by
  cases hextra : (Kind.ofName k).isExtra with
  | false => rfl
  | true =>
    unfold Kind.isExtra at hextra
    split at hextra
    · rename_i hkind
      exact absurd (kind_of_ofName hkind) (by rintro rfl; simp [Kind.name] at h)
    · rename_i hkind
      exact absurd (kind_of_ofName hkind) (by rintro rfl; simp [Kind.name] at h)
    · cases hextra

/-- What has a part as a call does is no leaf. -/
theorem not_isLeaf_of_headed
    (hk : t.kind ∈ ["call", "subscript", "assignment", "augmented_assignment"])
    (hc : c ∈ t.children) : t.isLeaf = false := by
  have hatomic : ∀ k ∈ ["call", "subscript", "assignment", "augmented_assignment"],
      atomicKinds.contains k = false := by decide
  rw [isLeaf, hatomic t.kind hk, Bool.false_or, List.isEmpty_eq_false_iff]
  exact List.ne_nil_of_mem hc

/-- A node with a part has one that is not an extra. -/
theorem parts_ne_nil {ts : List ParsedTree} {cs : List Cst}
    (hkinds : cs.map Cst.kind = ts.map (.ofName ·.kind))
    (h : ∃ c ∈ ts, c.kind ∉ ["comment", "line_continuation"]) :
    (Cst.partsOf file cs).filter (!·.kind.isExtra) ≠ [] := by
  obtain ⟨c, hc, hextra⟩ := h
  have hmem : Kind.ofName c.kind ∈ (Cst.partsOf file cs).map Part.kind := by
    rw [Cst.map_kind_partsOf, hkinds]
    exact List.mem_map_of_mem (f := fun c => Kind.ofName (kind c)) hc
  obtain ⟨p, hp, hpk⟩ := List.mem_map.1 hmem
  refine List.ne_nil_of_mem (List.mem_filter.2 ⟨hp, ?_⟩)
  rw [hpk, isExtra_ofName hextra]
  rfl

/-- **A promised tree is read**, and what it becomes is safe. -/
theorem exists_toCst (file : String) (h : t.Promised source) :
    ∃ c, t.toCst source = .ok c ∧ t.Becomes file c := by
  induction t using ParsedTree.induction with
  | step t ih =>
  cases hleaf : t.isLeaf with
  | true =>
    obtain ⟨cs, hcs⟩ := (h t .refl).decodes hleaf
    refine ⟨_, toCst_of_isLeaf hleaf hcs, rfl, Branch.part_safe ⟨List.forall_mem_nil _, ?_, ?_, ?_⟩⟩
    · intro hkind
      have hk := kind_mem_headed hkind
      obtain ⟨c, hc, -⟩ := (h t .refl).headed hk
      exact absurd hleaf (by simp [not_isLeaf_of_headed hk hc])
    · exact fun _ k _ hsub => nomatch List.sublist_nil.1 hsub
    · intro hkind
      show ¬ TypeName.BareOptional (String.ofList cs).toList
      rw [String.toList_ofList]
      exact (h t .refl).typed (kind_of_ofName hkind) cs hcs
  | false =>
    obtain ⟨cs, hcs, hkinds, hsafe⟩ := exists_toCsts fun c hc => ih c hc (h.child hleaf hc)
    refine ⟨_, toCst_of_not_isLeaf hleaf hcs, rfl, Branch.part_safe ⟨?_, ?_, ?_, ?_⟩⟩
    · intro p hp
      obtain ⟨c, hc, rfl⟩ := Cst.mem_partsOf (List.mem_filter.1 hp).1
      exact hsafe c hc
    · exact fun hkind => parts_ne_nil hkinds ((h t .refl).headed (kind_mem_headed hkind))
    · intro hkind k hk hsub
      exact (h t .refl).bounded (kind_of_ofName hkind) k hk (map_name_sublist hkinds hsub)
    · -- a type always becomes a leaf
      intro hkind
      have hatomic : atomicKinds.contains t.kind = true := by
        rw [kind_of_ofName hkind]
        decide
      rw [isLeaf, hatomic, Bool.true_or] at hleaf
      cases hleaf

end ParsedTree

/-! ## The stages joined -/

/-- **A safe tree is built or refused**, and the types in what is built
are accepted. -/
theorem Cst.gives_build {file : String} {c : Cst} {P : String → Prop}
    (h : (c.part file).Safe P) : (c.build file).Gives fun p => ∀ t, p.Spells t → P t := by
  unfold Cst.build
  dsimp only
  split
  · exact .refuse ..
  · refine (h.body _).bind fun body hbody => .pure ?_
    rintro t ⟨st, ⟨outer, houter, d, s, hholds⟩, ht⟩
    exact hbody outer houter .top d s st hholds t ht

/-- **The outcome is reported**: it is blocks, or the fault of a text that
does not parse or of a construct that is not supported. -/
def Reported (outcome : Result (List String)) : Prop :=
  (∃ blocks, outcome = .ok blocks) ∨ ∃ f, outcome = .error (.fault f) ∧
    ((∃ message, f.cause = .parse message) ∨ ∃ kind context, f.cause = .unsupported kind context)

theorem Reported.of_unsupported {e : Failure} (h : e.IsUnsupported) : Reported (.error e) := by
  obtain ⟨kind, context, loc, rfl⟩ := h
  exact .inr ⟨_, rfl, .inr ⟨kind, context, rfl⟩⟩

/-- A built program with accepted types is written or refused. -/
theorem reported_generate {file : String} {c : Cst} {p : Program} (format : Option Formatter)
    (hp : (c.build file).result = .ok p) (htypes : ∀ t, p.Spells t → ParsedTree.Accepted t) :
    Reported (generate format p).2 := by
  have hdecides := generate_decides format
    (Program.decides_blocks (Cst.fits_of_build hp) fun t ht => exists_typeName (htypes t ht))
  cases hresult : (generate format p).2 with
  | ok blocks => exact .inl ⟨blocks, rfl⟩
  | error e => exact .of_unsupported (hdecides.unsupported e hresult)

/-- **No compilation breaks off.** If the parser keeps its promises on the
tree of a source, the outcome of compiling it is reported. -/
theorem compile_reports (format : Option Formatter) (file source : String) (parsed : ParsedTree)
    (h : parsed.Promised (Text.encode source.toList)) :
    Reported (compile format file source parsed).outcome := by
  obtain ⟨c, hc, -, hsafe⟩ := ParsedTree.exists_toCst file h
  have hbuild := Cst.gives_build hsafe
  unfold compile ParsedTree.read buildProgram
  by_cases herror : parsed.hasError = true
  · rw [if_pos herror]
    exact .inr ⟨_, rfl, .inl ⟨_, rfl⟩⟩
  · rw [if_neg herror, hc]
    dsimp only
    cases hresult : (c.build file).result with
    | error e => exact .of_unsupported (hbuild.unsupported e hresult)
    | ok p =>
      have hreported := reported_generate format hresult (hbuild.ok p hresult)
      dsimp only
      generalize generate format p = generated at hreported ⊢
      obtain ⟨events, outcome⟩ := generated
      cases outcome with
      | error e => exact hreported
      | ok blocks => exact .inl ⟨blocks, rfl⟩

/-! ## A promised tree -/

namespace ParsedTree

variable {source : List UInt8} {t : ParsedTree}

theorem Promised.of_children (h : t.Keeps source) (hc : ∀ c ∈ t.children, c.Promised source) :
    t.Promised source := by
  intro x hx
  cases hx with
  | refl => exact h
  | child _ hmem hx => exact hc _ hmem x hx

/-- Of most kinds only the text of a leaf is promised. -/
theorem Keeps.of_ordinary
    (hk : t.kind ∉ ["call", "subscript", "assignment", "augmented_assignment", "slice", "type"])
    (h : t.isLeaf = true → ∃ cs, t.bytesIn source = Text.encode cs) : t.Keeps source where
  decodes := h
  headed hkind := absurd (List.mem_append_left ["slice", "type"] hkind) hk
  bounded hkind := by simp [hkind] at hk
  typed hkind := by simp [hkind] at hk

/-- Of calls, subscripts and assignments only a part is promised. -/
theorem Keeps.of_headed {c : ParsedTree}
    (hk : t.kind ∈ ["call", "subscript", "assignment", "augmented_assignment"])
    (hc : c ∈ t.children) (hextra : c.kind ∉ ["comment", "line_continuation"]) :
    t.Keeps source where
  decodes hleaf := absurd hleaf (by simp [not_isLeaf_of_headed hk hc])
  headed _ := ⟨c, hc, hextra⟩
  bounded hkind := by simp [hkind] at hk
  typed hkind := by simp [hkind] at hk

/-- The tree of `x: int = f(y)`. -/
def annotatedTree : ParsedTree :=
  onFirstLine "module" 0 13 [onFirstLine "expression_statement" 0 13 [
    onFirstLine "assignment" 0 13 [onFirstLine "identifier" 0 1 [], onFirstLine ":" 1 2 [],
      onFirstLine "type" 3 6 [], onFirstLine "=" 7 8 [],
      onFirstLine "call" 9 13 [onFirstLine "identifier" 9 10 [],
        onFirstLine "argument_list" 10 13 [onFirstLine "(" 10 11 [],
          onFirstLine "identifier" 11 12 [], onFirstLine ")" 12 13 []]]]]]

theorem not_bareOptional_of_length {cs : List Char} (h : cs.length < 10) :
    ¬ TypeName.BareOptional cs := by
  rintro ⟨blanks, -, hin⟩
  have hlength := hin.length_le
  simp only [List.length_append, show "Optional[".toList.length = 9 from rfl,
    show "]".toList.length = 1 from rfl] at hlength
  omega

theorem promised_annotatedTree :
    annotatedTree.Promised (Text.encode "x: int = f(y)".toList) := by
  generalize hbytes : Text.encode "x: int = f(y)".toList = bytes
  have hleaf : ∀ k a b, k ∉ ["call", "subscript", "assignment", "augmented_assignment", "slice",
      "type"] → (∃ cs, slice bytes a b = Text.encode cs) → (onFirstLine k a b []).Promised bytes :=
    fun k a b hk hcs => .of_children (.of_ordinary hk fun _ => hcs) (List.forall_mem_nil _)
  have htype : (onFirstLine "type" 3 6 []).Promised bytes := by
    have hint : slice bytes 3 6 = Text.encode "int".toList := by
      subst hbytes
      decide
    refine .of_children ⟨fun _ => ⟨_, hint⟩, fun h => absurd h (by decide),
      fun h => absurd h (by decide), fun _ cs hcs => ?_⟩ (List.forall_mem_nil _)
    rw [Text.encode_injective (hcs.symm.trans hint)]
    exact not_bareOptional_of_length (by decide)
  subst hbytes
  have hcall : (onFirstLine "call" 9 13 [onFirstLine "identifier" 9 10 [],
      onFirstLine "argument_list" 10 13 [onFirstLine "(" 10 11 [],
        onFirstLine "identifier" 11 12 [], onFirstLine ")" 12 13 []]]).Promised
      (Text.encode "x: int = f(y)".toList) := by
    refine .of_children (.of_headed (by decide) (.head _) (by decide)) ?_
    refine List.forall_mem_cons.2 ⟨hleaf _ _ _ (by decide) ⟨['f'], by decide⟩, ?_⟩
    refine List.forall_mem_singleton.2
      (.of_children (.of_ordinary (by decide) (absurd · (by decide))) ?_)
    refine List.forall_mem_cons.2 ⟨hleaf _ _ _ (by decide) ⟨['('], by decide⟩, ?_⟩
    refine List.forall_mem_cons.2 ⟨hleaf _ _ _ (by decide) ⟨['y'], by decide⟩, ?_⟩
    exact List.forall_mem_singleton.2 (hleaf _ _ _ (by decide) ⟨[')'], by decide⟩)
  refine .of_children (.of_ordinary (by decide) (absurd · (by decide)))
    (List.forall_mem_singleton.2 ?_)
  refine .of_children (.of_ordinary (by decide) (absurd · (by decide)))
    (List.forall_mem_singleton.2 ?_)
  refine .of_children (.of_headed (by decide) (.head _) (by decide)) ?_
  refine List.forall_mem_cons.2 ⟨hleaf _ _ _ (by decide) ⟨['x'], by decide⟩, ?_⟩
  refine List.forall_mem_cons.2 ⟨hleaf _ _ _ (by decide) ⟨[':'], by decide⟩, ?_⟩
  refine List.forall_mem_cons.2 ⟨htype, ?_⟩
  refine List.forall_mem_cons.2 ⟨hleaf _ _ _ (by decide) ⟨['='], by decide⟩, ?_⟩
  exact List.forall_mem_singleton.2 hcall

end ParsedTree

/-- Above, a type and a call are read. -/
theorem compile_reports_annotated :
    ParsedTree.annotatedTree.Promised (Text.encode "x: int = f(y)".toList) ∧
      Reported (compile none "m" "x: int = f(y)" ParsedTree.annotatedTree).outcome :=
  ⟨ParsedTree.promised_annotatedTree,
    compile_reports none "m" _ _ ParsedTree.promised_annotatedTree⟩

end Scribe
