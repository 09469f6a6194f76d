import Mathlib.Data.List.Forall2
import Scribe.Proofs.Parsed.Tree
import Scribe.Proofs.Text.Offset

/-!
# The texts of leaves

The parser cuts a source in bytes, and a leaf gets its text by decoding the
bytes that it spans. If each leaf starts and ends where a character starts,
nothing is lost between the two: `leaves_carry_source` says that the concrete
tree is made, and that its leaves are the nodes that become leaves, in order,
each with the characters of the source from its start to its end.

Only the nodes that are read have to be cut so (`Reads`). Below a node that
becomes a leaf the parser may put its bounds anywhere.
-/

namespace Scribe

open Text

/-! ## Leaves in order -/

namespace Cst

mutual

/-- The leaves of a concrete tree, from the first to the last. -/
def leaves : Cst → List Cst
  | leaf k t s => [leaf k t s]
  | tree _ cs _ => leavesOf cs

/-- The leaves of concrete trees, one tree after another. -/
def leavesOf : List Cst → List Cst
  | [] => []
  | c :: cs => c.leaves ++ leavesOf cs

end

end Cst

namespace ParsedTree

mutual

/-- The nodes that become leaves, from the first to the last: nothing is read
below them. -/
def leafNodes : ParsedTree → List ParsedTree
  | node k sb eb s e cs err m =>
    if atomicKinds.contains k || cs.isEmpty then [node k sb eb s e cs err m] else leafNodesOf cs

/-- The nodes of trees that become leaves, one tree after another. -/
def leafNodesOf : List ParsedTree → List ParsedTree
  | [] => []
  | c :: cs => c.leafNodes ++ leafNodesOf cs

end

variable {t x : ParsedTree} {cs : List Char}

theorem leafNodes_of_isLeaf (h : t.isLeaf = true) : t.leafNodes = [t] := by
  obtain ⟨k, sb, eb, s, e, children, err, m⟩ := t
  rw [leafNodes]
  exact if_pos h

theorem leafNodes_of_not_isLeaf (h : t.isLeaf = false) :
    t.leafNodes = leafNodesOf t.children := by
  obtain ⟨k, sb, eb, s, e, children, err, m⟩ := t
  rw [leafNodes]
  exact if_neg (Bool.eq_false_iff.1 h)

theorem mem_leafNodesOf {ts : List ParsedTree} :
    x ∈ leafNodesOf ts ↔ ∃ t ∈ ts, x ∈ t.leafNodes := by
  induction ts with
  | nil => simp [leafNodesOf]
  | cons t ts ih => simp [leafNodesOf, ih]

/-- **What becomes a leaf** is what is read and has nothing read below it. -/
theorem mem_leafNodes : x ∈ t.leafNodes ↔ t.Reads x ∧ x.isLeaf = true := by
  induction t using ParsedTree.induction with
  | step t ih =>
  cases hleaf : t.isLeaf with
  | true =>
    rw [leafNodes_of_isLeaf hleaf, List.mem_singleton]
    constructor
    · rintro rfl
      exact ⟨.refl, hleaf⟩
    · rintro ⟨hreads, -⟩
      cases hreads with
      | refl => rfl
      | child hnot => exact nomatch hleaf.symm.trans hnot
  | false =>
    rw [leafNodes_of_not_isLeaf hleaf, mem_leafNodesOf]
    constructor
    · rintro ⟨c, hc, hx⟩
      obtain ⟨hreads, hxleaf⟩ := (ih c hc).1 hx
      exact ⟨.child hleaf hc hreads, hxleaf⟩
    · rintro ⟨hreads, hxleaf⟩
      cases hreads with
      | refl => exact nomatch hleaf.symm.trans hxleaf
      | child _ hc hreads => exact ⟨_, hc, (ih _ hc).2 ⟨hreads, hxleaf⟩⟩

/-! ## Cutting a source -/

/-- **A node is cut between characters**: it starts and ends where a character
of the source starts, or where the source ends. -/
structure IsCut (cs : List Char) (t : ParsedTree) : Prop where
  starts : ∃ i ≤ cs.length, t.startByte = offset cs i
  ends : ∃ j ≤ cs.length, t.endByte = offset cs j
  ordered : t.startByte ≤ t.endByte

/-- **A leaf carries its text**: it has the kind and the place of a node, and
the characters of the source from the one that starts with the node to the
one that starts where the node ends. There is one such position for each of
the two bytes, since offsets keep the order. -/
def Carries (cs : List Char) (t : ParsedTree) (c : Cst) : Prop :=
  ∃ i j, i ≤ j ∧ j ≤ cs.length ∧ t.startByte = offset cs i ∧ t.endByte = offset cs j ∧
    c = .leaf (.ofName t.kind) (.ofList (segment cs i j)) (some t.span)

/-- The bytes of a node that is cut between characters are those of a part of
the source. -/
theorem IsCut.exists_segment (h : t.IsCut cs) :
    ∃ i j, i ≤ j ∧ j ≤ cs.length ∧ t.startByte = offset cs i ∧ t.endByte = offset cs j ∧
      t.bytesIn (encode cs) = encode (segment cs i j) := by
  obtain ⟨⟨i, hi, hstart⟩, ⟨j, hj, hend⟩, hle⟩ := h
  have hij : i ≤ j := (offset_le_iff hi).1 (by rwa [← hstart, ← hend])
  refine ⟨i, j, hij, hj, hstart, hend, ?_⟩
  rw [← slice_encode hij, ← hstart, ← hend]
  obtain ⟨k, sb, eb, s, e, children, err, m⟩ := t
  rfl

theorem exists_leavesOf {ts : List ParsedTree}
    (h : ∀ t ∈ ts, ∃ c, t.toCst (encode cs) = .ok c ∧
      List.Forall₂ (Carries cs) t.leafNodes c.leaves) :
    ∃ trees, toCsts (encode cs) ts = .ok trees ∧
      List.Forall₂ (Carries cs) (leafNodesOf ts) (Cst.leavesOf trees) := by
  induction ts with
  | nil => exact ⟨[], rfl, .nil⟩
  | cons t ts ih =>
    obtain ⟨c, hc, hleaves⟩ := h t (List.mem_cons_self ..)
    obtain ⟨trees, htrees, hrest⟩ := ih fun t ht => h t (List.mem_cons_of_mem _ ht)
    refine ⟨c :: trees, by rw [toCsts, hc, htrees]; rfl, ?_⟩
    exact List.rel_append hleaves hrest

theorem exists_leaves (h : ∀ x ∈ t.leafNodes, x.IsCut cs) :
    ∃ c, t.toCst (encode cs) = .ok c ∧ List.Forall₂ (Carries cs) t.leafNodes c.leaves := by
  induction t using ParsedTree.induction with
  | step t ih =>
  cases hleaf : t.isLeaf with
  | true =>
    rw [leafNodes_of_isLeaf hleaf] at h ⊢
    obtain ⟨i, j, hij, hj, hstart, hend, hbytes⟩ :=
      (h t (List.mem_singleton_self t)).exists_segment
    exact ⟨_, toCst_of_isLeaf hleaf hbytes, .cons ⟨i, j, hij, hj, hstart, hend, rfl⟩ .nil⟩
  | false =>
    rw [leafNodes_of_not_isLeaf hleaf] at h ⊢
    obtain ⟨trees, htrees, hleaves⟩ := exists_leavesOf fun c hc =>
      ih c hc fun x hx => h x (mem_leafNodesOf.2 ⟨c, hc, hx⟩)
    exact ⟨_, toCst_of_not_isLeaf hleaf htrees, hleaves⟩

/-- **Leaves carry exactly the text of the source.** If every node that is
read and becomes a leaf is cut between characters, the concrete tree is made;
its leaves are these nodes in order, and each carries the characters of the
source between its bounds. -/
theorem leaves_carry_source (source : String) (t : ParsedTree)
    (h : ∀ x, t.Reads x → x.isLeaf = true → x.IsCut source.toList) :
    ∃ c, t.toCst (encode source.toList) = .ok c ∧
      List.Forall₂ (Carries source.toList) t.leafNodes c.leaves ∧
      ∀ file, t.hasError = false → t.read file source = .ok c := by
  obtain ⟨c, hc, hleaves⟩ := exists_leaves fun x hx =>
    h x (mem_leafNodes.1 hx).1 (mem_leafNodes.1 hx).2
  refine ⟨c, hc, hleaves, fun file herror => ?_⟩
  rw [read, herror]
  exact hc

/-- The tree of `é = "ü"`. The string holds a node that ends inside a
character. -/
def accentedTree : ParsedTree :=
  onFirstLine "module" 0 9 [onFirstLine "assignment" 0 9 [onFirstLine "identifier" 0 2 [],
    onFirstLine "=" 3 4 [], onFirstLine "string" 5 9 [onFirstLine "string_content" 6 7 []]]]

/-- The characters of the name and of the string take two bytes each. -/
theorem leaves_carry_source_accented :
    (∀ x, accentedTree.Reads x → x.isLeaf = true → x.IsCut "é = \"ü\"".toList) ∧
    ∃ c, accentedTree.toCst (encode "é = \"ü\"".toList) = .ok c ∧
      List.Forall₂ (Carries "é = \"ü\"".toList) accentedTree.leafNodes c.leaves ∧
      ∀ file, accentedTree.hasError = false → accentedTree.read file "é = \"ü\"" = .ok c := by
  have hcut : ∀ x ∈ accentedTree.leafNodes, x.IsCut "é = \"ü\"".toList := by
    have hleaf : accentedTree.leafNodes = [onFirstLine "identifier" 0 2 [],
        onFirstLine "=" 3 4 [], onFirstLine "string" 5 9 [onFirstLine "string_content" 6 7 []]] :=
      rfl
    rw [hleaf]
    simp only [List.forall_mem_cons]
    refine ⟨⟨⟨0, ?_⟩, ⟨1, ?_⟩, ?_⟩, ⟨⟨2, ?_⟩, ⟨3, ?_⟩, ?_⟩, ⟨⟨4, ?_⟩, ⟨7, ?_⟩, ?_⟩, nofun⟩
      <;> decide
  have hreads : ∀ x, accentedTree.Reads x → x.isLeaf = true → x.IsCut "é = \"ü\"".toList :=
    fun x hx hleaf => hcut x (mem_leafNodes.2 ⟨hx, hleaf⟩)
  exact ⟨hreads, leaves_carry_source "é = \"ü\"" accentedTree hreads⟩

end ParsedTree

end Scribe
