import Scribe.Cst.Parsed
import Scribe.Proofs.Text.Utf8

/-!
# Parsed trees and how they are read

A parsed tree is read from its root: a node becomes a leaf, or the nodes below
it are read in turn (`Reads`). `toCst_of_isLeaf` and `toCst_of_not_isLeaf` are
the two ways in which a node becomes a concrete tree.
-/

namespace Scribe.ParsedTree

/-! ## Parts of a node -/

/-- The nodes below the root. -/
def children : ParsedTree → List ParsedTree
  | node _ _ _ _ _ cs _ _ => cs

/-- The bytes of a source that the root spans. -/
def bytesIn (source : List UInt8) : ParsedTree → List UInt8
  | node _ sb eb _ _ _ _ _ => slice source sb eb

/-- The root becomes a leaf. -/
def isLeaf (t : ParsedTree) : Bool :=
  atomicKinds.contains t.kind || t.children.isEmpty

/-- The byte at which the root starts. -/
def startByte : ParsedTree → Nat
  | node _ sb _ _ _ _ _ _ => sb

/-- The byte at which the root ends. -/
def endByte : ParsedTree → Nat
  | node _ _ eb _ _ _ _ _ => eb

/-- A node on the first line. -/
def onFirstLine (kind : String) (start stop : Nat) (children : List ParsedTree) : ParsedTree :=
  .node kind start stop ⟨0, start⟩ ⟨0, stop⟩ children false false

/-- **Induction over parsed trees.** -/
@[elab_as_elim]
theorem induction {motive : ParsedTree → Prop}
    (step : ∀ t : ParsedTree, (∀ c ∈ t.children, motive c) → motive t) (t : ParsedTree) :
    motive t := by
  refine @ParsedTree.rec motive (fun cs => ∀ c ∈ cs, motive c) ?_ ?_ ?_ t
  · intro k sb eb s e cs err m ih
    exact step _ ih
  · simp
  · intro c cs hc hcs
    exact List.forall_mem_cons.2 ⟨hc, hcs⟩

/-! ## Reading -/

/-- **`x` is read with `t`**: it is `t`, or it is read with a node below
`t`, if `t` does not become a leaf. -/
inductive Reads : ParsedTree → ParsedTree → Prop
  | refl {t : ParsedTree} : Reads t t
  | child {t c x : ParsedTree} : t.isLeaf = false → c ∈ t.children → Reads c x → Reads t x

variable {source : List UInt8} {t : ParsedTree}

/-- A leaf becomes one with its text, if its bytes are a text. -/
theorem toCst_of_isLeaf (h : t.isLeaf = true) {cs : List Char}
    (hcs : t.bytesIn source = Text.encode cs) :
    t.toCst source = .ok (.leaf (.ofName t.kind) (.ofList cs) (some t.span)) := by
  obtain ⟨k, sb, eb, s, e, children, err, m⟩ := t
  have hdecode : Text.decode (slice source sb eb) = .ok cs := by
    rw [show slice source sb eb = Text.encode cs from hcs, Text.decode_encode]
  have hcond : (atomicKinds.contains k || children.isEmpty) = true := h
  rw [toCst, if_pos hcond, leafText, hdecode]
  rfl

/-- Any other node becomes a tree of what its children become. -/
theorem toCst_of_not_isLeaf (h : t.isLeaf = false) {ts : List Cst}
    (hts : toCsts source t.children = .ok ts) :
    t.toCst source = .ok (.tree (.ofName t.kind) ts (some t.span)) := by
  obtain ⟨k, sb, eb, s, e, children, err, m⟩ := t
  have hcond : ¬ (atomicKinds.contains k || children.isEmpty) = true := Bool.eq_false_iff.1 h
  rw [toCst, if_neg hcond, show toCsts source children = .ok ts from hts]
  rfl

end Scribe.ParsedTree
