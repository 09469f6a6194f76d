import Scribe.Build.Trace

/-!
# Build contexts

A node is built in a context: the region of the program it stands in and the kind of the node
around it. The region decides whether a string alone in a statement documents something, and the
kind of the surrounding node is named in faults.
-/

namespace Scribe

/-- Where a node is built. -/
structure Context where
  region : String
  /-- The kind of the node around it; none at the root. -/
  parent : Option Kind
  deriving DecidableEq, Repr

namespace Context

/-- The regions that hold statements. -/
def statementRegions : List String :=
  ["module", "function", "class", "if_statement", "for_statement", "while_statement"]

/-- The context of the root of a module. -/
def root : Context := ⟨"module", none⟩

/-- The name of the kind around a node. -/
def parentName (c : Context) : String :=
  match c.parent with
  | some k => k.name
  | none => "file"

/-- The region holds statements. -/
def holdsStatements (c : Context) : Bool :=
  statementRegions.contains c.region

/-- The context of the children of a node, in the same region. -/
def within (c : Context) (kind : Kind) : Context :=
  ⟨c.region, some kind⟩

/-- The context of the children of a node that opens a region. -/
def entering (_ : Context) (kind : Kind) (region : String) : Context :=
  ⟨region, some kind⟩

/-- The failure of a node that has no rule in the context. -/
def refuse {α : Type} (c : Context) (kind : Kind) (loc : Option Location) : Traced α :=
  .fail (.unsupported kind.name c.parentName loc)

end Context

end Scribe
