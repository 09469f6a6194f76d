import Scribe.Ast.Basic
import Scribe.Ast.Dump
import Scribe.Ast.Kind
import Scribe.Ast.Listing
import Scribe.Ast.Record
import Scribe.Ast.Same
import Scribe.Build.Context
import Scribe.Build.Expression
import Scribe.Build.Module
import Scribe.Build.Parameter
import Scribe.Build.Part
import Scribe.Build.Sequence
import Scribe.Build.Statement
import Scribe.Build.Trace
import Scribe.CommandLine.Folder
import Scribe.CommandLine.Options
import Scribe.CommandLine.Path
import Scribe.CommandLine.Run
import Scribe.Compile
import Scribe.Cst.Basic
import Scribe.Cst.Kind
import Scribe.Cst.Parsed
import Scribe.Cst.Preorder
import Scribe.Decimal.Binary64
import Scribe.Decimal.Numeral
import Scribe.Decimal.Shortest
import Scribe.Diagnostic
import Scribe.Emit.Expr
import Scribe.Emit.Fragment
import Scribe.Emit.Hoist
import Scribe.Emit.Scope
import Scribe.Emit.Signature
import Scribe.Emit.Stmt
import Scribe.Event
import Scribe.Fault
import Scribe.Format.Blocks
import Scribe.Format.Tool
import Scribe.Identifier
import Scribe.Literal
import Scribe.Main
import Scribe.Operator
import Scribe.SExpr
import Scribe.Shell.Words
import Scribe.Text.Blank
import Scribe.Text.Letter
import Scribe.Text.Lines
import Scribe.Text.Margin
import Scribe.Text.Printable
import Scribe.Text.Quote
import Scribe.Text.Utf8
import Scribe.Text.Word
import Scribe.TypeName
import Scribe.Proofs.Emit.Layout
import Scribe.Proofs.Emit.Nesting
import Scribe.Proofs.Syntax.Induction
import Scribe.Proofs.Syntax.Names
import Scribe.Proofs.Build.Grammar
import Scribe.Proofs.Build.Loops
import Scribe.Proofs.Build.Sound.Expression
import Scribe.Proofs.Build.Sound.Statement
import Scribe.Proofs.Build.Culprit
import Scribe.Proofs.Emit.Hoisting
import Scribe.Proofs.Calling.Binding
import Scribe.Proofs.Calling.Written
import Scribe.Proofs.Emit.Parts
import Scribe.Proofs.Emit.Hanging
import Scribe.Proofs.Emit.Placement
import Scribe.Proofs.Emit.Aliases
import Scribe.Proofs.Emit.Literals
import Scribe.Proofs.Emit.Continuation
import Scribe.Proofs.Syntax.Scoping
import Scribe.Proofs.Emit.Receiver
import Scribe.Proofs.Emit.Rebinding
import Scribe.Proofs.Emit.LineStart
import Scribe.Proofs.Emit.WellNested.Statement
import Scribe.Proofs.Text.Control
import Scribe.Proofs.Build.Core.Expression
import Scribe.Proofs.Build.Core.Statement
import Scribe.Proofs.Build.Trimming
import Scribe.Proofs.Build.WellFormed
import Scribe.Proofs.Build.Calls.Statement
import Scribe.Proofs.Syntax.Spelling
import Scribe.Proofs.Emit.Domain.Expression
import Scribe.Proofs.Emit.Domain.Statement
import Scribe.Proofs.Emit.Domain.Program
import Scribe.Proofs.Build.Safe.Expression
import Scribe.Proofs.Build.Safe.Statement
import Scribe.Proofs.Parsed.Tree
import Scribe.Proofs.Compile.Safety
import Scribe.Proofs.Emit.OnePass.Expression
import Scribe.Proofs.Emit.OnePass.Statement
import Scribe.Proofs.Emit.Independence
import Scribe.Proofs.Dump.Reading
import Scribe.Proofs.Dump.Determined
import Scribe.Proofs.Emit.Declared
import Scribe.Proofs.Naming.ClassName
import Scribe.Proofs.Naming.Collision
import Scribe.Proofs.Build.Located
import Scribe.Proofs.Emit.Refusal
import Scribe.Proofs.Emit.AliasNames
import Scribe.Proofs.Types.Syntax
import Scribe.Proofs.Types.Reading
import Scribe.Proofs.Types.Qualified
import Scribe.Proofs.Literal.Token
import Scribe.Proofs.Literal.Template
import Scribe.Proofs.Literal.Raw
import Scribe.Proofs.Types.Gaps
import Scribe.Proofs.Types.Ellipsis
import Scribe.Proofs.Calling.Reshaping
import Scribe.Proofs.Literal.RawTemplate
import Scribe.Proofs.Emit.BlockLines
import Scribe.Proofs.Emit.Documentation
import Scribe.Proofs.Emit.Decorators
import Scribe.Proofs.Naming.CaseFolding
import Scribe.Proofs.Text.Name
import Scribe.Proofs.Naming.Scripts
import Scribe.Proofs.Parsed.Broken
import Scribe.Proofs.Text.Offset
import Scribe.Proofs.Parsed.Leaves
import Scribe.Proofs.Diagnostic.Carets
import Scribe.Proofs.Diagnostic.Color
import Scribe.Proofs.Build.Chain
import Scribe.Proofs.Build.Places
