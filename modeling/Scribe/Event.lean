import Scribe.Cst.Kind
import Scribe.Fault

/-!
# Events

What happens during a compilation and is worth a line in the log. `Event.text` is that line: the
level, the part of the program that reports, and the message.
-/

namespace Scribe

/-- How much an event matters. -/
inductive Level where
  | debug | info | warning
  deriving DecidableEq, Repr

/-- The level as it is written. -/
def Level.name : Level → String
  | debug => "DEBUG"
  | info => "INFO"
  | warning => "WARNING"

/-- Something that happens during a compilation. -/
inductive Event where
  | parsed (file : String) (bytes : Nat)
  | parseFailed (fault : Fault)
  | skipped (kind : Kind)
  | built (file : String) (items : Nat)
  | buildFailed (fault : Fault)
  | generated (blocks : Nat)
  | generateFailed (fault : Fault)
  | unformatted (number total : Nat) (reason : String)
  | compiled (file : String) (blocks : Nat)
  | oddName (path : String)
  | wrote (path : String)
  deriving DecidableEq, Repr

namespace Event

/-- How much the event matters. -/
def level : Event → Level
  | unformatted .. => .warning
  | oddName .. => .warning
  | wrote .. => .info
  | _ => .debug

/-- The part of the program that reports the event. -/
def reporter : Event → String
  | parsed .. => "py2ts.frontend.parser"
  | parseFailed .. => "py2ts.compiler.driver"
  | skipped .. => "py2ts.frontend.builder.base"
  | built .. => "py2ts.frontend.builder.base"
  | buildFailed .. => "py2ts.frontend.builder.base"
  | generated .. => "py2ts.backend.typescript"
  | generateFailed .. => "py2ts.backend.typescript"
  | unformatted .. => "py2ts.backend.formatter"
  | compiled .. => "py2ts.compiler.driver"
  | oddName .. => "py2ts.__main__"
  | wrote .. => "py2ts.__main__"

/-- The message. -/
def message : Event → String
  | parsed file bytes => "parsed " ++ file ++ ": " ++ bytes.repr ++ " bytes"
  | parseFailed fault => "parse failed: " ++ fault.text
  | skipped kind => "skipping " ++ kind.name
  | built file items => "built " ++ file ++ ": " ++ items.repr ++ " top-level items"
  | buildFailed fault => "build failed: " ++ fault.text
  | generated blocks => "generated " ++ blocks.repr ++ " blocks"
  | generateFailed fault => "generate failed: " ++ fault.text
  | unformatted number total reason =>
    "block " ++ number.repr ++ " of " ++ total.repr ++ " left unformatted: " ++ reason
  | compiled file blocks => "translated " ++ file ++ ": " ++ blocks.repr ++ " blocks"
  | oddName path => path ++ " does not look like a Python module"
  | wrote path => "wrote " ++ path

/-- The line in the log. -/
def text (e : Event) : String :=
  e.level.name ++ " " ++ e.reporter ++ ": " ++ e.message

/-- The event is logged; details only if asked for. -/
def isLogged (verbose : Bool) (e : Event) : Bool :=
  verbose || e.level == .warning

end Event

/-- The lines of the log. -/
def logLines (verbose : Bool) (events : List Event) : List String :=
  (events.filter (·.isLogged verbose)).map Event.text

end Scribe
