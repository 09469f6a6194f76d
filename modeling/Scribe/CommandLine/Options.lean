import Scribe.Text.Word
import Scribe.Text.Quote

/-!
# Options of the command line

A command names one file and may carry options. A long option may be cut short as long as no other
starts the same way, and takes a value behind an equals sign or in the next word. Short options may
share a word, and a value follows the last of them directly or in the next word. An equals sign
between the first letter and what follows it is not part of what follows. After `--` nothing is an
option.

Every word is read for itself before any takes effect, so an ambiguous word is refused even behind
a request for help. The other refusals arise in the order of the words, and a missing file and words
too many are noticed last.
-/

namespace Scribe.CommandLine

/-- An option. -/
inductive Flag where
  | help | output | write | noFormat | dumpTree | dumpSyntax | verbose
  deriving DecidableEq, Repr

namespace Flag

/-- Every option, in the order of the help text. -/
def all : List Flag :=
  [help, output, write, noFormat, dumpTree, dumpSyntax, verbose]

/-- How the option is written. -/
def spellings : Flag → List String
  | help => ["-h", "--help"]
  | output => ["-o", "--output"]
  | write => ["-w", "--write"]
  | noFormat => ["--no-format"]
  | dumpTree => ["--dump-cst"]
  | dumpSyntax => ["--dump-ast"]
  | verbose => ["-v", "--verbose"]

/-- The option takes a value. -/
def takesValue : Flag → Bool
  | output => true
  | _ => false

/-- The option in messages. -/
def label (f : Flag) : String :=
  "/".intercalate f.spellings

/-- The option with the given spelling. -/
def ofSpelling? (s : String) : Option Flag :=
  all.find? (·.spellings.contains s)

/-- The short option with the given letter. -/
def ofLetter? (c : Char) : Option Flag :=
  ofSpelling? (.ofList ['-', c])

/-- The spellings that start with `start`, each with its option. -/
def startingWith (start : List Char) : List (String × Flag) :=
  (all.flatMap fun f => f.spellings.map (·, f)).filter fun e => start.isPrefixOf e.1.toList

end Flag

/-- Why a command cannot be carried out. -/
inductive UsageError where
  | ambiguous (word : String) (matching : List String)
  | missingValue (flag : Flag)
  | excessValue (flag : Flag) (value : String)
  | missingFile
  | unrecognized (words : List String)
  deriving DecidableEq, Repr

/-- The reason in words. -/
def UsageError.message : UsageError → String
  | .ambiguous word matching =>
    "ambiguous option: " ++ word ++ " could match " ++ ", ".intercalate matching
  | .missingValue flag => "argument " ++ flag.label ++ ": expected one argument"
  | .excessValue flag value =>
    "argument " ++ flag.label ++ ": ignored explicit argument " ++ Text.quoted value
  | .missingFile => "the following arguments are required: file"
  | .unrecognized words => "unrecognized arguments: " ++ " ".intercalate words

/-! ## Words -/

/-- How the options of a word go on. -/
inductive Ending where
  /-- With nothing. -/
  | complete
  /-- With the value of the last option. -/
  | value (text : String)
  /-- With an option whose value is the next word. -/
  | awaiting (flag : Flag)
  deriving DecidableEq, Repr

/-- The options of a word that take no value, in order, and how the word goes on. -/
structure Group where
  flags : List Flag
  ending : Ending
  deriving DecidableEq, Repr

namespace Group

/-- An option without a value in its word. -/
def bare (f : Flag) : Group :=
  if f.takesValue then ⟨[], .awaiting f⟩ else ⟨[f], .complete⟩

/-- An option with a value in its word. -/
def withValue (f : Flag) (value : List Char) : Except UsageError Group :=
  if f.takesValue then .ok ⟨[], .value (.ofList value)⟩
  else .error (.excessValue f (.ofList value))

/-- A group behind an option that takes no value. -/
def prepend (f : Flag) (g : Group) : Group :=
  ⟨f :: g.flags, g.ending⟩

/-- A short option with more behind it in its word: its value, or the letters of further options. -/
def attached (f : Flag) : List Char → Except UsageError Group
  | [] => withValue f []
  | c :: cs =>
    if f.takesValue then withValue f (c :: cs)
    else match Flag.ofLetter? c with
      | none => withValue f (c :: cs)
      | some g => (if cs.isEmpty then .ok (bare g) else attached g cs).map (prepend f)

/-- A short option and what follows it in its word, less an equals sign between the two. -/
def short (f : Flag) : List Char → Except UsageError Group
  | [] => .ok (bare f)
  | '=' :: cs => attached f cs
  | cs => attached f cs

end Group

/-- A word of the command line. -/
inductive Word where
  /-- A file, or the value of an option. -/
  | argument (text : String)
  /-- The word after which nothing is an option. -/
  | divider
  /-- Options, or why they cannot be used. -/
  | options (group : Except UsageError Group)
  /-- A word that looks like an option and is none. -/
  | unknown (text : String)

namespace Word

/-- Digits, possibly with a final newline. -/
def isDigits (cs : List Char) : Bool :=
  match cs.dropWhile fun c => (Text.digitValue? c).isSome with
  | [] => !cs.isEmpty
  | ['\n'] => cs.length > 1
  | _ => false

/-- What stands behind a minus sign is a number. -/
def isNumber (cs : List Char) : Bool :=
  isDigits cs
    || (match cs.dropWhile fun c => (Text.digitValue? c).isSome with
      | '.' :: fraction => isDigits fraction
      | _ => false)

/-- A word that starts like an option and is none. Numbers and words with a space are arguments. -/
def notOption (cs : List Char) : Word :=
  if isNumber cs.tail || cs.contains ' ' then .argument (.ofList cs) else .unknown (.ofList cs)

/-- A long option with the value behind its equals sign, if it has one. -/
def long (f : Flag) (value : Option (List Char)) : Word :=
  .options (match value with
    | none => .ok (.bare f)
    | some v => Group.withValue f v)

/-- Cuts a word at its first equals sign. -/
def cutValue (cs : List Char) : List Char × Option (List Char) :=
  match cs.dropWhile (· != '=') with
  | [] => (cs, none)
  | _ :: value => (cs.takeWhile (· != '='), some value)

/-- Reads a word that starts with two minus signs. -/
def ofLong (cs : List Char) : Except UsageError Word :=
  let (name, value) := cutValue cs
  match Flag.ofSpelling? (.ofList name) with
  | some f => .ok (long f value)
  | none =>
    match Flag.startingWith name with
    | [] => .ok (notOption cs)
    | [(_, f)] => .ok (long f value)
    | many => .error (.ambiguous (.ofList cs) (many.map (·.1)))

/-- Reads a word in front of the divider. -/
def ofText (s : String) : Except UsageError Word :=
  match s.toList with
  | '-' :: '-' :: cs => ofLong ('-' :: '-' :: cs)
  | '-' :: c :: cs =>
    .ok (match Flag.ofLetter? c with
      | some f => .options (Group.short f cs)
      | none => notOption ('-' :: c :: cs))
  | _ => .ok (.argument s)

/-- Reads the words of a command. -/
def ofTexts : List String → Except UsageError (List Word)
  | [] => .ok []
  | s :: rest =>
    if s = "--" then .ok (.divider :: rest.map .argument)
    else do
      let w ← ofText s
      let ws ← ofTexts rest
      return w :: ws

end Word

/-! ## Commands -/

/-- What a command asks for. -/
structure Options where
  output : Option String
  write : Bool
  noFormat : Bool
  dumpTree : Bool
  dumpSyntax : Bool
  verbose : Bool
  deriving DecidableEq, Repr

/-- Nothing but the defaults. -/
def Options.default : Options := ⟨none, false, false, false, false, false⟩

/-- A command that can be carried out. -/
inductive Command where
  /-- Show the help text. -/
  | help
  /-- Compile a file. -/
  | run (file : String) (options : Options)
  deriving DecidableEq, Repr

/-- What is known of a command after some of its words. -/
structure Reading where
  file : Option String
  options : Options
  /-- The words that have no use. -/
  excess : List String
  deriving DecidableEq, Repr

namespace Reading

/-- Nothing is known yet. -/
def start : Reading := ⟨none, .default, []⟩

/-- One more word without a use. -/
def addExcess (r : Reading) (word : String) : Reading :=
  { r with excess := r.excess ++ [word] }

/-- Switches an option without a value on; help asks for nothing else. -/
def switchOn (r : Reading) : Flag → Option Reading
  | .help => none
  | .output => some r
  | .write => some { r with options := { r.options with write := true } }
  | .noFormat => some { r with options := { r.options with noFormat := true } }
  | .dumpTree => some { r with options := { r.options with dumpTree := true } }
  | .dumpSyntax => some { r with options := { r.options with dumpSyntax := true } }
  | .verbose => some { r with options := { r.options with verbose := true } }

/-- Switches options on in order. -/
def switchAll (r : Reading) (flags : List Flag) : Option Reading :=
  flags.foldlM switchOn r

/-- Sets the place of the output. A divider in the place of the value leaves the output without a
place of its own. -/
def setOutput (r : Reading) (path : String) : Reading :=
  { r with options := { r.options with output := if path = "--" then none else some path } }

/-- The command after its last word. -/
def finish (r : Reading) : Except UsageError Command :=
  match r.file with
  | none => .error .missingFile
  | some file =>
    if r.excess.isEmpty then .ok (.run file r.options) else .error (.unrecognized r.excess)

/-- The words of a command from some point on. -/
def read (r : Reading) : List Word → Except UsageError Command
  | [] => r.finish
  | .argument a :: .divider :: rest =>
    match r.file with
    | none => read { r with file := some a } rest
    | some _ => read ((r.addExcess a).addExcess "--") rest
  | .argument a :: rest =>
    match r.file with
    | none => read { r with file := some a } rest
    | some _ => read (r.addExcess a) rest
  | .divider :: .argument a :: rest =>
    match r.file with
    | none => read { r with file := some a } rest
    | some _ => read ((r.addExcess "--").addExcess a) rest
  | .divider :: rest => read (r.addExcess "--") rest
  | .unknown a :: rest => read (r.addExcess a) rest
  | .options (.error e) :: _ => .error e
  | .options (.ok ⟨flags, .complete⟩) :: rest =>
    match r.switchAll flags with
    | none => .ok .help
    | some r => read r rest
  | .options (.ok ⟨flags, .value text⟩) :: rest =>
    match r.switchAll flags with
    | none => .ok .help
    | some r => read (r.setOutput text) rest
  | .options (.ok ⟨flags, .awaiting _⟩) :: .argument a :: rest =>
    match r.switchAll flags with
    | none => .ok .help
    | some r => read (r.setOutput a) rest
  | .options (.ok ⟨_, .awaiting flag⟩) :: _ => .error (.missingValue flag)

end Reading

/-- The command that the words of a command line give. -/
def Command.ofWords (words : List String) : Except UsageError Command := do
  let ws ← Word.ofTexts words
  Reading.start.read ws

/-! ## Texts -/

/-- How a command is written. -/
def usage : String :=
  "usage: py2ts [-h] [-o OUTPUT] [-w] [--no-format] [--dump-cst] [--dump-ast]\n"
    ++ "             [-v]\n"
    ++ "             file\n"

/-- The help text. -/
def help : String :=
  usage
    ++ "\n"
    ++ "Translate a Python module to TypeScript.\n"
    ++ "\n"
    ++ "positional arguments:\n"
    ++ "  file                  Path to .py source file\n"
    ++ "\n"
    ++ "options:\n"
    ++ "  -h, --help            show this help message and exit\n"
    ++ "  -o OUTPUT, --output OUTPUT\n"
    ++ "                        Write TypeScript here instead of stdout\n"
    ++ "  -w, --write           Write next to the source as .ts\n"
    ++ "  --no-format           Skip prettier; emit blocks as generated\n"
    ++ "  --dump-cst            Print the concrete syntax tree and exit\n"
    ++ "  --dump-ast            Print the AST as an S-expression and exit\n"
    ++ "  -v, --verbose         Debug logging\n"

/-- A message of the program. -/
def complaint (message : String) : String :=
  "py2ts: error: " ++ message ++ "\n"

end Scribe.CommandLine
