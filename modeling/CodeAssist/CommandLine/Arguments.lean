import CodeAssist.Interpreter
import CodeAssist.Settings

namespace CodeAssist.CommandLine

/-! The words of a command line. A command has options, each with a value, and perhaps words of its
own or commands below it. An option of every command may stand at any level, and the innermost
one counts. -/

/-- A decimal number with at most one sign before it, below `bound`. -/
def isSignedBelow (bound : Nat) (s : String) : Bool :=
  match s.toList with
  | '-' :: digits => !digits.isEmpty && digits.all (· == '0')
  | chars => (Text.readBelow? bound chars).isSome

def isUnsignedBelow (bound : Nat) (s : String) : Bool := (Text.readBelow? bound s.toList).isSome

inductive ValueKind where
  | text
  | path
  | kind
  | signed (bound : Nat)
  | unsigned (bound : Nat)
deriving DecidableEq, Repr

def ValueKind.accepts : ValueKind → String → Bool
  | .text, _ => true
  | .path, s => s ≠ ""
  | .kind, s => (Kind.read s).isOk
  | .signed bound, s => isSignedBelow bound s
  | .unsigned bound, s => isUnsignedBelow bound s

/-- A command: its options by name, how many words of its own it takes, and the commands below
it. -/
structure Grammar where
  options : List (String × ValueKind)
  words : Nat := 0
  commands : List String := []
  hasVersion : Bool := false
deriving Repr

def commonOptions : List (String × ValueKind) :=
  [("config", .path), ("host", .text), ("port", .signed Text.bound16), ("log-level", .text),
    ("log-file", .path)]

def serveOptions : List (String × ValueKind) :=
  [("interpreter", .text), ("kind", .kind), ("root", .path),
    ("tool-timeout-ms", .unsigned Text.bound64), ("max-workers", .unsigned Text.bound64),
    ("line-length", .signed Text.bound32)]

def grammar : List String → Grammar
  | [] =>
      { options := commonOptions, hasVersion := true
        commands := ["serve", "ping", "shutdown", "request", "config", "help"] }
  | ["serve"] => { options := commonOptions ++ serveOptions }
  | ["request"] => { options := commonOptions ++ [("params", .text)], words := 1 }
  | ["config"] => { options := commonOptions, commands := ["init", "help"] }
  | ["config", "init"] => { options := commonOptions ++ [("path", .path)] }
  | _ => { options := commonOptions }

/-- What has been read at one level. `waiting` is an option whose value comes next, and `verbatim`
says that all that follows are words. -/
structure Level where
  given : List (String × String) := []
  words : List String := []
  waiting : Option String := none
  verbatim : Bool := false
deriving Repr

inductive Reading where
  | next (level : Level)
  | descend (level : Level) (command : String)
  | version
  | help
  | helpOn
  | misuse
deriving Repr

namespace Level

def set (l : Level) (g : Grammar) (name value : String) : Reading :=
  match g.options.lookup name with
  | some expected =>
      if expected.accepts value && (l.given.lookup name).isNone then
        .next { l with given := (name, value) :: l.given, waiting := none }
      else .misuse
  | none => .misuse

def addWord (l : Level) (g : Grammar) (word : String) : Reading :=
  if l.words.length < g.words then .next { l with words := l.words ++ [word] } else .misuse

def readLong (l : Level) (g : Grammar) (name : List Char) : Reading :=
  match name.dropWhile (· ≠ '=') with
  | _ :: value => l.set g (String.ofList (name.takeWhile (· ≠ '='))) (String.ofList value)
  | [] =>
      let name := String.ofList name
      if name = "help" then .help
      else if name = "version" && g.hasVersion then .version
      else if (g.options.lookup name).isSome then .next { l with waiting := some name }
      else .misuse

def readShort (g : Grammar) : List Char → Reading
  | 'h' :: _ => .help
  | 'V' :: _ => if g.hasVersion then .version else .misuse
  | _ => .misuse

def readWord (l : Level) (g : Grammar) (word : String) : Reading :=
  if l.verbatim then l.addWord g word
  else match l.waiting, word.toList with
    | some _, '-' :: _ :: _ => .misuse
    | some name, _ => l.set g name word
    | none, ['-', '-'] => .next { l with verbatim := true }
    | none, '-' :: '-' :: name => l.readLong g name
    | none, '-' :: c :: rest => readShort g (c :: rest)
    | none, _ =>
        if g.commands.contains word then
          if word = "help" then .helpOn else .descend l word
        else l.addWord g word

end Level

/-- What a command line says: a command with the options given at each level, the innermost first,
and its own words; or that it cannot be understood. -/
inductive Parsed where
  | command (names : List String) (given : List (String × String)) (words : List String)
  | version
  | help
  | misuse
deriving DecidableEq, Repr

def leadsOn (names : List String) : List String → Bool
  | [] => true
  | word :: rest => (grammar names).commands.contains word && leadsOn (names ++ [word]) rest

def readWords (names : List String) (outer : List (String × String)) (l : Level) :
    List String → Parsed
  | [] =>
      let g := grammar names
      if l.waiting.isSome || !g.commands.isEmpty || l.words.length ≠ g.words then .misuse
      else .command names (l.given ++ outer) l.words
  | word :: rest =>
      match l.readWord (grammar names) word with
      | .next l => readWords names outer l rest
      | .descend l command => readWords (names ++ [command]) (l.given ++ outer) {} rest
      | .version => .version
      | .help => .help
      | .helpOn => if leadsOn names rest then .help else .misuse
      | .misuse => .misuse

def parse (args : List String) : Parsed := readWords [] [] {} args

end CodeAssist.CommandLine
