import ManagedTransport.Address.Literal
import ManagedTransport.Setup

/-!
# The command line

    [-v] cookie check PATH
    [-v] cookie generate PATH
    [-v] setup client|server --methods a,b[,...]
    [-v] probe --ext-orport ADDR --cookie PATH --method NAME
               [--user-addr ADDR] [--timeout-ms MILLIS]
    --version

An option's value is the next argument, which must not look like an option, or
stands behind an equals sign.  After a bare `--` every argument is a plain
word.  The flag for verbosity may be given once on every level of commands.
-/

namespace ManagedTransport

open Text

/-- What the program is asked to do. -/
inductive Invocation where
  | version
  | cookieCheck (path : String)
  | cookieGenerate (path : String)
  | setup (role : Role) (methods : List String)
  | probe (extOrPort : Address) (cookie method : String) (userAddr : Address) (timeout : Nat)

namespace CommandLine

/-- What stands on one level: whether the verbose flag does, the values of
options, and the plain words, the last ones first. -/
structure Level where
  verbose : Bool
  values : List (String × String)
  words : List String

/-- A level on which nothing stands. -/
def Level.empty : Level := ⟨false, [], []⟩

/-- An argument as it is read. -/
inductive Arg where
  /-- A bare `--`. -/
  | plainFromHere
  /-- A long option, perhaps with its value. -/
  | long (name : String) (value : Option String)
  /-- Short flags in one argument. -/
  | short (flags : List Char)
  /-- A word. -/
  | word (text : String)

/-- How an argument is read. -/
def Arg.ofString (s : String) : Arg :=
  match s.toList with
  | ['-', '-'] => .plainFromHere
  | '-' :: '-' :: cs =>
    match cutFirst? '=' cs with
    | some (name, value) => .long (String.ofList name) (some (String.ofList value))
    | none => .long (String.ofList cs) none
  | '-' :: c :: cs => .short (c :: cs)
  | _ => .word s

/-- The value that an argument gives to the option before it. -/
def Arg.value? : Arg → Option String
  | word text => some text
  | _ => none

/-- Reads the verbose flag; it may not be read twice. -/
def Level.setVerbose (l : Level) : Option Level :=
  if l.verbose then none else some { l with verbose := true }

/-- Reads short flags, all of which must be the verbose one. -/
def Level.setFlags (l : Level) : List Char → Option Level
  | [] => some l
  | 'v' :: cs => l.setVerbose.bind (·.setFlags cs)
  | _ => none

/-- Reads a level that has these options and no further commands. -/
def readLevel (options : List String) : List String → Level → Option Level
  | [], l => some l
  | arg :: args, l =>
    match Arg.ofString arg with
    | .plainFromHere => some { l with words := args.reverse ++ l.words }
    | .word text => readLevel options args { l with words := text :: l.words }
    | .short flags => (l.setFlags flags).bind (readLevel options args)
    | .long "verbose" none => l.setVerbose.bind (readLevel options args)
    | .long name (some value) =>
      if options.contains name then
        readLevel options args { l with values := (name, value) :: l.values }
      else none
    | .long name none =>
      if options.contains name then
        match args with
        | [] => none
        | next :: args =>
          match (Arg.ofString next).value? with
          | some value => readLevel options args { l with values := (name, value) :: l.values }
          | none => none
      else none

/-- What stands before a command: flags, or the wish to be told the version,
where that is possible. -/
inductive Before where
  | command (name : String) (args : List String)
  | version

/-- Reads short flags before a command. -/
def flagsBefore (top : Bool) : List Char → Level → Option (Option Level)
  | [], l => some (some l)
  | 'v' :: cs, l => l.setVerbose.bind (flagsBefore top cs)
  | 'V' :: _, _ => if top then some none else none
  | _, _ => none

/-- Reads up to the command of a level; only the top level tells the version. -/
def readCommand (top : Bool) : List String → Level → Option Before
  | [], _ => none
  | arg :: args, l =>
    match Arg.ofString arg with
    | .plainFromHere => none
    | .word name => some (.command name args)
    | .short flags =>
      match flagsBefore top flags l with
      | some (some l) => readCommand top args l
      | some none => some .version
      | none => none
    | .long "verbose" none => l.setVerbose.bind (readCommand top args)
    | .long "version" none => if top then some .version else none
    | .long _ _ => none

/-- The one value of an option, if it has one; several are refused. -/
def Level.single (l : Level) (name : String) : Option (Option String) :=
  match l.values.filter (·.1 = name) with
  | [] => some none
  | [(_, value)] => some (some value)
  | _ => none

/-- The one value of an option that has to be there. -/
def Level.required (l : Level) (name : String) : Option String := (l.single name).join

/-- A path, which may not be empty. -/
def path? (s : String) : Option String := if s = "" then none else some s

/-- A number below two to the sixty-fourth, with an optional plus sign. -/
def number? (s : String) : Option Nat :=
  match s.toList with
  | '+' :: cs => decimalBelow? 18446744073709551616 cs
  | cs => decimalBelow? 18446744073709551616 cs

/-- A role by its name. -/
def role? : String → Option Role
  | "client" => some .client
  | "server" => some .server
  | _ => none

/-- The one path that a level without options holds. -/
def readPath (args : List String) : Option String := do
  let l ← readLevel [] args .empty
  match l.words with
  | [word] => path? word
  | _ => none

/-- The arguments of the cookie commands. -/
def readCookie (args : List String) : Option Invocation := do
  match ← readCommand false args .empty with
  | .command "check" args => return .cookieCheck (← readPath args)
  | .command "generate" args => return .cookieGenerate (← readPath args)
  | _ => none

/-- The arguments of the setup command. -/
def readSetup (args : List String) : Option Invocation := do
  let l ← readLevel ["methods"] args .empty
  match l.words, l.values.reverse with
  | _, [] => none
  | [word], values => return .setup (← role? word) (values.flatMap fun v => entries v.2)
  | _, _ => none

/-- The value of an option, or what stands for it where it is not given. -/
def Level.valueOr {α : Type} (l : Level) (name : String) (read : String → Option α)
    (default : α) : Option α := do
  match ← l.single name with
  | some value => read value
  | none => return default

/-- The client address that a probe announces where none is given. -/
def defaultUserAddr : Address := .v4 ⟨127, 0, 0, 1⟩ 0

/-- The arguments of the probe command. -/
def readProbe (args : List String) : Option Invocation := do
  let options := ["ext-orport", "cookie", "method", "user-addr", "timeout-ms"]
  let l ← readLevel options args .empty
  if l.words ≠ [] then none
  let extOrPort ← Address.literal? (← l.required "ext-orport").toList
  let cookie ← path? (← l.required "cookie")
  let method ← l.required "method"
  let userAddr ← l.valueOr "user-addr" (Address.literal? ·.toList) defaultUserAddr
  let timeout ← l.valueOr "timeout-ms" number? 5000
  return .probe extOrPort cookie method userAddr timeout

/-- What the arguments ask for; nothing if they make no sense. -/
def parse (args : List String) : Option Invocation := do
  match ← readCommand true args .empty with
  | .version => return .version
  | .command "cookie" args => readCookie args
  | .command "setup" args => readSetup args
  | .command "probe" args => readProbe args
  | .command _ _ => none

end CommandLine

end ManagedTransport
