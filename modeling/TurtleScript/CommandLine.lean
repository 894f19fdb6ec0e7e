-- The command line: what the arguments ask for. Options may stand before and
-- after the subcommand; `--` ends them. Of two faults the first one counts.
import TurtleScript.Sharing.Invitation

namespace TurtleScript

/-! ## What can be asked for -/

/-- What the program is to do. -/
inductive Order where
  | shell (load : Option String)
  | run (file : String) (asJson : Bool)
  | demo (name : Option String) (asJson : Bool)
  | watch (url : String)
  deriving DecidableEq, Repr

/-- What the program is to do, and with which relay. -/
structure Invocation where
  config : Config
  order : Order
  deriving DecidableEq, Repr

/-- Why nothing is done. Asking for help or for the version also ends the reading. -/
inductive UsageFault where
  | nothingGiven
  | missingSubcommand
  | invalidSubcommand
  | unknownArgument
  | missingArgument
  | missingValue
  | surplusValue
  | givenTwice
  | helpWanted
  | versionWanted
  deriving DecidableEq, Repr

/-- How the program is called. -/
def usage : String :=
  "Usage: logo [OPTIONS] <COMMAND>\n\n" ++
  "Commands:\n" ++
  "  shell [--load <LOAD>]     an interactive prompt\n" ++
  "  run [--json] <FILE>       runs a script and prints its drawing\n" ++
  "  demo [--json] [NAME]      runs a demo, or lists all demos\n" ++
  "  watch <URL>               follows a shared script\n\n" ++
  "Options:\n" ++
  "  --relay <RELAY>           the relay to share and watch with\n" ++
  "  --share-base <BASE>       what sharing links start with\n"

def UsageFault.text : UsageFault → String
  | nothingGiven | helpWanted => usage
  | versionWanted => "logo 0.1.0\n"
  | missingSubcommand => "error: a command is required\n\n" ++ usage
  | invalidSubcommand => "error: unrecognized command\n\n" ++ usage
  | unknownArgument => "error: unexpected argument\n\n" ++ usage
  | missingArgument => "error: a required argument is missing\n\n" ++ usage
  | missingValue => "error: an option lacks its value\n\n" ++ usage
  | surplusValue => "error: an option takes no value\n\n" ++ usage
  | givenTwice => "error: an option was given twice\n\n" ++ usage

/-- The user asked for it, so it is no error. -/
def UsageFault.isRequest : UsageFault → Bool
  | helpWanted | versionWanted => true
  | _ => false

/-! ## Options -/

/-- The options of the program and its subcommands. -/
inductive Switch where
  | relay
  | shareBase
  | load
  | json
  | help
  | version
  deriving DecidableEq, Repr

/-- The name after two dashes. -/
def Switch.long : Switch → String
  | relay => "relay"
  | shareBase => "share-base"
  | load => "load"
  | json => "json"
  | help => "help"
  | version => "version"

/-- The letter after one dash. -/
def Switch.short? : Switch → Option Char
  | load => some 'l'
  | json => some 'j'
  | help => some 'h'
  | version => some 'V'
  | relay | shareBase => none

/-- The option is followed by a value. -/
def Switch.takesValue : Switch → Bool
  | relay | shareBase | load => true
  | json | help | version => false

/-- Where an argument stands: before the subcommand, or after one. -/
inductive Level where
  | program
  | shell
  | run
  | demo
  | watch
  deriving DecidableEq, Repr

namespace Level

/-- The options that are known at a level. -/
def switches : Level → List Switch
  | program => [.relay, .shareBase, .help, .version]
  | shell => [.load, .relay, .shareBase, .help]
  | run | demo => [.json, .relay, .shareBase, .help]
  | watch => [.relay, .shareBase, .help]

/-- A word can be given at this level. -/
def takesWord : Level → Bool
  | program | shell => false
  | run | demo | watch => true

/-- The option of a name. -/
def long? (l : Level) (name : String) : Option Switch := l.switches.find? (·.long = name)

/-- The option of a letter. -/
def short? (l : Level) (c : Char) : Option Switch := l.switches.find? (·.short? = some c)

/-- The subcommand of a name. -/
def named? (name : String) : Option Level :=
  match name with
  | "shell" => some shell
  | "run" => some run
  | "demo" => some demo
  | "watch" => some watch
  | _ => none

end Level

/-! ## Reading arguments -/

/-- What was read at a level: options with their values, an option whose value has not been
taken over yet or is still to come, a word, and whether only words may follow. -/
structure Reading where
  given : List (Switch × String)
  pending : Option (Switch × Option String)
  word : Option String
  onlyWords : Bool

namespace Reading

def start : Reading := ⟨[], none, none, false⟩

/-- The value given for an option. -/
def value? (r : Reading) (s : Switch) : Option String :=
  (r.given.find? (·.1 = s)).map (·.2)

/-- Takes over an option; each may be given once. -/
def put (r : Reading) (s : Switch) (value : String) : Except UsageFault Reading :=
  if (r.value? s).isSome then .error .givenTwice
  else .ok { r with given := (s, value) :: r.given }

/-- Takes over the option that is pending. -/
def resolve (r : Reading) : Except UsageFault Reading :=
  match r.pending with
  | none => .ok r
  | some (_, none) => .error .missingValue
  | some (s, some value) => { r with pending := none }.put s value

/-- The value of an option is to come. -/
def awaitsValue (r : Reading) : Bool :=
  match r.pending with
  | some (_, none) => !r.onlyWords
  | _ => false

/-- An option without a value. -/
def take (r : Reading) (s : Switch) : Except UsageFault Reading := do
  let r ← r.resolve
  match s with
  | .help => .error .helpWanted
  | .version => .error .versionWanted
  | _ => r.put s ""

/-- An option with a value, or one whose value is the next argument. -/
def takeValue (r : Reading) (s : Switch) (value : Option String) : Except UsageFault Reading := do
  let r ← r.resolve
  match value with
  | some value => r.put s value
  | none => .ok { r with pending := some (s, none) }

/-- An option by its name, with the value after an equals sign. -/
def takeLong (l : Level) (r : Reading) (name : String) (value : Option String) :
    Except UsageFault Reading :=
  match l.long? name with
  | none => .error .unknownArgument
  | some s =>
    if s.takesValue then r.takeValue s value
    else if value.isSome then .error .surplusValue
    else r.take s

/-- Options by their letters. What follows the letter of an option with a value is that
value, an equals sign in front left out. -/
def takeShorts (l : Level) (r : Reading) : List Char → Except UsageFault Reading
  | [] => .ok r
  | c :: cs =>
    match l.short? c with
    | none => .error .unknownArgument
    | some s =>
      if s.takesValue then
        r.takeValue s (match cs with
          | [] => none
          | '=' :: value => some (String.ofList value)
          | value => some (String.ofList value))
      else do takeShorts l (← r.take s) cs

/-- A word, where one can be given. -/
def takeWord (l : Level) (r : Reading) (arg : String) : Except UsageFault Reading :=
  if l.takesWord ∧ r.word = none then r.resolve.map fun r => { r with word := some arg }
  else if l = .program then
    .error (if r.onlyWords ∧ ((Level.named? arg).isSome ∨ arg = "help") then .unknownArgument
      else .invalidSubcommand)
  else .error .unknownArgument

def takeArgument (l : Level) (r : Reading) (arg : String) : Except UsageFault Reading :=
  if r.onlyWords then r.takeWord l arg
  else match arg.toList with
    | ['-', '-'] => .ok { r with onlyWords := true }
    | '-' :: '-' :: cs =>
      match splitFirst '=' cs with
      | some (name, value) => r.takeLong l (String.ofList name) (some (String.ofList value))
      | none => r.takeLong l (String.ofList cs) none
    | '-' :: c :: cs => r.takeShorts l (c :: cs)
    | _ =>
      match r.pending with
      | some (s, none) => .ok { r with pending := some (s, some arg) }
      | _ => r.takeWord l arg

end Reading

/-! ## The whole line -/

/-- Asking for help about a subcommand by words. -/
def helpFault : List String → UsageFault
  | [] => .helpWanted
  | [name] => if (Level.named? name).isSome ∨ name = "help" then .helpWanted else .invalidSubcommand
  | _ => .invalidSubcommand

/-- The arguments up to the subcommand, and what follows it. -/
def readProgram (r : Reading) :
    List String → Except UsageFault (Reading × Option (Level × List String))
  | [] => .ok (r, none)
  | arg :: args =>
    if r.onlyWords ∨ r.awaitsValue then do readProgram (← r.takeArgument .program arg) args
    else match Level.named? arg with
      | some l => .ok (r, some (l, args))
      | none =>
        if arg = "help" then .error (helpFault args)
        else do readProgram (← r.takeArgument .program arg) args

/-- What a subcommand is to do with what was read after it. -/
def orderOf (l : Level) (r : Reading) : Except UsageFault Order :=
  let asJson := (r.value? .json).isSome
  match l, r.word with
  | .shell, _ => .ok (.shell (r.value? .load))
  | .run, some file => .ok (.run file asJson)
  | .demo, name => .ok (.demo name asJson)
  | .watch, some url => .ok (.watch url)
  | .program, _ => .error .missingSubcommand
  | .run, none | .watch, none => .error .missingArgument

/-- The relay options; those after the subcommand count more. -/
def configOf (program sub : Reading) : Config :=
  let value (s : Switch) (default : String) := ((sub.value? s).or (program.value? s)).getD default
  ⟨value .relay Config.defaultRelay, value .shareBase Config.defaultShareBase⟩

/-- What the arguments after the program's name ask for. -/
def readArguments (args : List String) : Except UsageFault Invocation := do
  match ← readProgram .start args with
  | (program, none) =>
    let program ← program.resolve
    if program.given.isEmpty then .error .nothingGiven else .error .missingSubcommand
  | (program, some (l, rest)) =>
    let sub ← rest.foldlM (Reading.takeArgument l) .start
    let sub ← sub.resolve
    let order ← orderOf l sub
    let program ← program.resolve
    return ⟨configOf program sub, order⟩

end TurtleScript
