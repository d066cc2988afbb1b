import SqlMapper.CommandLine.Request
import SqlMapper.Text

/-!
# Arguments

The arguments of the command line, read from left to right. Options stand before or behind the name
of the command; each is given at most once at either place. A value is joined to its option or
follows it, and a value that follows does not begin with a hyphen, except for the hyphen alone.
Behind two hyphens there are no more options.

## Main definitions

* `Opt`: the options.
* `scan`: the options and values among arguments.
* `Request.parse?`: the request that arguments make.
-/

namespace SqlMapper.CommandLine

/-- The options. -/
inductive Opt where
  | config
  | color
  | noColor
  | version
  | line
  | character
  | format
  | sql
  | parameters
  deriving Repr, DecidableEq

namespace Opt

/-- The name of an option behind two hyphens. -/
def long : Opt → String
  | config => "config"
  | color => "color"
  | noColor => "no-color"
  | version => "version"
  | line => "line"
  | character => "character"
  | format => "format"
  | sql => "sql"
  | parameters => "parameters"

/-- The letter of an option behind one hyphen, if it has one. -/
def short? : Opt → Option Char
  | config => some 'c'
  | version => some 'V'
  | line => some 'l'
  | character => some 'C'
  | format => some 'f'
  | _ => none

/-- Whether an option has a value. -/
def takesValue : Opt → Bool
  | color | noColor | version => false
  | _ => true

/-- The options that may stand behind the name of any command. -/
def shared : List Opt :=
  [config, color, noColor]

end Opt

/-- An option as given, with its value if it has one. -/
structure Given where
  opt : Opt
  value : String
  deriving Repr, DecidableEq

/-- What an argument that begins with a hyphen says. -/
inductive Reading where
  /-- An option, complete. -/
  | given (g : Given)
  /-- An option whose value is the next argument. -/
  | awaits (opt : Opt)
  deriving Repr, DecidableEq

/-- Whether an argument is an option rather than a value. -/
def looksLikeOption (arg : String) : Bool :=
  Text.startsWith arg "-" && arg ≠ "-"

/-- The option that is named behind two hyphens. -/
def readLong? (known : List Opt) (body : List Char) : Option Reading := do
  let name := body.takeWhile (· != '=')
  let opt ← known.find? fun o => o.long.toList = name
  match body.dropWhile (· != '='), opt.takesValue with
  | _ :: value, true => some (.given ⟨opt, String.ofList value⟩)
  | [], true => some (.awaits opt)
  | _ :: _, false => none
  | [], false => some (.given ⟨opt, ""⟩)

/-- The option whose letter stands behind one hyphen. What follows the letter is the value. -/
def readShort? (known : List Opt) (letter : Char) (rest : List Char) : Option Reading := do
  let opt ← known.find? fun o => o.short? = some letter
  match rest, opt.takesValue with
  | [], true => some (.awaits opt)
  | '=' :: value, true => some (.given ⟨opt, String.ofList value⟩)
  | value, true => some (.given ⟨opt, String.ofList value⟩)
  | _, false => some (.given ⟨opt, ""⟩)

/-- The option that an argument gives. -/
def readOption? (known : List Opt) (arg : String) : Option Reading :=
  match arg.toList with
  | '-' :: '-' :: body => readLong? known body
  | '-' :: letter :: rest => readShort? known letter rest
  | _ => none

/-- The options and the other values among the arguments of a command. `awaiting` is an option
whose value comes next. -/
def scan (known : List Opt) : Option Opt → List String → Option (List Given × List String)
  | none, [] => some ([], [])
  | some _, [] => none
  | some opt, arg :: args =>
    if looksLikeOption arg then none
    else (scan known none args).map fun r => (⟨opt, arg⟩ :: r.1, r.2)
  | none, arg :: args =>
    if arg = "--" then some ([], args)
    else if looksLikeOption arg then
      match readOption? known arg with
      | none => none
      | some (.awaits opt) => scan known (some opt) args
      | some (.given g) => (scan known none args).map fun r => (g :: r.1, r.2)
    else (scan known none args).map fun r => (r.1, arg :: r.2)

/-- The value given for an option. -/
def value? (given : List Given) (opt : Opt) : Option String :=
  (given.find? fun g => g.opt = opt).map (·.value)

/-- Whether an option is given. -/
def has (given : List Given) (opt : Opt) : Bool :=
  given.any fun g => g.opt = opt

/-- Whether the options are given once each, and the file of the settings has a name. -/
def wellGiven (given : List Given) : Bool :=
  (given.map (·.opt)).Nodup && value? given .config ≠ some ""

/-- Whether colors are not both asked for and refused. -/
def colorsAgree (given : List Given) : Bool :=
  !(has given .color && has given .noColor)

/-- A number from one to the largest of 32 bits, with or without a plus sign. -/
def count? (text : String) : Option Nat :=
  let ds := match text.toList with
    | '+' :: ds => ds
    | ds => ds
  if ds.isEmpty || !ds.all Char.isDigit then none
  else
    let n := ds.foldl (fun n c => n * 10 + (c.toNat - '0'.toNat)) 0
    if 1 ≤ n && n < Nat.pow 2 32 then some n else none

/-- The output format of this name. -/
def OutputFormat.ofName? : String → Option OutputFormat
  | "human" => some .human
  | "json" => some .json
  | _ => none

/-- The output format given, which is for people if there is none. -/
def outputFormat? (given : List Given) : Option OutputFormat :=
  match value? given .format with
  | some name => OutputFormat.ofName? name
  | none => some .human

/-- A file name, which is not empty. -/
def fileName? (text : String) : Option String :=
  if text = "" then none else some text

/-- The names of the commands, with the options of each. -/
def ownOptions? : String → Option (List Opt)
  | "complete" => some [.line, .character, .format]
  | "check" => some [.format]
  | "format" => some [.sql, .parameters]
  | "resolve" => some []
  | _ => none

/-- The command of this name, with these options and values. -/
def command? (name : String) (given : List Given) (values : List String) : Option Command :=
  match name, values with
  | "complete", [file] => do
    let file ← fileName? file
    let line ← (value? given .line).bind count?
    let character ← (value? given .character).bind count?
    some (.complete file line character (← outputFormat? given))
  | "check", [] => (outputFormat? given).map .check
  | "format", [] => do some (.substitute (← value? given .sql) (← value? given .parameters))
  | "resolve", [file, id] => do some (.resolve (← fileName? file) id)
  | _, _ => none

/-- The request of a command, its options and those before it. An option behind the name of the
command counts more than one before it. -/
def commandRequest? (before : List Given) (name : String) (args : List String) : Option Request := do
  let own ← ownOptions? name
  let (given, values) ← scan (Opt.shared ++ own) none args
  let command ← command? name given values
  if wellGiven before && colorsAgree before && wellGiven given && colorsAgree given then
    let all := given ++ before
    some (.command (value? all .config) ⟨has all .color, has all .noColor⟩ command)
  else none

/-- The request of arguments of which those before, `before`, have been read. The version is shown
as soon as it is asked for. -/
def request? (before : List Given) : Option Opt → List String → Option Request
  | _, [] => none
  | some opt, arg :: args =>
    if looksLikeOption arg then none else request? (before ++ [⟨opt, arg⟩]) none args
  | none, arg :: args =>
    if looksLikeOption arg then
      match readOption? (.version :: Opt.shared) arg with
      | none => none
      | some (.awaits opt) => request? before (some opt) args
      | some (.given g) =>
        if g.opt = .version then if wellGiven before then some .version else none
        else request? (before ++ [g]) none args
    else commandRequest? before arg args

/-- The request that arguments make. -/
def Request.parse? (args : List String) : Option Request :=
  request? [] none args

end SqlMapper.CommandLine
