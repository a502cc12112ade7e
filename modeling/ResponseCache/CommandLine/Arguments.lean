/-!
Arguments of the command line. Settings stand before the command or behind it, and the environment has values for those
that are not given. What is given behind the command counts more than what is given before it.
-/
namespace ResponseCache.CommandLine

inductive Setting
  | flushTimeout | maxStreamBytes | logLevel | logJson | printMetrics | persist
  deriving DecidableEq, Repr

namespace Setting

/-- The name of the option. -/
def option : Setting → String
  | flushTimeout => "flush-timeout-ms"
  | maxStreamBytes => "max-stream-bytes"
  | logLevel => "log-level"
  | logJson => "log-json"
  | printMetrics => "print-metrics"
  | persist => "persist"

/-- The name of the environment variable. -/
def environmentName? : Setting → Option String
  | flushTimeout => some "ENTRYSTOR_FLUSH_TIMEOUT_MS"
  | maxStreamBytes => some "ENTRYSTOR_MAX_STREAM_BYTES"
  | logLevel => some "ENTRYSTOR_LOG_LEVEL"
  | logJson => some "ENTRYSTOR_LOG_JSON"
  | printMetrics => none
  | persist => some "ENTRYSTOR_PERSIST"

/-- Settings that can stand before the command as well. -/
def everywhere : List Setting := [flushTimeout, maxStreamBytes, logLevel, logJson]

def all : List Setting := everywhere ++ [printMetrics, persist]

/-- The option is a switch, which takes no value. -/
def isSwitch : Setting → Bool
  | logJson | printMetrics | persist => true
  | _ => false

/-- The setting with that option, at a place before the command or behind it. -/
def find? (inCommand : Bool) (name : String) : Option Setting :=
  (if inCommand then all else everywhere).find? fun s => s.option = name

end Setting

/-- A number below 2^64 in decimal digits, maybe with a plus sign. -/
def number? (text : String) : Option Nat :=
  let ds := match text.toList with
    | '+' :: ds => ds
    | ds => ds
  let n := Nat.ofDigitChars 10 ds 0
  if !ds.isEmpty && ds.all Char.isDigit && n < UInt64.size then some n else none

def switch? (text : String) : Option Bool :=
  if text = "true" then some true else if text = "false" then some false else none

/-- Whether a setting can have that value. -/
def Setting.accepts (s : Setting) (value : String) : Bool :=
  match s with
  | flushTimeout | maxStreamBytes => (number? value).isSome
  | logLevel => true
  | logJson | printMetrics | persist => (switch? value).isSome

inductive UsageError
  | noCommand
  | unknownCommand (name : String)
  | unknownArgument (argument : String)
  | missingValue (setting : Setting)
  | unexpectedValue (setting : Setting)
  | repeated (setting : Setting)
  | invalidValue (setting : Setting) (value : String)
  | missingFile
  deriving DecidableEq, Repr

def UsageError.message : UsageError → String
  | noCommand => "a command is required"
  | unknownCommand name => "unrecognized command '" ++ name ++ "'"
  | unknownArgument argument => "unexpected argument '" ++ argument ++ "'"
  | missingValue setting => "a value is required for '--" ++ setting.option ++ "'"
  | unexpectedValue setting => "no value is allowed for '--" ++ setting.option ++ "'"
  | repeated setting => "the option '--" ++ setting.option ++ "' cannot be used multiple times"
  | invalidValue setting value => "invalid value '" ++ value ++ "' for '--" ++ setting.option ++ "'"
  | missingFile => "a scenario file is required"

/-- What is given on one side of the command. -/
structure Given where
  values : List (Setting × String) := []
  file : Option String := none
  deriving Repr

namespace Given

/-- Takes a value in, once for each setting. -/
def add (g : Given) (s : Setting) (value : String) : Except UsageError Given :=
  if (g.values.lookup s).isSome then .error (.repeated s)
  else if s.accepts value then .ok { g with values := (s, value) :: g.values }
  else .error (.invalidValue s value)

/-- Takes the name of the file in; there is only one, and it is not empty. -/
def addFile (g : Given) (name : String) : Except UsageError Given :=
  if name.isEmpty then .error .missingFile
  else if g.file.isSome then .error (.unknownArgument name)
  else .ok { g with file := some name }

end Given

/-- What help can be asked for. -/
inductive HelpPage
  | program | replay | help
  deriving DecidableEq, Repr

/-- What the arguments on one side of the command say: show the help or the version, or these values, with the command
and what stands behind it. -/
inductive Reading
  | help
  | version
  | values (given : Given) (command : Option (String × List String))

/-- An argument that is no value: it starts with a hyphen and is more than that. -/
def isOption (argument : String) : Bool :=
  match argument.toList with
  | '-' :: _ :: _ => true
  | _ => false

/-- The name of a long option, and the value behind the equals sign if there is one. -/
def splitOption (argument : String) : String × Option String :=
  let cs := argument.toList.drop 2
  let name := cs.takeWhile (· != '=')
  (String.ofList name, if name.length < cs.length then some (String.ofList (cs.drop (name.length + 1))) else none)

/-- Takes all arguments behind a double hyphen in as files. -/
def addFiles (inCommand : Bool) : List String → Given → Except UsageError Reading
  | [], g => .ok (.values g none)
  | name :: rest, g => if inCommand then (g.addFile name).bind (addFiles inCommand rest) else .error (.unknownArgument name)

/-- Reads the arguments on one side of the command, `pending` being the option that waits for its value. -/
def read (inCommand : Bool) : List String → Option Setting → Given → Except UsageError Reading
  | [], some s, _ => .error (.missingValue s)
  | [], none, g => .ok (.values g none)
  | argument :: rest, some s, g =>
    if isOption argument then .error (.missingValue s) else (g.add s argument).bind (read inCommand rest none)
  | argument :: rest, none, g =>
    if argument = "--" then addFiles inCommand rest g
    else if !isOption argument then
      if inCommand then (g.addFile argument).bind (read inCommand rest none)
      else .ok (.values g (some (argument, rest)))
    else if !argument.startsWith "--" then
      match (argument.toList.drop 1).head? with
      | some 'h' => .ok .help
      | some 'V' => if inCommand then .error (.unknownArgument argument) else .ok .version
      | _ => .error (.unknownArgument argument)
    else
      let (name, value) := splitOption argument
      match Setting.find? inCommand name, value with
      | some s, none => if s.isSwitch then (g.add s "true").bind (read inCommand rest none) else read inCommand rest (some s) g
      | some s, some value => if s.isSwitch then .error (.unexpectedValue s) else (g.add s value).bind (read inCommand rest none)
      | none, none =>
        if name = "help" then .ok .help
        else if name = "version" && !inCommand then .ok .version
        else .error (.unknownArgument argument)
      | none, some _ => .error (.unknownArgument argument)

abbrev Environment := List (String × String)

/-- The value of a setting, the sides of the command at which it can stand being given with the one behind it first. The
environment is not looked at if every side has a value; else its value, which counts least, has to be acceptable. -/
def effective (env : Environment) (sides : List Given) (s : Setting) : Except UsageError (Option String) :=
  let given := sides.filterMap fun g => g.values.lookup s
  if given.length = sides.length then .ok given.head?
  else match s.environmentName?.bind fun name => env.lookup name with
    | some value => if s.accepts value then .ok (given.head? <|> some value) else .error (.invalidValue s value)
    | none => .ok given.head?

structure Options where
  file : String
  printMetrics : Bool
  persist : Bool
  /-- How many milliseconds a flush waits; zero stands for ever. -/
  flushTimeout : Nat
  maxStreamBytes : Option Nat
  logLevel : String
  logJson : Bool
  deriving DecidableEq, Repr

/-- What the arguments ask for. -/
inductive Request
  | help (page : HelpPage)
  | version
  | replay (options : Options)
  deriving Repr

/-- The options of a replay, from what stands before the command and behind it. -/
def optionsOf (env : Environment) (before behind : Given) : Except UsageError Options := do
  let both := [behind, before]
  let some file := behind.file | .error .missingFile
  let flushTimeout ← effective env both .flushTimeout
  let maxStreamBytes ← effective env both .maxStreamBytes
  let logLevel ← effective env both .logLevel
  let logJson ← effective env both .logJson
  let printMetrics ← effective env [behind] .printMetrics
  let persist ← effective env [behind] .persist
  return {
    file
    printMetrics := (printMetrics.bind switch?).getD false
    persist := (persist.bind switch?).getD false
    flushTimeout := (flushTimeout.bind number?).getD 30000
    maxStreamBytes := maxStreamBytes.bind number?
    logLevel := logLevel.getD "info"
    logJson := (logJson.bind switch?).getD false }

/-- Help can be asked for by a command of its own, for one of the commands too. -/
def helpOn : List String → Except UsageError HelpPage
  | [] => .ok .program
  | [name] => if name = "replay" then .ok .replay else if name = "help" then .ok .help else .error (.unknownCommand name)
  | _ :: name :: _ => .error (.unknownCommand name)

def parse (env : Environment) (arguments : List String) : Except UsageError Request := do
  match ← read false arguments none {} with
  | .help => return .help .program
  | .version => return .version
  | .values _ none => .error .noCommand
  | .values before (some (name, rest)) =>
    if name = "help" then return .help (← helpOn rest)
    else if name = "replay" then
      match ← read true rest none {} with
      | .values behind _ => return .replay (← optionsOf env before behind)
      | _ => return .help .replay
    else .error (.unknownCommand name)

end ResponseCache.CommandLine
