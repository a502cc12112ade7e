import ResponseCache.CommandLine.Arguments

namespace ResponseCache.CommandLine

/-- What a setting is for. -/
def Setting.purpose : Setting → String
  | flushTimeout => "Flush barrier timeout in milliseconds (0 waits forever)"
  | maxStreamBytes => "Reject alternative streams larger than this many bytes"
  | logLevel => "Log level (trace, debug, info, warn, error)"
  | logJson => "Output logs as JSON"
  | printMetrics => "Print Prometheus metrics after the replay"
  | persist => "Persist through an in-memory backend so flush steps wait on the persistence barrier"

/-- The value of a setting that is given nowhere. -/
def Setting.standard? : Setting → Option String
  | flushTimeout => some "30000"
  | logLevel => some "info"
  | _ => none

/-- The name of the value: that of the option in capitals, with underscores for hyphens. -/
def Setting.valueName (s : Setting) : String :=
  s.option.map fun c => if c = '-' then '_' else c.toUpper

namespace Help

def width : Nat := 100

/-- Puts words on lines of at most `width` characters, `line` being the words of the line so far. A wider word has a line
of its own. -/
def fill (width : Nat) : List String → List String → List String
  | [], line => [" ".intercalate line]
  | word :: rest, line =>
    if !word.isEmpty && line.any (!·.isEmpty) && width < (" ".intercalate (line ++ [word])).length then
      " ".intercalate line :: fill width rest [word]
    else fill width rest (line ++ [word])

/-- The lines of a text, each filled by itself. -/
def paragraph (width : Nat) (text : String) : List String :=
  (text.splitOn "\n").flatMap fun line => fill width (line.splitOn " ") []

/-- How an option is written, with its purpose indented below it. -/
def optionLines (form purpose : String) : List String :=
  ("  " ++ form) :: (paragraph (width - 10) purpose).map ("          " ++ ·)

/-- A setting with its purpose, its value in the environment and its standard value. -/
def settingLines (env : Environment) (s : Setting) : List String :=
  let value := if s.isSwitch then "" else " <" ++ s.valueName ++ ">"
  let current := s.environmentName?.map fun name => " [env: " ++ name ++ "=" ++ (env.lookup name).getD "" ++ "]"
  let standard := s.standard?.map fun value => " [default: " ++ value ++ "]"
  optionLines ("    --" ++ s.option ++ value) (s.purpose ++ current.getD "" ++ standard.getD "")

def helpLines : List String := optionLines "-h, --help" "Print help"

/-- The page of the whole program. -/
def ofProgram (env : Environment) : List String :=
  paragraph width
      "EntryStor - HTTP response cache entry store with alternative data streams and identity tracking" ++
    ["", "Usage: entrystor [OPTIONS] <COMMAND>", "", "Commands:", "  replay  Replay a YAML scenario",
      "  help    Print this message or the help of the given subcommand(s)", "", "Options:"] ++
    Setting.everywhere.flatMap (settingLines env) ++ helpLines ++ optionLines "-V, --version" "Print version"

/-- The page of the command that replays. Its own settings stand between those that can be given everywhere. -/
def ofReplay (env : Environment) : List String :=
  ["Replay a YAML scenario", "", "Usage: entrystor replay [OPTIONS] <FILE>", "", "Arguments:", "  <FILE>  Scenario file",
      "", "Options:"] ++
    [Setting.printMetrics, .flushTimeout, .persist, .maxStreamBytes, .logLevel, .logJson].flatMap (settingLines env) ++
    helpLines

/-- The page of the command that shows the pages. -/
def ofHelp : List String :=
  ["Print this message or the help of the given subcommand(s)", "", "Usage: entrystor help [COMMAND]...", "", "Arguments:",
    "  [COMMAND]...  Print help for the subcommand(s)"]

/-- The lines of a page. -/
def lines (env : Environment) : HelpPage → List String
  | .program => ofProgram env
  | .replay => ofReplay env
  | .help => ofHelp

end Help
end ResponseCache.CommandLine
