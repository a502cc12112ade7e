import ResponseCache.CommandLine

open ResponseCache

namespace ResponseCache.Main

/-- The variables of the environment that settings are taken from. -/
def readEnvironment : IO CommandLine.Environment := do
  let names := CommandLine.Setting.all.filterMap (·.environmentName?)
  let values ← names.mapM fun name => return (name, ← IO.getEnv name)
  return values.filterMap fun (name, value) => value.map fun v => (name, v)

/-- The number of a system error, which may come with the opposite sign. -/
def errorNumber (code : UInt32) : UInt32 := if code < 0x80000000 then code else 0 - code

/-- Why a file could not be read. -/
def fileError : IO.Error → FileError
  | .noFileOrDirectory .. => .missing
  | .permissionDenied .. => .denied
  | .inappropriateType _ code _ => if errorNumber code = 21 then .isDirectory else .notDirectory
  | e@(.invalidArgument _ code _) => if errorNumber code = 36 then .nameTooLong else .other (toString e)
  | e => .other (toString e)

def readFile (name : String) : IO Replayer.FileContent := do
  try
    let bytes ← IO.FS.readBinFile name
    return .ok bytes.toList
  catch e => return .error (fileError e)

/-- Nanoseconds since the start of 1970 at which a replay starts on its own clock. -/
def epoch : Nat := 1767225600000000000

def run (arguments : List String) : IO CommandLine.Result := do
  let environment ← readEnvironment
  match CommandLine.parse environment arguments with
  | .error e => return CommandLine.usage e
  | .ok (.help page) => return CommandLine.help environment page
  | .ok .version => return CommandLine.version
  | .ok (.replay options) => return CommandLine.replay options (← readFile options.file) epoch

end ResponseCache.Main

def main (arguments : List String) : IO UInt32 := do
  let result ← ResponseCache.Main.run arguments
  result.output.forM fun line => IO.println line
  result.errors.forM fun line => IO.eprintln line
  return UInt32.ofNat result.code
