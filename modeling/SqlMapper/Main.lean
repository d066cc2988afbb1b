import SqlMapper.CommandLine.Arguments
import SqlMapper.CommandLine.Run

/-!
# The program

Reads the arguments, carries out the request and writes what comes of it.
-/

namespace SqlMapper.CommandLine

/-- Whether a path leads to something of a type. -/
def leadsTo (type : IO.FS.FileType) (path : String) : IO Bool := do
  try
    let found ← (← IO.FS.realPath path).metadata
    pure (found.type == type)
  catch _ => pure false

/-- The names in a directory, in the order of their bytes. -/
def directoryNames (path : String) : IO (List String) := do
  try
    let found ← (← IO.FS.realPath path).readDir
    pure ((found.toList.map (·.fileName)).mergeSort Text.le)
  catch _ => pure []

/-- Why a file cannot be read. -/
def readError : IO.Error → ReadError
  | .noFileOrDirectory .. => .notFound
  | e => .other (toString e)

/-- The text of a file. -/
def readText (path : String) : IO (Except ReadError String) := do
  if ← leadsTo .dir path then return .error .isDirectory
  try
    let bytes ← IO.FS.readBinFile path
    match String.fromUTF8? bytes with
    | some text => pure (.ok text)
    | none => pure (.error .invalidText)
  catch e => pure (.error (readError e))

/-- The files of the system. -/
def systemFiles : FileAccess IO where
  isFile := leadsTo .file
  isDirectory := leadsTo .dir
  names := directoryNames
  read := readText

/-- Milliseconds as seconds with two places. -/
def renderSeconds (ms : Nat) : String :=
  let hundredths := (ms + 5) / 10
  let rest := hundredths % 100
  toString (hundredths / 100) ++ "." ++ (if rest < 10 then "0" else "") ++ toString rest

/-- What people are told about arguments that make no request. -/
def usage : String :=
  unlines ["Usage: mapper [-c FILE] [--color | --no-color] COMMAND",
    "",
    "  complete FILE -l LINE -C CHARACTER [-f human|json]",
    "  check [-f human|json]",
    "  format --sql TEMPLATE --parameters LINE",
    "  resolve FILE ID"]

/-- Where the program runs. -/
def systemSurroundings : IO (Surroundings IO) := do
  let start ← IO.monoMsNow
  let cwd ← IO.currentDir
  let colors : ColorSurroundings :=
    ⟨← IO.getEnv "NO_COLOR", ← IO.getEnv "CLICOLOR", ← IO.getEnv "CLICOLOR_FORCE",
      ← (← IO.getStdout).isTty⟩
  let elapsed : IO String := do pure (renderSeconds ((← IO.monoMsNow) - start))
  pure ⟨systemFiles, cwd.toString, colors, elapsed⟩

end SqlMapper.CommandLine

/-- Carries out what the arguments ask for. -/
def main (args : List String) : IO UInt32 := do
  match SqlMapper.CommandLine.Request.parse? args with
  | none =>
    IO.eprint SqlMapper.CommandLine.usage
    pure 2
  | some request =>
    let outcome ← request.run (← SqlMapper.CommandLine.systemSurroundings)
    IO.print outcome.out
    IO.eprint outcome.err
    pure outcome.code.number.toUInt32
