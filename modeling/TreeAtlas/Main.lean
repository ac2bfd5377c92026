import TreeAtlas.Command.Run
import TreeAtlas.Image.Png

/-!
# The program

Reads what a plan needs, and carries the plan out. Pictures have the size of the drawing and no
pixels set.
-/

namespace TreeAtlas.Program

open Command

/-- The number of an error, which some calls report with its sign turned. -/
def errorNumber (code : UInt32) : UInt32 :=
  if code < 0x80000000 then code else 0 - code

def fileError : IO.Error → FileError
  | .noFileOrDirectory _ _ _ => .missing
  | .inappropriateType _ code _ => if errorNumber code = 20 then .notDirectory else .directory
  | e@(.invalidArgument _ code _) =>
    if errorNumber code = 36 then .nameTooLong else .other (toString e)
  | e => .other (toString e)

/-- The outcome of an action on a file. -/
def onFile {α : Type} (act : IO α) : IO (Except FileError α) := do
  try
    return .ok (← act)
  catch e =>
    return .error (fileError e)

def readText (path : String) : IO (Except FileError String) :=
  onFile (IO.FS.readFile path)

def readInput (path : Option String) : IO (Except FileError String) := do
  match path.filter fun path => !(Path.ofText path).isStandardInput with
  | none => onFile (← IO.getStdin).readToEnd
  | some path => readText path

def readSources (settings : Settings) : IO Sources := do
  let config ← settings.configFile.mapM readText
  let input ← readInput settings.input
  let tokens ← settings.tokens.mapM readText
  return { config, input, tokens }

def save (path : String) : Contents → IO Unit
  | .text s => IO.FS.writeFile path s
  | .image width height => IO.FS.writeBinFile path (Png.transparent width height)

/-- Carries out steps up to the first that cannot be, and tells why it cannot. -/
def perform (verbosity : Nat) : List Command.Step → IO (Except FileError Unit)
  | [] => return .ok ()
  | .report line :: steps => do
    if shown verbosity line.severity then IO.eprint (logText line)
    perform verbosity steps
  | .print text :: steps => do
    IO.print text
    perform verbosity steps
  | .save path contents :: steps => do
    match ← onFile (save path contents) with
    | .ok () => perform verbosity steps
    | .error e => return .error e

def fail (message : String) : IO UInt32 := do
  IO.eprint (errorText message)
  return 1

def execute (settings : Settings) : IO UInt32 := do
  let p := plan .builtIn settings (← readSources settings)
  match ← perform settings.verbosity p.steps, p.result with
  | .error e, _ => fail e.message
  | .ok (), .error message => fail message
  | .ok (), .ok () => return 0

end TreeAtlas.Program

def main (args : List String) : IO UInt32 := do
  match TreeAtlas.Command.Settings.parse args with
  | .ok settings => TreeAtlas.Program.execute settings
  | .error .help =>
    IO.print TreeAtlas.Command.helpText
    return 0
  | .error .version =>
    IO.print TreeAtlas.Command.versionText
    return 0
  | .error .misuse =>
    IO.eprint TreeAtlas.Command.misuseText
    return 2
