import ComicCatalog.Web.Startup

/-! # The program

Loads its settings, opens its database, and answers requests for the targets it
reads from standard input, one a line, until the input ends.
-/

namespace ComicCatalog.Program

/-- The variables that are set: the name and the value of each, as the system keeps them. -/
def environment : IO (List (String × String)) := do
  let entries := (← IO.FS.readBinFile "/proc/self/environ").toList.splitOn 0
  return entries.filterMap fun entry =>
    match entry.span (· != '='.toUInt8) with
    | (name, _ :: value) => some (Bytes.text name, Bytes.text value)
    | _ => none

/-- The bytes of a file; none where there is no file. -/
def fileBytes (path : String) : IO (Option Bytes) := do
  try
    return some (← IO.FS.readBinFile path).toList
  catch _ =>
    return none

/-- Whether there can be a file at a path, where one is made if there is none. -/
def makesFile (path : String) : IO Bool := do
  try
    let _ ← IO.FS.Handle.mk path .append
    return true
  catch _ =>
    return false

/-- Start with some settings. Rows of earlier runs are not read back. -/
def start (settings : Settings) : IO (Except StartupError Startup) := do
  let path := settings.database.path
  let reached ← if Database.isPassing path then pure true else makesFile path
  let content ← fileBytes path
  let _ : DatabaseFiles := { DatabaseFiles.bare with reaches := fun _ => reached }
  return Startup.prepare settings (content.getD [])

/-- Answer the targets that come in. -/
partial def answerAll (service : Service) (state : ServiceState Source) : IO Unit := do
  let line ← (← IO.getStdin).getLine
  if line.isEmpty then return
  let run := service.handle Source.respond (.ofTarget "GET" (Text.trim line) []) state
  IO.println (toString run.answer.status ++ " " ++ Bytes.text (run.answer.body.getD []))
  answerAll service run.state

/-- Start, and answer until the input ends. The result is the exit code. -/
def run : IO UInt32 := do
  let path := (← IO.getEnv "MANGASHELF_CONFIG").getD "config.toml"
  let file ← match ← fileBytes path with
    | some bytes => pure (FileState.text (Bytes.text bytes))
    | none => pure (if Path.isDirectory path then .other else .missing)
  let started ← match Startup.settingsFor path file (← environment) with
    | .error error => pure (.error error)
    | .ok settings => start settings
  match started with
  | .error error => do
      IO.eprintln ("Fatal error: " ++ error.message)
      return 1
  | .ok startup => do
      answerAll startup.service (startup.state .unreachable)
      return 0

end ComicCatalog.Program

def main : IO UInt32 :=
  ComicCatalog.Program.run
