import Segments.Json.Writer
import Segments.Server

namespace Segments

def readFile? (path : String) : IO (Option (String × String)) := do
  try
    return some (path, ← IO.FS.readFile path)
  catch _ => return none

def variableNames : List String :=
  Server.directivesVariable :: Settings.Variables.overrides.map Prod.fst ++
    ["SHOPSEG_HOST", "SHOPSEG_PORT", "SHOPSEG_DATABASE_URL", "SHOPSEG_UPSTREAM__BASE_URL",
     "SHOPSEG_UPSTREAM__CONSUMER_KEY", "SHOPSEG_UPSTREAM__CONSUMER_SECRET",
     "SHOPSEG_SYNC_INTERVAL_SECS", "SHOPSEG_LOG_LEVEL", "SHOPSEG_LOG_FORMAT"]

def readVariable? (name : String) : IO (Option (String × String)) := do
  return (← IO.getEnv name).map fun value => (name, value)

def lineText : Server.Line → String
  | .text line => line
  | .object v => v.write

end Segments

open Segments in
def main : IO UInt32 := do
  let files ← (".env" :: Settings.filePaths.map Prod.fst).filterMapM readFile?
  let vars ← variableNames.filterMapM readVariable?
  let launch := Server.start files vars
  for line in launch.told do
    IO.println (lineText line)
  for line in launch.complaints do
    IO.eprintln line
  return if launch.address.isSome then 0 else 1
