import Segments.Settings.Basic
import Segments.Settings.EnvFile
import Segments.Settings.Source

namespace Segments.Settings

def standardLayer : Layer :=
  [("host", .text standard.host),
   ("port", .scalar none (.whole standard.port)),
   ("sync_interval_secs", .scalar none (.whole standard.syncInterval)),
   ("log_level", .text standard.logLevel),
   ("log_format", .text standard.logFormat)]

def layers (file : Layer) (vars : Variables) (find : String → Option String) : List Layer :=
  [standardLayer, file, Variables.layer vars, Variables.overrideLayer find]

/-- The settings from four layers that lie over one another: the standard settings, a file, the
variables of the program, and variables of names of their own. Each setting is taken from the
highest layer that has it. -/
def ofSources (source : Option Source) (vars : Variables) (find : String → Option String) :
    Except String Settings := do
  let file ← match source with
    | some s => s.layer
    | none => .ok []
  match ofValue (merge (layers file vars find)) with
  | .ok s => .ok s
  | .error fault => .error ("Failed to deserialize config: " ++ fault.message)

abbrev Files := List (String × String)

def filePaths : List (String × Format) :=
  [("config/server.toml", .toml), ("config/server.json", .json), ("config/server.yaml", .yaml),
   ("config/server.yml", .yaml)]

def Source.ofFiles? (files : Files) : Option Source :=
  filePaths.findSome? fun (path, format) =>
    (files.lookup path).map fun text => ⟨format, some path, text⟩

def variablesIn (files : Files) (vars : Variables) : Variables :=
  match files.lookup ".env" with
  | some text => EnvFile.load vars text
  | none => vars

def load (files : Files) (vars : Variables) : Except String Settings :=
  let vars := variablesIn files vars
  ofSources (Source.ofFiles? files) vars fun name => vars.lookup name

end Segments.Settings
