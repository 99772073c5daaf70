import Segments.Log.Directive
import Segments.Settings.Load
import Segments.Storefront.Client
import Segments.Sync.Schedule

namespace Segments.Server

open Log

inductive Line
  | text (line : String)
  | object (value : Json)
  deriving Repr

def writesJson (s : Settings) : Bool :=
  Text.lowerAscii s.logFormat.toList == "json".toList

def lineOf (s : Settings) (n : Notice) : Line :=
  if writesJson s then .object n.toJson else .text n.line

/-- What the log tells unless it is asked for something else. -/
def standardDirectives (s : Settings) : String :=
  "shopseg_server=" ++ s.logLevel ++ ",shopseg_runtime=" ++ s.logLevel ++ ",tower_http=debug"

def directivesVariable : String := "RUST_LOG"

def directives (s : Settings) (asked : Option String) : List Directive × List String :=
  match asked.map readDirectives with
  | some (.ok ds) => (ds, [])
  | _ => pickDirectives (standardDirectives s)

def address (s : Settings) : String :=
  s.host ++ ":" ++ toString s.port

def notices (s : Settings) : List Notice :=
  let database := if s.databaseUrl.isSome then [.databaseIgnored] else []
  let sync :=
    if s.syncEnabled then .syncConfigured (s.shop.baseUrl.getD "") else .syncDisabled
  let schedule :=
    if s.syncEnabled then [.scheduleStarted (Sync.periodOf (s.syncInterval * 1000) / 1000)] else []
  .settingsLoaded s.shown :: database ++ [sync, .catalogReady] ++ schedule ++
    [.starting (address s)]

/-- Why an address cannot be taken up, as far as its text shows it. -/
def addressFault? (s : Settings) : Option String :=
  if s.host.toList.contains '\x00' then some "file name contained an unexpected NUL byte" else none

/-- A start: what it told, what it complained about, and the address that it took up. -/
structure Launch where
  told : List Line
  complaints : List String
  address : Option String

def refusal (reason : String) : String :=
  "Error: " ++ reason

def start (files : Settings.Files) (vars : Settings.Variables) : Launch :=
  match Settings.load files vars with
  | .error reason => ⟨[], [refusal reason], none⟩
  | .ok s =>
    let (ds, ignored) := directives s ((Settings.variablesIn files vars).lookup directivesVariable)
    let told := ((notices s).filter (tells ds)).map (lineOf s)
    match addressFault? s with
    | some reason => ⟨told, ignored ++ [refusal reason], none⟩
    | none => ⟨told, ignored, some (address s)⟩

end Segments.Server
