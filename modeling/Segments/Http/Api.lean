import Segments.Catalog.Codec
import Segments.Http.Body
import Segments.Http.Message
import Segments.Http.Problem
import Segments.Sync.Calls

namespace Segments.Http

open Catalog Log Sync

inductive Resource
  | health
  | products
  | evaluation
  | sync
  | syncStatus
  deriving DecidableEq, Repr

namespace Resource

def path : Resource → String
  | .health => "/health"
  | .products => "/products"
  | .evaluation => "/segments/evaluate"
  | .sync => "/sync"
  | .syncStatus => "/sync/status"

def all : List Resource :=
  [.health, .products, .evaluation, .sync, .syncStatus]

def ofPath? (path : List Char) : Option Resource :=
  all.find? fun r => r.path.toList == path

def isRead : Resource → Bool
  | .health | .products | .syncStatus => true
  | .evaluation | .sync => false

def allow (r : Resource) : String :=
  if r.isRead then "GET,HEAD" else "POST"

end Resource

def maxBody : Nat := 2 * 1024 * 1024

def Request.conditions (r : Request) : Except Problem (Option (List String)) :=
  if !r.contentType.any MediaType.isJson then
    .error (.unusable "Missing 'Content-Type: application/json' header")
  else if r.body.length > maxBody then
    .error (.unusable "Failed to parse JSON: Failed to buffer the request body")
  else
    match Body.read r.body with
    | .ok conditions => .ok conditions
    | .error .malformed =>
      .error (.unusable "JSON syntax error: Failed to parse the request body as JSON")
    | .error .misfit =>
      .error (.unusable
        "Invalid JSON data: Failed to deserialize the JSON body into the target type")

namespace Api

def version : String := "0.1.0"

abbrev Moments := Nat → String

def refuse (p : Problem) : Response :=
  .ofJson p.status p.body

def records (rs : List Record) : Response :=
  .ofJson 200 (.array (rs.map Record.toJson))

def health : Response :=
  .ofJson 200 (.object [("status", .text "healthy"), ("version", .text version)])

def products (s : System) : System × Response :=
  match s.access.all s.store with
  | .ok rs => (s, records rs)
  | .error f => (s.note (.listingFailed f), refuse (.internal "Error fetching products"))

/-- The request is answered with 400 if it names no segment, with 500 if the store fails, and with
the records otherwise. -/
def evaluate (s : System) (r : Request) : System × Response :=
  match r.conditions with
  | .error p => (s, refuse p)
  | .ok conditions =>
    let s := s.note (.evaluationReceived ((conditions.map List.length).getD 0))
    match s.evaluate conditions with
    | (s, .ok rs) => (s.note (.evaluated rs.length), records rs)
    | (s, .error (.request reason)) =>
      (s.note (.evaluationRejected (.request reason)), refuse (.ofFailure (.request reason)))
    | (s, .error f) => (s.note (.evaluationFailed f), refuse (.ofFailure f))

def statusJson (moments : Moments) (p : Pipeline) : Json :=
  .object
    [("last_error", .ofOption .text p.lastError),
     ("last_report", .ofOption (Report.toJson moments) p.lastReport),
     ("running", .boolean p.isRunning)]

def ended (moments : Moments) : Outcome → Response
  | .ok report => .ofJson 200 (report.toJson moments)
  | .error f => refuse (.ofFailure f)

inductive Reply
  | done (response : Response)
  | pending (run : Nat)

def sync (configured : Bool) (s : System) : System × Reply :=
  if !configured then (s, .done (refuse (.unavailable "Catalog sync is not configured")))
  else
    match s.admit? .here with
    | none => (s.note .syncRefused, .done (refuse (.ofFailure .busy)))
    | some s => (s, .pending (s.runs - 1))

def serve (moments : Moments) (configured : Bool) (s : System) (r : Request) :
    Resource → System × Reply
  | .health => (s, .done health)
  | .products => (products s).map id .done
  | .evaluation => (evaluate s r).map id .done
  | .sync => sync configured s
  | .syncStatus => (s, .done (.ofJson 200 (statusJson moments (if configured then s.pipeline else .idle))))

/-- Takes up a request. Any path may be asked for the methods that are allowed on it. -/
def begin (moments : Moments) (configured : Bool) (s : System) (r : Request) : System × Reply :=
  let resource? := Resource.ofPath? r.path
  if r.method == "OPTIONS" then (s, .done (.empty 200 (resource?.map Resource.allow)))
  else
    match resource? with
    | none => (s, .done (.empty 404 none))
    | some resource =>
      if resource.isRead && r.method == "HEAD" then
        match serve moments configured s r resource with
        | (s, .done response) => (s, .done response.withoutBody)
        | (s, .pending run) => (s, .pending run)
      else if r.method == (if resource.isRead then "GET" else "POST") then
        serve moments configured s r resource
      else (s, .done (.empty 405 (some resource.allow)))

def finish (moments : Moments) (s : System) : Reply → System × Response
  | .done response => (s, response)
  | .pending run =>
    match s.waitFor run with
    | (s, some outcome) => (s.told outcome, ended moments outcome)
    | (s, none) => (s, refuse (.ofFailure .busy))

def respond (moments : Moments) (configured : Bool) (s : System) (r : Request) :
    System × Response :=
  let (s, reply) := begin moments configured s r
  finish moments s reply

/-- Answers requests that come at once: all are taken up in order before any is waited for. -/
def respondAll (moments : Moments) (configured : Bool) (s : System) (rs : List Request) :
    System × List Response :=
  let (s, replies) := rs.foldl (fun (s, done) r =>
    let (s, reply) := begin moments configured s r
    (s, done ++ [reply])) (s, [])
  replies.foldl (fun (s, done) reply =>
    let (s, response) := finish moments s reply
    (s, done ++ [response])) (s, [])

end Api

end Segments.Http
