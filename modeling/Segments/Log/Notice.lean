import Segments.Condition.Basic
import Segments.Failure
import Segments.Json.Basic

namespace Segments.Log

inductive Level
  | error
  | warn
  | info
  | debug
  | trace
  deriving DecidableEq, Repr

def Level.name : Level → String
  | .error => "ERROR"
  | .warn => "WARN"
  | .info => "INFO"
  | .debug => "DEBUG"
  | .trace => "TRACE"

def Level.rank : Level → Nat
  | .error => 1
  | .warn => 2
  | .info => 3
  | .debug => 4
  | .trace => 5

inductive Notice
  | conditionDropped (skip : Condition.Skip)
  | evaluating (filters : Nat)
  | fetching (url : String)
  | syncStarted
  | fetchFailed (failure : Failure)
  | productSkipped (id : Option Int) (rejection : Storefront.Rejection)
  | recordNotStored (id : Option Int) (failure : Failure)
  | ingested (fetched upserted skipped : Nat)
  /-- A run ended in the middle while someone waited for it. -/
  | runLost (reason : String)
  | scheduleStarted (seconds : Nat)
  | scheduledDone (upserted skipped : Nat)
  | tickSkipped
  | scheduledFailed (failure : Failure)
  | listingFailed (failure : Failure)
  | evaluationReceived (conditions : Nat)
  | evaluationRejected (failure : Failure)
  | evaluationFailed (failure : Failure)
  | evaluated (records : Nat)
  | syncRefused
  | settingsLoaded (shown : String)
  | databaseIgnored
  | syncConfigured (url : String)
  | syncDisabled
  | catalogReady
  | starting (address : String)
  deriving DecidableEq, Repr

namespace Notice

def level : Notice → Level
  | .conditionDropped _ | .evaluating _ | .fetching _ => .debug
  | .syncStarted | .ingested .. | .scheduleStarted _ | .scheduledDone .. | .evaluationReceived _
  | .evaluated _ | .settingsLoaded _ | .syncConfigured _ | .catalogReady | .starting _ => .info
  | .productSkipped .. | .recordNotStored .. | .tickSkipped | .evaluationRejected _ | .syncRefused
  | .databaseIgnored | .syncDisabled => .warn
  | .fetchFailed _ | .runLost _ | .scheduledFailed _ | .listingFailed _ | .evaluationFailed _ =>
    .error

def target : Notice → String
  | .conditionDropped _ | .evaluating _ => "shopseg_runtime::segment"
  | .fetching _ => "shopseg_runtime::upstream::woocommerce"
  | .syncStarted | .fetchFailed _ | .productSkipped .. | .recordNotStored .. | .ingested ..
  | .runLost _ => "shopseg_runtime::sync"
  | .scheduleStarted _ | .scheduledDone .. | .tickSkipped | .scheduledFailed _ =>
    "shopseg_runtime::sync::scheduler"
  | .listingFailed _ | .evaluationReceived _ | .evaluationRejected _ | .evaluationFailed _
  | .evaluated _ | .syncRefused => "shopseg_server::api::rest::handlers"
  | .databaseIgnored | .syncConfigured _ | .syncDisabled => "shopseg_server::catalog"
  | .settingsLoaded _ | .catalogReady | .starting _ => "shopseg_server"

def message : Notice → String
  | .conditionDropped _ => "Dropping malformed condition"
  | .evaluating _ => "Evaluating segment"
  | .fetching _ => "Fetching upstream products"
  | .syncStarted => "Starting catalog sync"
  | .fetchFailed _ => "Error fetching upstream products"
  | .productSkipped .. => "Skipping upstream record"
  | .recordNotStored .. => "Failed to store record"
  | .ingested .. => "Products ingested and stored"
  | .runLost _ => "Sync task did not complete"
  | .scheduleStarted _ => "Starting sync scheduler"
  | .scheduledDone .. => "Scheduled sync completed"
  | .tickSkipped => "Previous sync still running, skipping tick"
  | .scheduledFailed _ => "Scheduled sync failed"
  | .listingFailed _ => "Error fetching products"
  | .evaluationReceived _ => "Received segment evaluation request"
  | .evaluationRejected _ => "Rejected segment request"
  | .evaluationFailed _ => "Error evaluating segment"
  | .evaluated _ => "Segment evaluated"
  | .syncRefused => "Manual sync requested while a run is active"
  | .settingsLoaded shown => "Loaded configuration: " ++ shown
  | .databaseIgnored => "Built without database support, ignoring database URL"
  | .syncConfigured _ => "✓ Upstream sync configured"
  | .syncDisabled => "Upstream base URL not configured, catalog sync is disabled"
  | .catalogReady => "Catalog services initialized"
  | .starting address => "Starting server on " ++ address

def shownId : Option Int → String
  | some id => "Some(" ++ toString id ++ ")"
  | none => "None"

def fields : Notice → List (String × Json)
  | .conditionDropped skip =>
    [("index", .ofNat skip.index), ("condition", .text skip.condition),
     ("reason", .text skip.reason.message)]
  | .evaluating n => [("filters", .ofNat n)]
  | .fetching url => [("url", .text url)]
  | .fetchFailed f | .scheduledFailed f | .listingFailed f | .evaluationRejected f
  | .evaluationFailed f => [("error", .text f.message)]
  | .productSkipped id rejection =>
    [("record_id", .text (shownId id)), ("error", .text rejection.message)]
  | .recordNotStored id f => [("record_id", .text (shownId id)), ("error", .text f.message)]
  | .ingested fetched upserted skipped =>
    [("fetched", .ofNat fetched), ("upserted", .ofNat upserted), ("skipped", .ofNat skipped)]
  | .runLost reason => [("error", .text reason)]
  | .scheduleStarted seconds => [("interval_secs", .ofNat seconds)]
  | .scheduledDone upserted skipped =>
    [("upserted", .ofNat upserted), ("skipped", .ofNat skipped)]
  | .evaluationReceived n => [("conditions", .ofNat n)]
  | .evaluated n => [("matched", .ofNat n)]
  | .syncConfigured url => [("base_url", .text url)]
  | .syncStarted | .tickSkipped | .syncRefused | .settingsLoaded _ | .databaseIgnored
  | .syncDisabled | .catalogReady | .starting _ => []

end Notice

end Segments.Log
