import Segments.Log.Notice
import Segments.Store.Access
import Segments.Sync.Report

namespace Segments.Sync

open Log

structure Tally where
  upserted : Nat
  skipped : List Skipped
  deriving DecidableEq, Repr

def Tally.start : Tally :=
  ⟨0, []⟩

def Tally.skip (t : Tally) (id : Option Int) (reason : String) : Tally :=
  { t with skipped := t.skipped ++ [⟨id, reason⟩] }

def Tally.count (t : Tally) : Tally :=
  { t with upserted := t.upserted + 1 }

/-- The store and the tally after one product, and what is told about it. -/
structure Taken where
  store : Store
  tally : Tally
  notice : Option Notice

/-- Takes a product, with a store that writes a record unless `refusal` says why it does not. -/
def takeWith (refusal : Catalog.Record → Option Failure) (store : Store) (tally : Tally)
    (raw : Json) : Taken :=
  let id := Storefront.listedId? raw
  match Storefront.normalize raw with
  | .error e => ⟨store, tally.skip id e.message, some (.productSkipped id e)⟩
  | .ok r =>
    match refusal r with
    | none => ⟨store.insert r, tally.count, none⟩
    | some e => ⟨store, tally.skip id e.message, some (.recordNotStored id e)⟩

/-- A product is made a record and written, or left out and reported. One that is left out changes
nothing. -/
def take (access : Access) : Store → Tally → Json → Taken :=
  takeWith access.refusal?

end Segments.Sync
