import Segments.Json.Decode

namespace Segments.Sync

open Json

structure Skipped where
  id : Option Int
  reason : String
  deriving DecidableEq, Repr

structure Report where
  /-- Milliseconds on the clock. -/
  startedAt : Nat
  finishedAt : Nat
  /-- Products that the storefront listed. -/
  fetched : Nat
  /-- Records that were written. -/
  upserted : Nat
  skipped : List Skipped
  deriving DecidableEq, Repr

def Skipped.shape : Shape [Option Int, String] :=
  .cons (.optional "id" Decode.int64) <|
  .cons (.required "reason" Decode.text) .nil

def Skipped.decode : Decoder Skipped := fun v => do
  let (id, reason, ()) ← Skipped.shape.decode "SkippedRecord" v
  .ok ⟨id, reason⟩

def Skipped.toJson (s : Skipped) : Json :=
  .object [("id", .ofOption .ofInt s.id), ("reason", .text s.reason)]

def Report.toJson (moment : Nat → String) (r : Report) : Json :=
  .object
    [("fetched", .ofNat r.fetched),
     ("finished_at", .text (moment r.finishedAt)),
     ("skipped", .array (r.skipped.map Skipped.toJson)),
     ("started_at", .text (moment r.startedAt)),
     ("upserted", .ofNat r.upserted)]

end Segments.Sync
