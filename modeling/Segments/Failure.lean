import Segments.Pattern.Basic
import Segments.Storefront.Product

namespace Segments

inductive Failure
  /-- The list of products could not be had. -/
  | fetch (reason : String)
  | record (rejection : Storefront.Rejection)
  | store (reason : String)
  | request (reason : String)
  | busy
  /-- A run ended in the middle. -/
  | aborted (reason : String)
  deriving DecidableEq, Repr

def Failure.message : Failure → String
  | .fetch reason => "Upstream fetch failed: " ++ reason
  | .record rejection => "Normalize error: " ++ rejection.message
  | .store reason => "Store error: " ++ reason
  | .request reason => "Invalid request: " ++ reason
  | .busy => "Sync already in progress"
  | .aborted reason => "Sync task aborted: " ++ reason

def Failure.ofPattern (fault : Pattern.Fault) : Failure :=
  .store ("Invalid pattern: " ++ fault.message)

end Segments
