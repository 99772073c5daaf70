import Segments.Http.MediaType
import Segments.Http.Target
import Segments.Json.Basic
import Segments.Text.Utf8

namespace Segments.Http

open Text

structure Request where
  method : String
  path : List Char
  contentType : Option String
  body : Bytes

inductive RequestFault
  | method
  | target (fault : TargetFault)
  | field
  deriving DecidableEq, Repr

def RequestFault.message : RequestFault → String
  | .method => "invalid HTTP method"
  | .target fault => fault.message
  | .field => "failed to parse header value"

namespace Request

def isMethod (s : String) : Bool :=
  !s.isEmpty && s.toList.all MediaType.isToken

def isFieldValue (s : String) : Bool :=
  s.toList.all fun c => c == '\t' || (32 ≤ c.toNat && c.toNat != 127)

/-- The request with these parts. Of several faults that of the first part is told. -/
def make (method target : String) (contentType : Option String) (body : Bytes) :
    Except RequestFault Request :=
  if !isMethod method then .error .method
  else
    match Target.read target with
    | .error fault => .error (.target fault)
    | .ok path =>
      if contentType.all isFieldValue then .ok ⟨method, path, contentType, body⟩
      else .error .field

end Request

structure Response where
  status : Nat
  contentType : Option String
  /-- The methods that would be allowed instead. -/
  allow : Option String
  body : Option Json

namespace Response

def jsonType : String := "application/json"

def ofJson (status : Nat) (v : Json) : Response :=
  ⟨status, some jsonType, none, some v⟩

def empty (status : Nat) (allow : Option String) : Response :=
  ⟨status, none, allow, none⟩

def withoutBody (r : Response) : Response :=
  { r with body := none }

end Response

end Segments.Http
