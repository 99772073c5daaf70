import Segments.Http.Url

namespace Segments.Storefront

open Http

/-- What came of a request. The body of an answer may break off. -/
inductive Outcome
  | failed (reason : String)
  | answered (status : Nat) (body : Except String Text.Bytes)

/-- Sends requests: what comes of one for the resource at an address, with pairs of a form put into
the query. The rest of the world is in it. -/
abbrev Sender := String → List (String × String) → Outcome

/-- How a request went that was made, in the end: redirections are followed before that. -/
inductive Reply
  /-- No answer came from the address that was asked. -/
  | lost (cause : String)
  /-- No answer came after a redirection to another address. -/
  | lostAt (last : Url) (kind cause : String)
  | answered (status : Nat) (body : Text.Bytes)
  /-- The answer broke off in its body; of that no address is told. -/
  | brokenOff (status : Nat) (reason : String)

/-- An answer as a server sends it. One below 200 is not the last, except that 101 ends the
exchange; a status of three digits is none; 204 has no body. -/
def Reply.ofSent (status : Nat) (body : Text.Bytes) : Reply :=
  if (status < 200 && status != 101) || status > 999 then
    .lost "connection closed before message completed"
  else .answered status (if status == 204 then [] else body)

namespace Sender

/-- What is told of a failure: the address too, if there is one. -/
def told (kind : String) (url? : Option String) (cause : String) : String :=
  kind ++ (url?.map fun url => " for url (" ++ url ++ ")").getD "" ++ ": " ++ cause

def refusal (fault : Url.Fault) : String :=
  let url? := match fault with
    | .foreign address => some address
    | _ => none
  told "builder error" url? fault.message

/-- The address that is asked, or what is told if none is. The pairs are put into an address before
its scheme is looked at. -/
def request (address : String) (pairs : List (String × String)) : Except String Url :=
  match Url.read address with
  | .error fault => .error (refusal fault)
  | .ok url =>
    let asked := url.withPairs pairs
    if url.isWeb then .ok asked else .error (refusal (.foreign asked.text))

def outcome (asked : Url) : Reply → Outcome
  | .lost cause => .failed (told "error sending request" (some asked.text) cause)
  | .lostAt last kind cause => .failed (told kind (some last.text) cause)
  | .answered status body => .answered status (.ok body)
  | .brokenOff status reason => .answered status (.error reason)

def ofReplies (reply : Url → Reply) : Sender := fun address pairs =>
  match request address pairs with
  | .error reason => .failed reason
  | .ok asked => outcome asked (reply asked)

end Sender

end Segments.Storefront
