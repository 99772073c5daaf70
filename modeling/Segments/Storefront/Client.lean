import Segments.Failure
import Segments.Json.Reader
import Segments.Storefront.Sender
import Segments.Text.Quoted

namespace Segments.Storefront

open Http

/-- A storefront's address, without slashes at its end, and the credentials for it. -/
structure Client where
  base : List Char
  key : String
  secret : String

def reasonPhrase? : Nat → Option String
  | 100 => "Continue"
  | 101 => "Switching Protocols"
  | 102 => "Processing"
  | 200 => "OK"
  | 201 => "Created"
  | 202 => "Accepted"
  | 203 => "Non Authoritative Information"
  | 204 => "No Content"
  | 205 => "Reset Content"
  | 206 => "Partial Content"
  | 207 => "Multi-Status"
  | 208 => "Already Reported"
  | 226 => "IM Used"
  | 300 => "Multiple Choices"
  | 301 => "Moved Permanently"
  | 302 => "Found"
  | 303 => "See Other"
  | 304 => "Not Modified"
  | 305 => "Use Proxy"
  | 307 => "Temporary Redirect"
  | 308 => "Permanent Redirect"
  | 400 => "Bad Request"
  | 401 => "Unauthorized"
  | 402 => "Payment Required"
  | 403 => "Forbidden"
  | 404 => "Not Found"
  | 405 => "Method Not Allowed"
  | 406 => "Not Acceptable"
  | 407 => "Proxy Authentication Required"
  | 408 => "Request Timeout"
  | 409 => "Conflict"
  | 410 => "Gone"
  | 411 => "Length Required"
  | 412 => "Precondition Failed"
  | 413 => "Payload Too Large"
  | 414 => "URI Too Long"
  | 415 => "Unsupported Media Type"
  | 416 => "Range Not Satisfiable"
  | 417 => "Expectation Failed"
  | 418 => "I'm a teapot"
  | 421 => "Misdirected Request"
  | 422 => "Unprocessable Entity"
  | 423 => "Locked"
  | 424 => "Failed Dependency"
  | 426 => "Upgrade Required"
  | 428 => "Precondition Required"
  | 429 => "Too Many Requests"
  | 431 => "Request Header Fields Too Large"
  | 451 => "Unavailable For Legal Reasons"
  | 500 => "Internal Server Error"
  | 501 => "Not Implemented"
  | 502 => "Bad Gateway"
  | 503 => "Service Unavailable"
  | 504 => "Gateway Timeout"
  | 505 => "HTTP Version Not Supported"
  | 506 => "Variant Also Negotiates"
  | 507 => "Insufficient Storage"
  | 508 => "Loop Detected"
  | 510 => "Not Extended"
  | 511 => "Network Authentication Required"
  | _ => none

def shownStatus (status : Nat) : String :=
  toString status ++ " " ++ (reasonPhrase? status).getD "<unknown status code>"

namespace Client

def ofBase (base key secret : String) : Client :=
  ⟨(base.toList.reverse.dropWhile (· == '/')).reverse, key, secret⟩

def productsPath : String := "/wp-json/wc/v3/products"

def productsUrl (c : Client) : String :=
  String.ofList c.base ++ productsPath

/-- How the client is shown; the credentials are left out. -/
def shown (c : Client) : String :=
  "WooCommerceClient \x7b base_url: " ++ Text.quotedText (String.ofList c.base) ++ ", .. \x7d"

def credentials (c : Client) : List (String × String) :=
  [("consumer_key", c.key), ("consumer_secret", c.secret)]

def productsOf (status : Nat) (body : Except String Text.Bytes) : Except Failure (List Json) :=
  if status < 200 || 300 ≤ status then
    .error (.fetch ("Upstream returned error status: " ++ shownStatus status))
  else
    match body with
    | .error reason => .error (.fetch ("Failed to parse product list: " ++ reason))
    | .ok bytes =>
      match Json.read bytes with
      | .ok (.array products) => .ok products
      | .ok other => .error (.fetch ("Expected a product array, got " ++ other.kindName))
      | .error fault =>
        .error (.fetch ("Failed to parse product list: error decoding response body: " ++
          fault.message bytes))

def productsFrom : Outcome → Except Failure (List Json)
  | .failed reason => .error (.fetch ("Request failed: " ++ reason))
  | .answered status body => productsOf status body

def fetchBy (c : Client) (send : Sender) : Except Failure (List Json) :=
  productsFrom (send c.productsUrl c.credentials)

def fetch (c : Client) (reply : Url → Reply) : Except Failure (List Json) :=
  c.fetchBy (.ofReplies reply)

def request? (c : Client) : Option Url :=
  (Sender.request c.productsUrl c.credentials).toOption

end Client

end Segments.Storefront
