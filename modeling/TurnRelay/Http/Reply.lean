import TurnRelay.Http.Exchange
import TurnRelay.Json.Write

/-!
# Plain replies

A reply that is not streamed is one JSON value and a newline, written at once with the type
`application/json`. Errors have one shape, a typed envelope around a kind and a message; the
kind goes with the status.

## Main definitions

* `Failure` with its status and kind, `errorBody`.
* `Conn.replyJSON`, `Conn.replyError`, `Conn.refuseMethod`.
-/

namespace TurnRelay.Http

open TurnRelay.Json

/-- The kinds of error reply. -/
inductive Failure where
  /-- The service or the assistant failed. -/
  | api
  /-- The client has too many requests pending. -/
  | rateLimit
  | notFound
  deriving DecidableEq, Inhabited

/-- The status of an error reply. -/
def Failure.status : Failure → Nat
  | .api => 500
  | .rateLimit => 429
  | .notFound => 404

/-- The kind an error reply names. -/
def Failure.kind : Failure → String
  | .api => "api_error"
  | .rateLimit => "rate_limit_error"
  | .notFound => "not_found_error"

/-- The body of an error reply. -/
def errorBody (f : Failure) (message : String) : ByteArray :=
  Writer.object [("type", Writer.str "error"),
    ("error", Writer.object [("type", Writer.str f.kind), ("message", Writer.str message)])]

namespace Conn

/-- Replies with a JSON value and a newline. -/
def replyJSON (c : Conn) (status : Nat) (body : ByteArray) : Conn :=
  let c := (c.setHeader "Content-Type" "application/json").writeHeader status
  (c.write (body.push 0x0A)).2

/-- Replies with an error, naming the request id when there is one. -/
def replyError (c : Conn) (requestId : String) (f : Failure) (message : String) : Conn :=
  let c := c.setHeader "Content-Type" "application/json"
  let c := if requestId != "" then c.setHeader "X-Request-ID" requestId else c
  ((c.writeHeader f.status).write ((errorBody f message).push 0x0A)).2

/-- Refuses a request for its method: the allowed methods, status `405`, and an empty body. -/
def refuseMethod (c : Conn) (allowed : List String) : Conn :=
  let c := allowed.foldl (fun c m => c.addHeader "Allow" m) c
  ((c.writeHeader 405).write ByteArray.empty).2

end Conn

end TurnRelay.Http
