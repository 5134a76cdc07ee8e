import TurnRelay.Http.EventStream
import TurnRelay.Http.Address
import TurnRelay.Http.Route
import TurnRelay.Http.Reply
import TurnRelay.Telemetry.Metrics
import TurnRelay.Admission.Slots
import TurnRelay.Api.Transcript
import TurnRelay.Decimal.Integer

/-!
# The gateway

The gateway answers one request at a time. Every request gets an id (the one it brings, or a
fresh one), which the response names; then it is routed. A messages request, when admission
control is on, first needs one of its client's slots; then its body is read and decoded, the
conversation becomes a turn, and the turn joins the queue. A client that streams gets the
turn's events as they come; one that does not gets one reply message at the end.

What a request is counted as depends on how it ends: `499` when the client left before its
turn was granted, `500` when the reply is an error, `200` otherwise, also for a stream that
failed after it was committed, since that failure was told in the stream itself.

Since requests are answered one after another, a request that finds the turn taken cannot
wait for it: it is withdrawn from the queue as if its client had left.

## Main definitions

* `Settings`, `Request`, `Draws`, `Server`.
* `Server.serve`: answers one request.
* `Server.hold`, `Server.finishHeld`: a task that holds the turn across requests.
-/

namespace TurnRelay.Http

open TurnRelay.Admission TurnRelay.Telemetry TurnRelay.Stream TurnRelay.Api TurnRelay.Assistant
open TurnRelay.Json

/-- The largest body read, in bytes; the rest is not looked at. -/
def maxBodySize : Nat := 32 * 1024 * 1024

/-- The routes the service descriptor advertises. -/
def endpoints : List String := ["/v1/messages", "/messages"]

/-- How the gateway is set up. -/
structure Settings where
  /-- The options every turn starts from. -/
  base : TurnOptions := {}
  version : String := ""
  /-- The most requests a client may have queued or running; none turns admission off. -/
  admissionLimit : Option Int := none

/-- A request as the gateway receives it. -/
structure Request where
  method : String := "POST"
  /-- The path, with the query if there is one. -/
  target : String := "/v1/messages"
  headers : Headers := []
  body : ByteArray := ByteArray.empty
  /-- The failure that reading ends with after the body, if any. -/
  bodyError : Option String := none
  remoteAddr : String := "192.0.2.1:1234"
  /-- The client has left before its turn is granted. -/
  leftEarly : Bool := false
  /-- The client leaves while its turn is starting. -/
  leavesOnStart : Bool := false

/-- The identifiers a request may be given: its id when it brings none, and its reply's id. -/
structure Draws where
  requestId : String
  messageId : String

/-- The state the gateway keeps across requests. Metrics are kept only when enabled. -/
structure Server (π : Type) where
  queue : Queue Nat := {}
  nextTicket : Nat := 0
  metrics : Option Metrics := none
  slots : Slots := {}
  assistant : π

/-- The service descriptor the root path serves. -/
def descriptor (version : String) : ByteArray :=
  ServiceDescriptor.json { status := "ok", service := "claude-max-proxy", version := version,
                           format := "anthropic", endpoints := endpoints }

/-- The health report. -/
def healthReport (version : String) : ByteArray :=
  Writer.object [("status", Writer.str "healthy"), ("version", Writer.str version)]

/-- The message of a request turned away by admission control. -/
def tooManyPending (limit : Int) : String :=
  "Too many pending requests: at most " ++ Decimal.intText limit ++
    " may be queued or running per client"

/-- The body as read: at most `maxBodySize` bytes, or the failure reading ends with before it. -/
def Request.readBody (r : Request) : Except String ByteArray :=
  if r.body.size ≥ maxBodySize then .ok (r.body.extract 0 maxBodySize)
  else match r.bodyError with
    | some e => .error e
    | none => .ok r.body

/-- The request id: the one the request brings, else the drawn one. -/
def Request.id (r : Request) (draws : Draws) : String :=
  let given := r.headers.get "X-Request-ID"
  if given != "" then given else draws.requestId

/-- The reply a started turn gives a client that does not stream, and how its task ends. -/
def replyOf (started : Started) (messageId model : String) : TaskEnd × Except String MessageResponse :=
  match started with
  | .panicked m => (.panicked m, .error (abortReport m))
  | .failed e => (.failed (startFailure e.message), .error (startFailure e.message))
  | .items results =>
    match aggregate results messageId model with
    | .ok r => (.ok, .ok r)
    | .error m => (.failed m, .error m)

/-- How the task of a streamed turn ends. -/
def streamTaskEnd : Ending → TaskEnd
  | .returned r => match r.error with
    | none => .ok
    | some e => .failed e
  | .panicked m => .panicked m

namespace Server

variable {π : Type}

/-- Updates the metrics, when they are kept. -/
def count (s : Server π) (f : Metrics → Metrics) : Server π := { s with metrics := s.metrics.map f }

/-- Follows the queue's signals. -/
def signal (s : Server π) (signals : List Signal) : Server π := s.count (·.observeAll signals)

/-- A new task joins the queue: its ticket, whether it holds the turn, the state after. -/
def join (s : Server π) : Nat × Bool × Server π :=
  let t := s.nextTicket
  let (q, signals) := s.queue.enqueue t
  (t, q.running == some t, { s.signal signals with queue := q, nextTicket := t + 1 })

/-- A waiting task leaves the queue. -/
def withdraw (s : Server π) (t : Nat) : Server π :=
  match s.queue.abandon t with
  | some (q, signals) => { s.signal signals with queue := q }
  | none => s

/-- The running task ends as `e`. -/
def finish (s : Server π) (e : TaskEnd) : Server π :=
  let (q, signals) := s.queue.release e
  { s.signal signals with queue := q }

/-- A request was answered as `mode`, for a model family, with a status. -/
def record (s : Server π) (mode model status : String) : Server π :=
  s.count (·.recordRequest mode model status)

/-- A task that takes the turn and keeps it until `finishHeld`. -/
def hold (s : Server π) : Server π := s.join.2.2

/-- The held task ends successfully. -/
def finishHeld (s : Server π) : Server π := s.finish .ok

/-- Answers a turn for a client that does not stream. -/
def replyTurn (be : Backend π) (s : Server π) (reqId : String) (draws : Draws)
    (req : InboundRequest) (prompt : ByteArray) (opts : TurnOptions) (c : Conn) : Conn × Server π :=
  let family := mapModel req.model
  let (t, granted, s) := s.join
  if !granted then (c, (s.withdraw t).record "json" family "499")
  else
    let (started, a) := be.start s.assistant prompt opts
    let (ending, reply) := replyOf started draws.messageId req.model
    let s := { s with assistant := a }.finish ending
    match reply with
    | .ok r => (c.replyJSON 200 r.json, s.record "json" family "200")
    | .error m => (c.replyError reqId .api m, s.record "json" family "500")

/-- Streams a turn to the client. -/
def streamTurn (be : Backend π) (s : Server π) (r : Request) (reqId : String) (draws : Draws)
    (req : InboundRequest) (prompt : ByteArray) (opts : TurnOptions) (c : Conn) : Conn × Server π :=
  let family := mapModel req.model
  let (t, granted, s) := s.join
  if !granted then (c, (s.withdraw t).record "stream" family "499")
  else
    match openStream c reqId with
    | .error m =>
      let s := s.finish (.failed m)
      (c.replyError reqId .api m, s.record "stream" family "500")
    | .ok c =>
      let x : Exchange π := { conn := c, clientGone := r.leftEarly, assistant := s.assistant }
      let (ending, st) :=
        Session.run (Exchange.link be r.leavesOnStart) x draws.messageId req.model prompt opts
      let s := { s with assistant := st.link.assistant }
      let s := s.count fun m => st.forwarded.foldl (fun m (n, b) => m.eventForwarded n b) m
      let s := match ending with
        | .returned summary => s.count (·.sessionFinished summary.outcome)
        | .panicked _ => s
      (st.link.conn, (s.finish (streamTaskEnd ending)).record "stream" family "200")

/-- Answers a messages request. -/
def messages (be : Backend π) (cfg : Settings) (r : Request) (reqId : String) (draws : Draws)
    (s : Server π) (c : Conn) : Conn × Server π :=
  match r.readBody with
  | .error e => (c.replyError reqId .api ("Failed to read request body: " ++ e), s)
  | .ok body =>
    match InboundRequest.decode body with
    | .error e => (c.replyError reqId .api e.message, s.record "unknown" "" "500")
    | .ok req =>
      let (prompt, opts) := prepareTurn req cfg.base
      if req.stream then streamTurn be s r reqId draws req prompt opts c
      else replyTurn be s reqId draws req prompt opts c

/-- Runs `inner` under admission control: the client needs a slot, which it gives back when
`inner` is done. -/
def guarded (cfg : Settings) (client reqId : String) (inner : Server π → Conn → Conn × Server π)
    (s : Server π) (c : Conn) : Conn × Server π :=
  match cfg.admissionLimit with
  | none => inner s c
  | some limit =>
    let (d, slots) := s.slots.acquire client limit
    let s := { s with slots := slots }
    let c := c.setHeader "X-Pending-Limit" (Decimal.intText limit)
    let c := c.setHeader "X-Pending-Remaining" (Decimal.intText (d.remaining limit))
    if !d.admitted then
      (c.replyError reqId .rateLimit (tooManyPending limit), s.count Metrics.rejectAdmission)
    else
      let (c, s) := inner s c
      (c, { s with slots := s.slots.release client })

/-- Answers one request on the response `c`. -/
def serve (be : Backend π) (cfg : Settings) (s : Server π) (r : Request) (draws : Draws)
    (c : Conn) : Conn × Server π :=
  let reqId := r.id draws
  let c := c.setHeader "X-Request-ID" reqId
  let path := requestPath r.target
  match route r.method path with
  | .notAllowed allowed => (c.refuseMethod allowed, s)
  | .notFound =>
    (c.replyError reqId .notFound ("Not found: " ++ r.method ++ " " ++ unescapePath path), s)
  | .serve .root => (c.replyJSON 200 (descriptor cfg.version), s)
  | .serve .health => (c.replyJSON 200 (healthReport cfg.version), s)
  | .serve .messages =>
    guarded cfg (clientOf r.headers r.remoteAddr) reqId (messages be cfg r reqId draws) s c

end Server

end TurnRelay.Http
