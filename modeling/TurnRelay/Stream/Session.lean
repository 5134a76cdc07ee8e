import TurnRelay.Stream.Remap
import TurnRelay.Assistant.Provider
import TurnRelay.Stream.Aggregate

/-!
# Streaming one turn to a client

A session writes the opening of one reply message (`message_start`, then a text block at index
0), starts the assistant's turn, and forwards what the turn reports until it ends; then it closes
the text block and the message. However many model turns the assistant runs, the client sees one
message with one text block:

* message and block boundaries of the turn are absorbed (`eventsFolded`);
* text deltas are moved onto block 0, other deltas are absorbed;
* message deltas are absorbed too, their usage summed and their stop sequence kept for the
  closing `message_delta`.

Tool-use blocks are hidden as `remap` decides (`eventsSuppressed`).

A client that goes away ends all writing but not the turn, whose results are still consumed.
A failure (a start failure, a failed result, a failed write) is remembered, the first one wins,
and the client is told once with an `error` event if it can still be written to; nothing but
discarding follows.

The writes and the start go through a `Link`, whose state `σ` is the world outside the session:
the client connection, the assistant and the clock. While the session waits for the turn's next
result, keepalive ticks may fire; each writes a comment unless the client is gone or the session
closed. How many fire is the world's choice, which covers every timing of the ticks.

## Main definitions

* `Link`, `SessionState`, `Session.run`.
* `Session.safeWrite`: what every write to the client does with its outcome.
* `Summary`: the outcome, the counters and the failure.
-/

namespace TurnRelay.Stream

open TurnRelay.Json TurnRelay.Assistant TurnRelay.Api

/-- Where a session is in its life. It moves forward, except that the opening writes do not
stop the turn from starting. -/
inductive Phase where
  | starting
  | streaming
  | draining
  | closed
  deriving DecidableEq, Repr, Inhabited

/-- How a session ended. -/
inductive Outcome where
  | completed
  | empty
  | clientGone
  | upstreamError
  deriving DecidableEq, Repr, Inhabited

/-- The name an outcome is reported by. -/
def Outcome.name : Outcome → String
  | .completed => "completed"
  | .empty => "empty"
  | .clientGone => "client_gone"
  | .upstreamError => "upstream_error"

/-- The counters of a session. -/
structure Stats where
  bytesSent : Nat := 0
  eventsForwarded : Nat := 0
  textEventsForwarded : Nat := 0
  keepalivesSent : Nat := 0
  eventsSuppressed : Nat := 0
  eventsFolded : Nat := 0
  deriving Inhabited, Repr, DecidableEq

/-- What one write to the client reports. -/
inductive WriteOutcome where
  | ok
  /-- The client is no longer there. -/
  | gone
  /-- The write failed for another reason. -/
  | failed (message : String)
  deriving Inhabited, DecidableEq

/-- The world a session talks to: writing one event or one comment to the client, starting the
turn with a prompt and options, and the keepalive clock. -/
structure Link (σ : Type) where
  write : σ → String → ByteArray → WriteOutcome × σ
  /-- Writes a comment line; keepalives are the only comments. -/
  comment : σ → String → WriteOutcome × σ := fun w _ => (.ok, w)
  start : σ → ByteArray → TurnOptions → Started × σ
  /-- How many keepalive ticks fire while the session waits for the turn's next result, or for
  its end; none while keepalives are off. -/
  ticks : σ → Nat := fun _ => 0

/-- Everything a session keeps, with the state of its link. -/
structure SessionState (σ : Type) where
  phase : Phase := .starting
  hidden : IndexSet := []
  clientGone : Bool := false
  errorSent : Bool := false
  terminated : Bool := false
  failure : Option String := none
  stats : Stats := {}
  usage : Option Dict := none
  stopSequence : Option String := none
  /-- Whether the turn was started. -/
  started : Bool := false
  /-- The events written, in order. -/
  written : List Outgoing := []
  link : σ

/-- The bytes an event takes on the wire: `event: `, the name, a newline and `data: `, the
data, and a blank line. -/
def frameSize (name : String) (data : ByteArray) : Nat := 16 + name.utf8ByteSize + data.size

/-- The data of the stream's opening `message_start`. -/
def messageStartData (messageId model : String) : ByteArray :=
  Writer.object [("type", Writer.str "message_start"),
    ("message", MessageResponse.json { id := messageId, content := [], model := model })]

/-- The data of the opening of text block 0. -/
def blockStartData : ByteArray :=
  Writer.object [("type", Writer.str "content_block_start"), ("index", Writer.int 0),
    ("content_block", ContentBlock.json ⟨"text", ""⟩)]

/-- The data of a text delta on block 0. -/
def textDeltaData (text : String) : ByteArray :=
  Writer.object [("type", Writer.str "content_block_delta"), ("index", Writer.int 0),
    ("delta", ContentBlock.json ⟨"text_delta", text⟩)]

/-- The data of the closing of block 0. -/
def blockStopData : ByteArray :=
  Writer.object [("type", Writer.str "content_block_stop"), ("index", Writer.int 0)]

/-- The data of the message's close. -/
def messageStopData : ByteArray := Writer.object [("type", Writer.str "message_stop")]

/-- The data of an `error` event. -/
def errorData (message : String) : ByteArray :=
  Writer.object [("type", Writer.str "error"),
    ("error", Writer.object [("type", Writer.str "api_error"), ("message", Writer.str message)])]

/-- Sums usage counters across model turns: a number added to a number is summed, any other
value replaces the one before. An absent or empty `turn` changes nothing. -/
def addUsage (total turn : Option Dict) : Option Dict :=
  match turn with
  | none | some [] => total
  | some t =>
    some (t.foldl (fun acc (k, v) =>
      match v, acc.get? k with
      | .number n, some (.number p) => acc.insert k (.number (p + n))
      | _, _ => acc.insert k v) (total.getD []))

namespace Session

variable {σ : Type} (lk : Link σ)

/-- Takes in what one write reported, with the world after it: when it went through, its `n`
bytes are counted; a client that left ends all writing; any other failure is remembered, the
first one winning, and closes the session. Says whether the write went through. -/
def safeWrite (s : SessionState σ) (r : WriteOutcome × σ) (n : Nat) : Bool × SessionState σ :=
  match r with
  | (.ok, link) =>
    (true, { s with link := link, stats := { s.stats with bytesSent := s.stats.bytesSent + n } })
  | (.gone, link) => (false, { s with link := link, clientGone := true })
  | (.failed m, link) =>
    (false, { s with link := link, failure := some (s.failure.getD m), phase := .closed })

/-- Writes one event unless the session is closed or the client gone; says whether it was
written. -/
def writeEvent (s : SessionState σ) (name : String) (data : ByteArray) : Bool × SessionState σ :=
  if s.phase = .closed || s.clientGone then (false, s)
  else
    match safeWrite s (lk.write s.link name data) (frameSize name data) with
    | (true, s) =>
      (true, { s with
        stats := { s.stats with eventsForwarded := s.stats.eventsForwarded + 1 }
        written := s.written ++ [⟨name, data⟩] })
    | (false, s) => (false, s)

/-- The bytes a keepalive takes on the wire: `: keepalive` and a blank line. -/
def keepaliveSize : Nat := 13

/-- One keepalive tick: a comment is written unless the client is gone or the session closed. -/
def keepalive (s : SessionState σ) : SessionState σ :=
  if s.clientGone || s.phase = .closed then s
  else
    match safeWrite s (lk.comment s.link "keepalive") keepaliveSize with
    | (true, s) => { s with stats := { s.stats with keepalivesSent := s.stats.keepalivesSent + 1 } }
    | (false, s) => s

/-- Waits for the turn's next result, or for its end: the keepalive ticks that fire meanwhile are
handled one after another. -/
def wait (s : SessionState σ) : SessionState σ := (lk.ticks s.link).repeat (keepalive lk) s

/-- Records a failure, the first one winning, and tells the client once if it can still be
written to. The session is closed afterwards. -/
def fail (s : SessionState σ) (err : String) : SessionState σ :=
  let s := { s with failure := some (s.failure.getD err) }
  let s :=
    if !s.clientGone && !s.errorSent && s.phase != .closed then
      (writeEvent lk { s with errorSent := true } "error" (errorData err)).2
    else s
  { s with phase := .closed }

/-- The wording of a failure to encode the closing message delta. -/
def encodeFailure (m : String) : String := (RemapError.encode m).message

/-- Closes block 0 and the message, once. -/
def writeTerminal (s : SessionState σ) : SessionState σ :=
  if s.terminated then s
  else
    let s := (writeEvent lk { s with terminated := true } "content_block_stop" blockStopData).2
    match endTurnDelta s.stopSequence s.usage with
    | .error m => { s with failure := some (encodeFailure m) }
    | .ok data =>
      let s := (writeEvent lk s "message_delta" data).2
      (writeEvent lk s "message_stop" messageStopData).2

/-- What becomes of a remapped event in the one message the client sees: written (perhaps
moved onto block 0), or absorbed into the session. -/
def fold (s : SessionState σ) (ev : Event) (out : Outgoing) : Option Outgoing × SessionState σ :=
  match ev with
  | .blockDelta _ index deltaType text =>
    if deltaType != "text_delta" then (none, s)
    else if index == 0 then (some out, s)
    else (some ⟨out.name, textDeltaData text⟩, s)
  | .messageDelta _ _ stopSequence usage =>
    (none, { s with
      usage := addUsage s.usage usage
      stopSequence := if stopSequence.isSome then stopSequence else s.stopSequence })
  | _ => (none, s)

/-- Whether an event is a delta with text. -/
def carriesText : Event → Bool
  | .blockDelta _ _ _ text => text != ""
  | _ => false

/-- Handles one event of the turn. -/
def handleEvent (s : SessionState σ) (ev : Event) : SessionState σ :=
  match remap (some ev) s.hidden with
  | .error e => fail lk s e.message
  | .ok (none, hidden) =>
    { s with hidden := hidden,
             stats := { s.stats with eventsSuppressed := s.stats.eventsSuppressed + 1 } }
  | .ok (some out, hidden) =>
    match fold { s with hidden := hidden } ev out with
    | (none, s) => { s with stats := { s.stats with eventsFolded := s.stats.eventsFolded + 1 } }
    | (some o, s) =>
      match writeEvent lk s o.name o.data with
      | (true, s) =>
        if carriesText ev then
          { s with stats := { s.stats with textEventsForwarded := s.stats.textEventsForwarded + 1 } }
        else s
      | (false, s) => s

/-- Handles one result of the turn. Only stream events matter; complete messages repeat what
the events carried. -/
def handle (s : SessionState σ) : Item → SessionState σ
  | .failure e => fail lk s e.message
  | .message (.streamEvent _ _ (some ev)) => handleEvent lk s ev
  | .message _ => s

/-- Consumes the turn's results in order, waiting before each one and for the end. -/
def pump (s : SessionState σ) (results : List Item) : SessionState σ :=
  wait lk (results.foldl (fun s item => handle lk (wait lk s) item) s)

end Session

/-- What a session tells when it ends. -/
structure Summary where
  outcome : Outcome
  stats : Stats
  /-- The first failure; absent unless the outcome is `upstreamError`. -/
  error : Option String
  deriving Inhabited

/-- The summary of a session in its final state. -/
def SessionState.summary {σ : Type} (s : SessionState σ) : Summary :=
  match s.failure with
  | some e => ⟨.upstreamError, s.stats, some e⟩
  | none =>
    if s.clientGone then ⟨.clientGone, s.stats, none⟩
    else if s.stats.textEventsForwarded = 0 then ⟨.empty, s.stats, none⟩
    else ⟨.completed, s.stats, none⟩

/-- The events a recorder is told about: each written event's name and size on the wire. -/
def SessionState.forwarded {σ : Type} (s : SessionState σ) : List (String × Nat) :=
  s.written.map fun o => (o.name, frameSize o.name o.data)

/-- How a session's run ended: with a summary, or aborted by the start. -/
inductive Ending where
  | returned (r : Summary)
  | panicked (message : String)
  deriving Inhabited

namespace Session

variable {σ : Type} (lk : Link σ)

/-- Runs a session over `link`: the opening, the turn with `prompt` and `opts`, the close. The
reply message gets id `messageId` and names `model`. -/
def run (link : σ) (messageId model : String) (prompt : ByteArray) (opts : TurnOptions) :
    Ending × SessionState σ :=
  let s : SessionState σ := { link := link }
  let s := (writeEvent lk s "message_start" (messageStartData messageId model)).2
  let s := (writeEvent lk s "content_block_start" blockStartData).2
  if s.clientGone then
    let s := { s with phase := .closed }
    (.returned s.summary, s)
  else
    let s := { s with phase := .streaming, started := true }
    match lk.start s.link prompt opts with
    | (.panicked m, link) => (.panicked m, { s with link := link })
    | (.failed e, link) =>
      let s := fail lk { s with link := link } (startFailure e.message)
      (.returned s.summary, s)
    | (.items results, link) =>
      let s := pump lk { s with link := link } results
      let s := { s with phase := .draining }
      let s := if !s.clientGone && !s.errorSent && s.failure.isNone then writeTerminal lk s else s
      let s := { s with phase := .closed }
      (.returned s.summary, s)

end Session

end TurnRelay.Stream
