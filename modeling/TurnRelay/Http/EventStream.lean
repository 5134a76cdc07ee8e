import TurnRelay.Http.Exchange
import TurnRelay.Stream.Session

/-!
# Streaming events over a response

A streamed reply is a response of type `text/event-stream` whose status is committed before
the first event. Each event is one write of its frame, `event: ` and the name, a newline,
`data: ` and the data, and a blank line, and is flushed at once; so is each comment, `: ` and its
text and a blank line. A response that cannot be flushed cannot stream.

A client that has left, or whose write fails because the connection is gone, is reported as
gone, which ends the writing but is not a failure; any other failed write is.

The streamed exchange is the world a session talks to: the connection, whether the client
has left, and the assistant's state `π`.

## Main definitions

* `eventFrame`, `commentFrame`, `openStream`.
* `Exchange` with `sendEvent` and `sendComment`, and `Exchange.link`: the session's link over an
  exchange.
-/

namespace TurnRelay.Http

open TurnRelay.Stream TurnRelay.Assistant

/-- The bytes of one event on the wire. -/
def eventFrame (name : String) (data : ByteArray) : ByteArray :=
  ("event: " ++ name ++ "\ndata: ").toUTF8 ++ data ++ "\n\n".toUTF8

/-- The bytes of one comment on the wire: `: `, the text, and a blank line. -/
def commentFrame (text : String) : ByteArray := (": " ++ text ++ "\n\n").toUTF8

/-- The size of a frame is the size a session accounts for it. -/
theorem eventFrame_size (name : String) (data : ByteArray) :
    (eventFrame name data).size = frameSize name data := by
  simp only [eventFrame, ByteArray.size_append, String.toUTF8_eq_toByteArray,
    String.size_toByteArray, frameSize, String.utf8ByteSize_append]
  have h1 : "event: ".utf8ByteSize = 7 := by decide
  have h2 : "\ndata: ".utf8ByteSize = 7 := by decide
  have h3 : "\n\n".utf8ByteSize = 2 := by decide
  omega

/-- Commits a response to streaming: the stream's header fields, the request id when there is
one, status `200`, and a flush. Fails on a response that cannot be flushed, leaving it as it
was. -/
def openStream (c : Conn) (requestId : String) : Except String Conn :=
  if !c.canFlush then .error "streaming not supported"
  else
    let c := c.setHeader "Content-Type" "text/event-stream"
    let c := c.setHeader "Cache-Control" "no-cache"
    let c := c.setHeader "Connection" "keep-alive"
    let c := c.setHeader "X-Accel-Buffering" "no"
    let c := if requestId != "" then c.setHeader "X-Request-ID" requestId else c
    .ok (c.writeHeader 200).flush

/-- How the assistant starts a turn, over its state `π`. -/
structure Backend (π : Type) where
  start : π → ByteArray → TurnOptions → Started × π

/-- One streamed exchange: the response, whether the client has left, and the assistant. -/
structure Exchange (π : Type) where
  conn : Conn
  clientGone : Bool := false
  assistant : π

namespace Exchange

variable {π : Type}

/-- Writes one frame and flushes it; a client that has left is not written to. -/
def send (x : Exchange π) (frame : ByteArray) : WriteOutcome × Exchange π :=
  if x.clientGone then (.gone, x)
  else
    match x.conn.write frame with
    | (none, c) => (.ok, { x with conn := c.flush })
    | (some f, c) =>
      if f.isDisconnect then (.gone, { x with conn := c })
      else (.failed ("write sse frame: " ++ f.message), { x with conn := c })

/-- Writes one event. -/
def sendEvent (x : Exchange π) (name : String) (data : ByteArray) : WriteOutcome × Exchange π :=
  x.send (eventFrame name data)

/-- Writes one comment. -/
def sendComment (x : Exchange π) (text : String) : WriteOutcome × Exchange π :=
  x.send (commentFrame text)

/-- The link a session streams over. When `leavesOnStart`, the client goes away while the
turn is starting. -/
def link (be : Backend π) (leavesOnStart : Bool) : Link (Exchange π) where
  write := sendEvent
  comment := sendComment
  start x prompt opts :=
    let (started, a) := be.start x.assistant prompt opts
    (started, { x with assistant := a, clientGone := x.clientGone || leavesOnStart })

end Exchange

end TurnRelay.Http
