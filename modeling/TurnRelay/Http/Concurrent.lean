import TurnRelay.Admission.Callers
import TurnRelay.Http.Gateway

/-!
# Requests handled at once

`Server.serve` answers one request after another. Served for real, many requests are handled at
once: each queues its turn as a task, whose body streams the turn or answers it in one reply.
A body calls the provider, which runs a process and gives a channel of results; the body reads
the channel until it is closed, which the provider does once its process has exited, and only
then ends. A streaming body whose stream cannot be opened, or whose client left during the
opening writes, ends without calling the provider.

`Handling` is the queue's calls (`Callers`) with the turn of each call's body, and
`Handling.step` takes one atomic step: a step of the queue or of a call's context, or a step of
a body (calling the provider, reading one result, the process exiting, the channel closing, the
body ending).

A body ends as the gateway's own answer over everything its channel gave: the reply
(`Body.reply`) or the streamed session (`Body.stream`).

## Main definitions

* `Body`, `Turn`, `Handling`, `Handling.Move`.
* `Handling.step`, `Handling.steps`.
* `Body.reply`, `Body.stream`.
-/

namespace TurnRelay.Http

open TurnRelay.Admission TurnRelay.Assistant TurnRelay.Stream

/-- What a task's body does with its turn: how it ends without calling the provider, when it does
not call it, and how it ends once it has read all the provider gave. -/
structure Body where
  unstarted : Option TaskEnd := none
  ending : Started → TaskEnd

/-- Where a body is in its turn. -/
inductive Turn where
  /-- The provider has not been called. -/
  | before
  /-- The channel is open: the body has read `read`, the channel has `rest` still to give, and
  the provider's process still runs when `alive`. -/
  | reading (read rest : List Item) (alive : Bool)
  /-- The turn is over, and the body ends as `e`. -/
  | over (e : TaskEnd)

/-- The calls being handled, with the turn of each call's body. -/
structure Handling where
  calls : Callers := {}
  /-- Each call's body, by ticket. -/
  bodies : List Body := []
  /-- Each body's turn, by ticket. -/
  turns : List Turn := []
  /-- What the provider gave each body that called it, in order. -/
  starts : List (Nat × Started) := []

/-- One atomic step of the handling. -/
inductive Handling.Move where
  /-- A request arrives, and its call queues a task with body `b`. -/
  | join (b : Body)
  /-- A step of the queue or of a call's context, other than joining or a body ending. -/
  | queue (a : Act)
  /-- Body `t` ends without calling the provider. -/
  | skip (t : Nat)
  /-- Body `t` calls the provider, which gives `started`. -/
  | start (t : Nat) (started : Started)
  /-- Body `t` reads the next result of its channel. -/
  | take (t : Nat)
  /-- The process of body `t`'s turn exits. -/
  | exit (t : Nat)
  /-- The channel of body `t` is closed, and the body sees it. -/
  | close (t : Nat)
  /-- Body `t` ends. -/
  | finish (t : Nat)

/-- The turn a body is in once the provider gave `started`: reading the channel of a turn that
runs, over at once for one that could not start or aborted. -/
def Body.turnOf (b : Body) : Started → Turn
  | .items results => .reading [] results true
  | started => .over (b.ending started)

namespace Handling

/-- Sets the turn of body `t`. -/
def setTurn (g : Handling) (t : Nat) (turn : Turn) : Handling :=
  { g with turns := g.turns.set t turn }

/-- Takes one atomic step; none when it cannot be taken. -/
def step (g : Handling) : Move → Option Handling
  | .join b =>
    (g.calls.step .join).map fun c =>
      { g with calls := c, bodies := g.bodies ++ [b], turns := g.turns ++ [.before] }
  | .queue a =>
    match a with
    | .join | .finish _ _ => none
    | a => (g.calls.step a).map fun c => { g with calls := c }
  | .skip t =>
    match g.calls.stages[t]?, g.bodies[t]?, g.turns[t]? with
    | some .running, some { unstarted := some e, .. }, some .before => some (g.setTurn t (.over e))
    | _, _, _ => none
  | .start t started =>
    match g.calls.stages[t]?, g.bodies[t]?, g.turns[t]? with
    | some .running, some b, some .before =>
      if b.unstarted.isNone then
        some { g.setTurn t (b.turnOf started) with starts := g.starts ++ [(t, started)] }
      else none
    | _, _, _ => none
  | .take t =>
    match g.turns[t]? with
    | some (.reading read (item :: rest) alive) =>
      some (g.setTurn t (.reading (read ++ [item]) rest alive))
    | _ => none
  | .exit t =>
    match g.turns[t]? with
    | some (.reading read rest true) => some (g.setTurn t (.reading read rest false))
    | _ => none
  | .close t =>
    -- the channel is closed only once the process has exited, and seen only once drained
    match g.turns[t]?, g.bodies[t]? with
    | some (.reading read [] false), some b => some (g.setTurn t (.over (b.ending (.items read))))
    | _, _ => none
  | .finish t =>
    match g.turns[t]? with
    | some (.over e) => (g.calls.step (.finish t e)).map fun c => { g with calls := c }
    | _ => none

/-- Takes the steps in order; none when one of them cannot be taken. -/
def steps (g : Handling) : List Move → Option Handling
  | [] => some g
  | m :: rest => (g.step m).bind fun g' => g'.steps rest

end Handling

/-! ## The gateway's bodies -/

/-- A provider that gives `started` and keeps its state as it is. -/
def Backend.giving {π : Type} (started : Started) : Backend π := ⟨fun a _ _ => (started, a)⟩

/-- The body of a request answered in one reply: the reply to what the provider gave. -/
def Body.reply (messageId model : String) : Body where
  ending started := (replyOf started messageId model).1

/-- The body of a request streamed over `c`: a stream that cannot be opened ends the body at
once; otherwise the body writes the opening and, unless its client left meanwhile, calls the
provider, and ends as the session over what it gave. -/
def Body.stream {π : Type} (c : Conn) (reqId : String) (leftEarly leavesOnStart : Bool)
    (assistant : π) (messageId model : String) (prompt : ByteArray) (opts : TurnOptions) : Body :=
  match openStream c reqId with
  | .error m => { unstarted := some (.failed m), ending := fun _ => .failed m }
  | .ok c =>
    let x : Exchange π := { conn := c, clientGone := leftEarly, assistant := assistant }
    let session (started : Started) : TaskEnd :=
      streamTaskEnd
        (Session.run (Exchange.link (Backend.giving started) leavesOnStart) x messageId model
          prompt opts).1
    -- the opening writes do not reach the provider
    let lk := Exchange.link (Backend.giving (.items []) : Backend π) leavesOnStart
    let opened := (Session.writeEvent lk (Session.writeEvent lk { link := x } "message_start"
      (messageStartData messageId model)).2 "content_block_start" blockStartData).2
    { unstarted := if opened.clientGone then some (session (.items [])) else none
      ending := session }

end TurnRelay.Http
