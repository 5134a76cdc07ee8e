import Mathlib
import TurnRelay.Http.Gateway
import TurnRelay.Proofs.Http.Wire
import TurnRelay.Proofs.Admission.SlotCounts

/-!
# How a messages request is answered

A request for the messages endpoint meets admission control first, when it is on; then its body
is read and decoded, and the conversation becomes a turn, answered with one reply message or as
a stream. `Answer` says, for each way this can go, what the client gets, how often the provider
was started, and how the request is counted:

* turned away by admission control: `429` with the rate-limit envelope and no start; the request
  is counted as rejected, and not among the answered requests;
* a body that cannot be read, or that is no request: `500` with an envelope that carries the
  failure, and no start; the second is counted once, as `unknown` with no model;
* a reply message: one start, then `200` with the message or `500` with the turn's error;
* a stream: at most one start, then `200` with `text/event-stream` and a body made of exactly the
  frames the session wrote, however the session ended.

A request answered with a turn is counted once, with the status the client got.
`messages_request_answered_once` says that the gateway answers every `POST` to the messages
endpoint so, when nothing holds the turn as the request arrives. (The gateway answers one request
at a time, so a request that finds the turn taken is one whose client gave up waiting.)

The provider's starts are seen through `Backend.counted`, a backend that keeps the number of
turns it started beside its state.
-/

namespace TurnRelay.Telemetry.Metrics

open TurnRelay.Admission

/-- A change of the metrics that leaves the request counts alone leaves them alone when folded over
a list. -/
theorem requests_foldl {α : Type} (g : Metrics → α → Metrics)
    (hg : ∀ m a, (g m a).requests = m.requests) (l : List α) (m : Metrics) :
    (l.foldl g m).requests = m.requests := by
  induction l generalizing m with
  | nil => rfl
  | cons a l ih => rw [List.foldl_cons, ih, hg]

@[simp] theorem observeAll_requests (m : Metrics) (signals : List Signal) :
    (m.observeAll signals).requests = m.requests :=
  requests_foldl _ (fun m sig => by cases sig <;> rfl) signals m

end TurnRelay.Telemetry.Metrics

namespace TurnRelay.Http

open TurnRelay.Admission TurnRelay.Telemetry TurnRelay.Stream TurnRelay.Api TurnRelay.Assistant

variable {π : Type}

/-- The backend `be` with the number of turns it started kept beside its state. -/
def Backend.counted (be : Backend π) : Backend (π × Nat) where
  start a prompt opts :=
    let (started, a') := be.start a.1 prompt opts
    (started, (a', a.2 + 1))

@[simp] theorem Backend.counted_start (be : Backend π) (a : π × Nat) (prompt : ByteArray)
    (opts : TurnOptions) :
    be.counted.start a prompt opts =
      ((be.start a.1 prompt opts).1, ((be.start a.1 prompt opts).2, a.2 + 1)) := rfl

/-! ## Header fields -/

namespace Headers

/-- Where a field is looked up after a set: the value set, at the name set, and as before at every
other name. -/
theorem find?_set (h : Headers) (name value k : String) :
    (h.set name value).find? (·.1 == k) =
      if k = canonicalKey name then some (k, [value]) else h.find? (·.1 == k) := by
  -- a set keeps the name of every entry
  have hkeys : ((·.1 == k) ∘ fun (e : String × List String) =>
      if e.1 == canonicalKey name then (e.1, [value]) else (e.1, e.2)) = (·.1 == k) := by
    funext e
    simp only [Function.comp_apply]
    split <;> rfl
  unfold set
  dsimp only
  split_ifs with hany hk hk
  · obtain ⟨e0, he0, hp⟩ := List.any_eq_true.1 hany
    obtain ⟨e, he⟩ := Option.isSome_iff_exists.1
      (List.find?_isSome.2 ⟨e0, he0, by simpa [hk] using hp⟩ : (h.find? (·.1 == k)).isSome)
    have hek : e.1 = k := by simpa using List.find?_some he
    rw [List.find?_map, hkeys, he]
    simp [hek, hk]
  · rw [List.find?_map, hkeys]
    rcases hf : h.find? (·.1 == k) with _ | e
    · rw [hf]
      rfl
    · have hek : e.1 = k := by simpa using List.find?_some hf
      rw [hf]
      simp [hek, hk]
  · subst hk
    have hfind : h.find? (·.1 == canonicalKey name) = none :=
      List.find?_eq_none.2 fun e he hp => hany (List.any_eq_true.2 ⟨e, he, hp⟩)
    simp [List.find?_append, hfind]
  · rw [List.find?_append]
    rcases hf : h.find? (·.1 == k) with _ | e
    · rw [hf]
      simp [Ne.symm hk]
    · rw [hf]
      rfl

/-- A field reads back as it was set. -/
@[simp] theorem get_set_self (h : Headers) (name value : String) :
    (h.set name value).get name = value := by
  simp [get, find?_set]

/-- Setting one field leaves every field of another name as it was. -/
theorem get_set_of_ne (h : Headers) {name name' : String} (value : String)
    (hne : canonicalKey name ≠ canonicalKey name') : (h.set name value).get name' = h.get name' := by
  simp [get, find?_set, Ne.symm hne]

end Headers

/-! ## A fresh response -/

/-- A response on which nothing has been sent yet, that can be flushed, and whose every write goes
through. -/
structure Conn.Fresh (c : Conn) : Prop where
  unsent : c.sent = none
  empty : c.body = .empty
  faultless : ∀ n, c.fault n = none
  flushable : c.canFlush = true

/-- A new response is fresh. -/
theorem Conn.fresh_empty : ({} : Conn).Fresh := ⟨rfl, rfl, fun _ => rfl, rfl⟩

namespace Conn.Fresh

variable {c : Conn}

theorem setHeader (h : c.Fresh) (name value : String) : (c.setHeader name value).Fresh :=
  ⟨h.unsent, h.empty, h.faultless, h.flushable⟩

/-- On a fresh response the client gets the status given and the bytes of one write. -/
theorem write_status (h : c.Fresh) (status : Nat) (bytes : ByteArray) :
    ((c.writeHeader status).write bytes).2.status = status ∧
      ((c.writeHeader status).write bytes).2.body = bytes := by
  simp [Conn.writeHeader, Conn.write, Conn.status, h.unsent, h.empty, h.faultless]

theorem replyJSON (h : c.Fresh) (status : Nat) (body : ByteArray) :
    (c.replyJSON status body).status = status ∧ (c.replyJSON status body).body = body.push 0x0A :=
  (h.setHeader _ _).write_status _ _

theorem replyError (h : c.Fresh) (reqId : String) (f : Failure) (m : String) :
    (c.replyError reqId f m).status = f.status ∧
      (c.replyError reqId f m).body = (errorBody f m).push 0x0A := by
  unfold Conn.replyError
  split
  · exact ((h.setHeader _ _).setHeader _ _).write_status _ _
  · exact (h.setHeader _ _).write_status _ _

/-- A fresh response can be committed to streaming: status `200` goes out with the stream's content
type, and nothing is written yet. -/
theorem openStream (h : c.Fresh) (reqId : String) :
    ∃ oc, Http.openStream c reqId = .ok oc ∧ oc.sent = some (200, oc.header) ∧
      oc.header.get "Content-Type" = "text/event-stream" ∧ oc.body = .empty ∧
      ∀ n, oc.fault n = none := by
  -- the fields set after the content type have other names
  have hcc : canonicalKey "Cache-Control" ≠ canonicalKey "Content-Type" := by decide
  have hcn : canonicalKey "Connection" ≠ canonicalKey "Content-Type" := by decide
  have hxa : canonicalKey "X-Accel-Buffering" ≠ canonicalKey "Content-Type" := by decide
  have hxr : canonicalKey "X-Request-ID" ≠ canonicalKey "Content-Type" := by decide
  unfold Http.openStream
  simp only [h.flushable, Bool.not_true, Bool.false_eq_true, ↓reduceIte]
  split <;>
    refine ⟨_, rfl, ?_, ?_, ?_, ?_⟩ <;>
    simp [Conn.flush, Conn.writeHeader, Conn.setHeader, h.unsent, h.empty, h.faultless,
      Headers.get_set_of_ne _ _ hcc, Headers.get_set_of_ne _ _ hcn, Headers.get_set_of_ne _ _ hxa,
      Headers.get_set_of_ne _ _ hxr]

end Conn.Fresh

/-! ## What the requests counted are -/

namespace Server

/-- The requests counted so far, by mode, model family and status; none while metrics are off. -/
def requests (s : Server π) : Option (Tally (String × String × String)) :=
  s.metrics.map (·.requests)

variable (s : Server π)

theorem requests_count {f : Metrics → Metrics} (hf : ∀ m, (f m).requests = m.requests) :
    (s.count f).requests = s.requests := by
  simp [requests, count, Option.map_map, Function.comp_def, hf]

@[simp] theorem requests_record (mode model status : String) :
    (s.record mode model status).requests = s.requests.map (·.bump (mode, model, status)) := by
  simp [requests, record, count, Option.map_map, Function.comp_def, Metrics.recordRequest]

@[simp] theorem requests_signal (signals : List Signal) : (s.signal signals).requests = s.requests :=
  s.requests_count fun m => m.observeAll_requests signals

@[simp] theorem requests_join : s.join.2.2.requests = s.requests :=
  s.requests_signal _

@[simp] theorem requests_finish (e : TaskEnd) : (s.finish e).requests = s.requests :=
  s.requests_signal _

/-- A task that joins an empty queue holds the turn at once. -/
theorem join_granted (hfree : s.queue = {}) : s.join.2.1 = true := by
  simp [join, hfree, Queue.enqueue, Queue.dispatch]

/-- Joining an empty queue: the task holds the turn at once, and neither the assistant nor the
request counts change. -/
theorem join_free (hfree : s.queue = {}) :
    ∃ t s₁, s.join = (t, true, s₁) ∧ s₁.assistant = s.assistant ∧ s₁.requests = s.requests :=
  ⟨_, _, Prod.ext rfl (Prod.ext (s.join_granted hfree) rfl), rfl, s.requests_join⟩

end Server

/-! ## A streamed session -/

namespace Exchange

variable {sh : Nat × Headers}

/-- Sending a frame touches only the connection, and what was sent with the status stays. -/
theorem send_keeps (x : Exchange π) (frame : ByteArray) (hs : x.conn.sent = some sh) :
    (x.send frame).2.assistant = x.assistant ∧ (x.send frame).2.conn.sent = some sh := by
  have hwrite : (x.conn.write frame).2.sent = some sh := by
    unfold Conn.write
    simp only [Conn.writeHeader, hs, Option.isSome_some, ↓reduceIte]
    split <;> rfl
  unfold send
  split
  · exact ⟨rfl, hs⟩
  · rcases hw : x.conn.write frame with ⟨_ | f, c⟩ <;> rw [hw] at hwrite <;> dsimp only at hwrite
    · exact ⟨rfl, by simp [Conn.flush, Conn.writeHeader, hwrite]⟩
    · dsimp only
      split <;> exact ⟨rfl, hwrite⟩

/-- The assistant of an exchange is `a`, and its status and header went out as `sh`. -/
def Kept (x : Exchange π) (a : π) (sh : Nat × Headers) : Prop :=
  x.assistant = a ∧ x.conn.sent = some sh

variable {be : Backend π} {leaves : Bool} {s t : SessionState (Exchange π)} {a : π}

/-- Along the steps of a session the assistant stays as it was, and so does what was sent with
the status. -/
theorem Kept.of_steps (h : Session.Steps (link be leaves) s t) (hs : s.link.Kept a sh) :
    t.link.Kept a sh :=
  h.link_keep (P := fun w => w.Kept a sh)
    (fun w _ _ ⟨ha, hw⟩ => ⟨(w.send_keeps _ hw).1.trans ha, (w.send_keeps _ hw).2⟩)
    (fun w _ ⟨ha, hw⟩ => ⟨(w.send_keeps _ hw).1.trans ha, (w.send_keeps _ hw).2⟩) hs

theorem Kept.finishTurn (hs : s.link.Kept a sh) :
    (Session.finishTurn (link be leaves) s).link.Kept a sh := by
  obtain ⟨t, hsteps, heq⟩ := Session.finishTurn_steps (link be leaves) s
  rw [heq]
  exact (Kept.of_steps hsteps hs : t.link.Kept a sh)

end Exchange

section Run

variable (be : Backend π) (leaves : Bool) (x : Exchange π) (messageId model : String)
  (prompt : ByteArray) (opts : TurnOptions)

/-- A streamed session starts its turn at most once: the assistant ends as it was, or as one start
left it. The status and header it found sent stay as they were. -/
theorem run_start_once {sh : Nat × Headers} (hs : x.conn.sent = some sh) :
    let st := (Session.run (Exchange.link be leaves) x messageId model prompt opts).2
    st.link.Kept x.assistant sh ∨ st.link.Kept (be.start x.assistant prompt opts).2 sh := by
  have opened : (Session.opening (Exchange.link be leaves) x messageId model).link.Kept
      x.assistant sh :=
    Exchange.Kept.of_steps (Session.opening_steps _) ⟨rfl, hs⟩
  rw [Session.run_snd]
  dsimp only
  split
  · exact .inl opened
  · -- the start changes the assistant, and nothing after it does
    split
    all_goals
      rename_i w hstart
      have hw : w.Kept (be.start x.assistant prompt opts).2 sh := by
        obtain rfl := congrArg Prod.snd hstart
        exact ⟨congrArg (fun a => (be.start a prompt opts).2) opened.1, opened.2⟩
    · exact .inr hw
    · exact .inr (Exchange.Kept.of_steps (Session.fail_steps _ _) hw)
    · exact .inr (Exchange.Kept.finishTurn (Exchange.Kept.of_steps (Session.pump_steps _ _) hw))

end Run

/-! ## The answers -/

/-- What a client that does not stream gets for its turn: `200` with the reply message, or `500`
with the turn's error. -/
def Replied (c : Conn) : Except String MessageResponse → Prop
  | .ok resp => c.status = 200 ∧ c.body = resp.json.push 0x0A
  | .error m => c.status = 500 ∧ c.body = (errorBody .api m).push 0x0A

/-- The requests counted, by mode, model family and status. -/
abbrev RequestCounts := Option (Tally (String × String × String))

/-- How the messages handler answers a request `r` that got past admission control, seen from
outside: the response `c'` the client gets, the assistant going from `a` to `a'` (its second part
counts the provider's starts), and the request counts going from `counts` to `counts'`. -/
inductive Handled (be : Backend π) (cfg : Settings) (r : Request) (draws : Draws) (a : π × Nat)
    (counts : RequestCounts) (c' : Conn) (a' : π × Nat) (counts' : RequestCounts) : Prop
  /-- The body could not be read: `500` with the failure, and no start. -/
  | unreadable (e : String) (hread : r.readBody = .error e) (status : c'.status = 500)
      (body : c'.body = (errorBody .api ("Failed to read request body: " ++ e)).push 0x0A)
      (unstarted : a' = a)
  /-- The body is no request: `500` with the failure, no start, and counted once as `unknown`
  with no model. -/
  | undecodable (raw : ByteArray) (e : RequestError) (hread : r.readBody = .ok raw)
      (hdecode : InboundRequest.decode raw = .error e) (status : c'.status = 500)
      (body : c'.body = (errorBody .api e.message).push 0x0A) (unstarted : a' = a)
      (counted : counts' = counts.map (·.bump ("unknown", "", toString c'.status)))
  /-- A reply message: the provider is started once, the client gets the reply or the turn's
  error, and the request is counted once as `json`. -/
  | replied (raw : ByteArray) (req : InboundRequest) (hread : r.readBody = .ok raw)
      (hdecode : InboundRequest.decode raw = .ok req) (hjson : req.stream = false)
      (startedOnce : a' =
        ((be.start a.1 (prepareTurn req cfg.base).1 (prepareTurn req cfg.base).2).2, a.2 + 1))
      (shown : Replied c' (replyOf (be.start a.1 (prepareTurn req cfg.base).1
        (prepareTurn req cfg.base).2).1 draws.messageId req.model).2)
      (counted : counts' = counts.map (·.bump ("json", mapModel req.model, toString c'.status)))
  /-- A stream: the response is committed with status `200` before the session runs over it; the
  client gets `text/event-stream` and exactly the frames the session sent, however it ended; the
  request is counted once as `stream`. -/
  | streamed (raw : ByteArray) (req : InboundRequest) (hread : r.readBody = .ok raw)
      (hdecode : InboundRequest.decode raw = .ok req) (hstream : req.stream = true)
      (x : Exchange (π × Nat)) (committed : x.conn.sent = some (200, x.conn.header))
      (hbody : x.conn.body = .empty) (hsound : ∀ n, x.conn.fault n = none)
      (hgone : x.clientGone = r.leftEarly) (hassistant : x.assistant = a)
      (run : let st := (Session.run (Exchange.link be.counted r.leavesOnStart) x draws.messageId
          req.model (prepareTurn req cfg.base).1 (prepareTurn req cfg.base).2).2;
        a' = st.link.assistant ∧
          ∃ sent, c'.body.data.toList = streamBytes sent ∧ sent.filterMap id = st.written)
      (status : c'.status = 200)
      (contentType : c'.shownHeader.get "Content-Type" = "text/event-stream")
      (counted : counts' = counts.map (·.bump ("stream", mapModel req.model, toString c'.status)))

/-- How the gateway answers a request for the messages endpoint that finds it in state `s`, with
the response `c'` and the state `s'` after. -/
inductive Answer (be : Backend π) (cfg : Settings) (s : Server (π × Nat)) (r : Request)
    (draws : Draws) (c' : Conn) (s' : Server (π × Nat)) : Prop
  /-- Admission control turned the request away: `429` with the rate-limit envelope and no start;
  the request is counted as rejected, and not among the answered requests. -/
  | rejected (limit : Int) (hlimit : cfg.admissionLimit = some limit)
      (hfull : (s.slots.acquire (clientOf r.headers r.remoteAddr) limit).1.admitted = false)
      (status : c'.status = 429)
      (body : c'.body = (errorBody .rateLimit (tooManyPending limit)).push 0x0A)
      (unstarted : s'.assistant = s.assistant)
      (metrics : s'.metrics = s.metrics.map Metrics.rejectAdmission)
  /-- The request got past admission control, and the handler answered it. -/
  | handled (hpass : ∀ limit, cfg.admissionLimit = some limit →
        (s.slots.acquire (clientOf r.headers r.remoteAddr) limit).1.admitted = true)
      (h : Handled be cfg r draws s.assistant s.requests c' s'.assistant s'.requests)

/-! ## The paths of a messages request -/

namespace Server

section Paths

variable (be : Backend π) (cfg : Settings) (r : Request) (reqId : String) (draws : Draws)
  (c : Conn)

theorem messages_unreadable (s : Server π) {e : String} (h : r.readBody = .error e) :
    s.messages be cfg r reqId draws c =
      (c.replyError reqId .api ("Failed to read request body: " ++ e), s) := by
  simp [messages, h]

theorem messages_undecodable (s : Server π) {raw : ByteArray} {e : RequestError}
    (h : r.readBody = .ok raw) (hd : InboundRequest.decode raw = .error e) :
    s.messages be cfg r reqId draws c =
      (c.replyError reqId .api e.message, s.record "unknown" "" "500") := by
  simp [messages, h, hd]

theorem messages_turn (s : Server π) {raw : ByteArray} {req : InboundRequest}
    (h : r.readBody = .ok raw) (hd : InboundRequest.decode raw = .ok req) :
    s.messages be cfg r reqId draws c =
      if req.stream then
        s.streamTurn be r reqId draws req (prepareTurn req cfg.base).1 (prepareTurn req cfg.base).2 c
      else s.replyTurn be reqId draws req (prepareTurn req cfg.base).1 (prepareTurn req cfg.base).2 c := by
  simp [messages, h, hd]

end Paths

/-- A reply turn on a free queue: the provider is started once, the client gets the reply message
or the turn's error, and the request is counted once with the status sent. -/
theorem replyTurn_answer (be : Backend π) (s : Server (π × Nat)) (reqId : String) (draws : Draws)
    (req : InboundRequest) (prompt : ByteArray) (opts : TurnOptions) {c : Conn}
    (hfree : s.queue = {}) (hc : c.Fresh) :
    let answer := s.replyTurn be.counted reqId draws req prompt opts c
    answer.2.assistant = ((be.start s.assistant.1 prompt opts).2, s.assistant.2 + 1) ∧
      Replied answer.1 (replyOf (be.start s.assistant.1 prompt opts).1 draws.messageId req.model).2 ∧
      answer.2.requests = s.requests.map (·.bump ("json", mapModel req.model, toString answer.1.status)) := by
  obtain ⟨t, s₁, hj, ha, hn⟩ := s.join_free hfree
  unfold replyTurn
  rw [hj]
  simp only [Bool.not_true, Bool.false_eq_true, ↓reduceIte, Backend.counted_start, ha]
  rcases hr : replyOf (be.start s.assistant.1 prompt opts).1 draws.messageId req.model with
    ⟨ending, m | resp⟩
  · -- the turn failed: its error, with status 500
    obtain ⟨hs, hb⟩ := hc.replyError reqId .api m
    refine ⟨rfl, ⟨hs, hb⟩, ?_⟩
    rw [Server.requests_record, Server.requests_finish, hs]
    exact congrArg _ hn
  · -- the turn replied: the message, with status 200
    obtain ⟨hs, hb⟩ := hc.replyJSON 200 resp.json
    refine ⟨rfl, ⟨hs, hb⟩, ?_⟩
    rw [Server.requests_record, Server.requests_finish, hs]
    exact congrArg _ hn

/-- A streamed turn on a free queue and a fresh response: the response is committed with status
`200` and the stream's content type before the session runs, the session runs over it, and its
body is then exactly the frames the session sent; the request is counted once with status `200`. -/
theorem streamTurn_answer (be : Backend π) (s : Server π) (r : Request) (reqId : String)
    (draws : Draws) (req : InboundRequest) (prompt : ByteArray) (opts : TurnOptions) {c : Conn}
    (hfree : s.queue = {}) (hc : c.Fresh) :
    let answer := s.streamTurn be r reqId draws req prompt opts c
    ∃ x : Exchange π, x.conn.sent = some (200, x.conn.header) ∧ x.conn.body = .empty ∧
      (∀ n, x.conn.fault n = none) ∧ x.clientGone = r.leftEarly ∧ x.assistant = s.assistant ∧
      (let st := (Session.run (Exchange.link be r.leavesOnStart) x draws.messageId req.model
          prompt opts).2;
        answer.2.assistant = st.link.assistant ∧
          ∃ sent, answer.1.body.data.toList = streamBytes sent ∧ sent.filterMap id = st.written) ∧
      answer.1.status = 200 ∧ answer.1.shownHeader.get "Content-Type" = "text/event-stream" ∧
      answer.2.requests =
        s.requests.map (·.bump ("stream", mapModel req.model, toString answer.1.status)) := by
  obtain ⟨t, s₁, hj, ha, hn⟩ := s.join_free hfree
  obtain ⟨oc, hopen, hsent, hct, hbody, hfault⟩ := hc.openStream reqId
  unfold streamTurn
  rw [hj]
  simp only [Bool.not_true, Bool.false_eq_true, ↓reduceIte, hopen]
  rcases hrun : Session.run (Exchange.link be r.leavesOnStart)
      { conn := oc, clientGone := r.leftEarly, assistant := s₁.assistant } draws.messageId req.model
      prompt opts with ⟨ending, st⟩
  -- the session keeps the status and header sent, and puts only its frames on the body
  have hkept := run_start_once be r.leavesOnStart
    { conn := oc, clientGone := r.leftEarly, assistant := s₁.assistant } draws.messageId req.model
    prompt opts hsent
  have hwire := run_onWire be r.leavesOnStart
    { conn := oc, clientGone := r.leftEarly, assistant := s₁.assistant } draws.messageId req.model
    prompt opts
  rw [hrun] at hkept hwire
  have hsent' : st.link.conn.sent = some (200, oc.header) := by
    rcases hkept with h | h <;> exact h.2
  obtain ⟨⟨sent, hb, hf⟩, -⟩ := hwire
  have hstatus : st.link.conn.status = 200 := by simp [Conn.status, hsent']
  -- the session's own counters leave the request counts alone
  have hforwarded : ∀ m : Metrics,
      (st.forwarded.foldl (fun m p => m.eventForwarded p.1 p.2) m).requests = m.requests :=
    Metrics.requests_foldl (fun m (p : String × Nat) => m.eventForwarded p.1 p.2) (fun _ _ => rfl) _
  refine ⟨{ conn := oc, clientGone := r.leftEarly, assistant := s₁.assistant }, hsent, hbody, hfault,
    rfl, ha, ?_, hstatus, by simpa [Conn.shownHeader, hsent'] using hct, ?_⟩
  · rw [hrun]
    rcases ending with summary | m <;> exact ⟨rfl, sent, by simpa [hbody] using hb, hf⟩
  · rw [Server.requests_record, Server.requests_finish, hstatus]
    rcases ending with summary | m
    · rw [Server.requests_count _ fun m => (rfl : (m.sessionFinished summary.outcome).requests = _),
        Server.requests_count _ hforwarded]
      exact congrArg _ hn
    · rw [Server.requests_count _ hforwarded]
      exact congrArg _ hn

variable (cfg : Settings) (client reqId : String) (s : Server π) (c : Conn) {limit : Int}

/-- Admission control turns a request away: the client gets the rate-limit envelope with status
`429`, the assistant is not touched, and the request is counted as rejected only. -/
theorem guarded_turned_away (inner : Server π → Conn → Conn × Server π)
    (hlimit : cfg.admissionLimit = some limit)
    (hfull : (s.slots.acquire client limit).1.admitted = false) (hc : c.Fresh) :
    let answer := s.guarded cfg client reqId inner c
    answer.1.status = 429 ∧
      answer.1.body = (errorBody .rateLimit (tooManyPending limit)).push 0x0A ∧
      answer.2.assistant = s.assistant ∧ answer.2.metrics = s.metrics.map Metrics.rejectAdmission := by
  simp only [guarded, hlimit, hfull, Bool.not_false, ↓reduceIte]
  exact ⟨((hc.setHeader _ _).setHeader _ _).replyError _ _ _ |>.1,
    ((hc.setHeader _ _).setHeader _ _).replyError _ _ _ |>.2, rfl, rfl⟩

/-- Admission control lets a request through: the handler answers it on the response with the
admission fields set, and the client's slot is given back afterwards. -/
theorem guarded_admitted (inner : Server π → Conn → Conn × Server π)
    (hlimit : cfg.admissionLimit = some limit)
    (hpass : (s.slots.acquire client limit).1.admitted = true) :
    s.guarded cfg client reqId inner c =
      let answer := inner { s with slots := (s.slots.acquire client limit).2 }
        ((c.setHeader "X-Pending-Limit" (Decimal.intText limit)).setHeader "X-Pending-Remaining"
          (Decimal.intText ((s.slots.acquire client limit).1.remaining limit)))
      (answer.1, { answer.2 with slots := answer.2.slots.release client }) := by
  simp only [guarded, hlimit, hpass, Bool.not_true, Bool.false_eq_true, ↓reduceIte]

theorem guarded_off (inner : Server π → Conn → Conn × Server π)
    (hlimit : cfg.admissionLimit = none) : s.guarded cfg client reqId inner c = inner s c := by
  simp only [guarded, hlimit]

/-- The messages endpoint takes `POST` at both its paths. -/
theorem route_messages {path : String} (h : path ∈ endpoints) :
    route "POST" path = .serve .messages := by
  simp only [endpoints, List.mem_cons, List.not_mem_nil, or_false] at h
  rcases h with rfl | rfl <;> decide

/-- A `POST` to the messages endpoint is answered by the handler under admission control, on the
response named for the request. -/
theorem serve_messages (be : Backend π) (r : Request) (draws : Draws) (hpost : r.method = "POST")
    (hpath : requestPath r.target ∈ endpoints) :
    s.serve be cfg r draws c =
      s.guarded cfg (clientOf r.headers r.remoteAddr) (r.id draws)
        (fun s c => s.messages be cfg r (r.id draws) draws c)
        (c.setHeader "X-Request-ID" (r.id draws)) := by
  simp only [serve, hpost, route_messages hpath]

end Server

/-! ## Every answer -/

section Answers

variable {be : Backend π} {cfg : Settings} {r : Request} {draws : Draws}

/-- However the handler answers, it starts the provider at most once. -/
theorem Handled.starts_le {a a' : π × Nat} {counts counts' : RequestCounts} {c' : Conn}
    (h : Handled be cfg r draws a counts c' a' counts') : a'.2 ≤ a.2 + 1 := by
  cases h with
  | unreadable _ _ _ _ unstarted => simp [unstarted]
  | undecodable _ _ _ _ _ _ unstarted => simp [unstarted]
  | replied _ _ _ _ _ startedOnce => simp [startedOnce]
  | streamed raw req _ _ _ x committed _ _ _ hassistant run =>
    -- the session starts the turn at most once
    obtain ⟨ha', -⟩ := run
    rcases run_start_once be.counted r.leavesOnStart x draws.messageId req.model
        (prepareTurn req cfg.base).1 (prepareTurn req cfg.base).2 committed with
      ⟨hkept, -⟩ | ⟨hkept, -⟩
    · rw [ha', hkept, hassistant]
      omega
    · rw [ha', hkept, hassistant, Backend.counted_start]

theorem Answer.starts_le {s : Server (π × Nat)} {c' : Conn} {s' : Server (π × Nat)}
    (h : Answer be cfg s r draws c' s') : s'.assistant.2 ≤ s.assistant.2 + 1 := by
  cases h with
  | rejected _ _ _ _ _ unstarted => simp [unstarted]
  | handled _ h => exact h.starts_le

end Answers

/-- The messages handler, on a free queue and a fresh response, answers as `Handled` says. -/
theorem messages_handled (be : Backend π) (cfg : Settings) (r : Request) (reqId : String)
    (draws : Draws) (s : Server (π × Nat)) {c : Conn} (hfree : s.queue = {}) (hc : c.Fresh) :
    let answer := s.messages be.counted cfg r reqId draws c
    Handled be cfg r draws s.assistant s.requests answer.1 answer.2.assistant answer.2.requests := by
  rcases hread : r.readBody with e | raw
  · rw [Server.messages_unreadable _ _ _ _ _ _ _ hread]
    obtain ⟨hs, hb⟩ := hc.replyError reqId .api ("Failed to read request body: " ++ e)
    exact .unreadable e hread hs hb rfl
  rcases hdecode : InboundRequest.decode raw with e | req
  · rw [Server.messages_undecodable _ _ _ _ _ _ _ hread hdecode]
    obtain ⟨hs, hb⟩ := hc.replyError reqId .api e.message
    refine .undecodable raw e hread hdecode hs hb rfl ?_
    rw [Server.requests_record, hs]
    rfl
  rw [Server.messages_turn _ _ _ _ _ _ _ hread hdecode]
  rcases hstream : req.stream
  · -- one reply message
    simp only [Bool.false_eq_true, ↓reduceIte]
    obtain ⟨hassistant, hshown, hcounted⟩ := s.replyTurn_answer be reqId draws req
      (prepareTurn req cfg.base).1 (prepareTurn req cfg.base).2 hfree hc
    exact .replied raw req hread hdecode hstream hassistant hshown hcounted
  · -- a stream
    simp only [↓reduceIte]
    obtain ⟨x, committed, hbody, hsound, hgone, hassistant, hrun, hstatus, hct, hcounted⟩ :=
      s.streamTurn_answer be.counted r reqId draws req (prepareTurn req cfg.base).1
        (prepareTurn req cfg.base).2 hfree hc
    exact .streamed raw req hread hdecode hstream x committed hbody hsound hgone hassistant hrun
      hstatus hct hcounted

/-! ## The gateway -/

/-- The gateway answers every `POST` to the messages endpoint that finds the turn free, on a fresh
response, as `Answer` says; whichever way it goes, the provider is started at most once. -/
theorem messages_request_answered_once (be : Backend π) (cfg : Settings) (s : Server (π × Nat))
    (r : Request) (draws : Draws) {c : Conn} (hpost : r.method = "POST")
    (hpath : requestPath r.target ∈ endpoints) (hc : c.Fresh) (hfree : s.queue = {}) :
    let answer := s.serve be.counted cfg r draws c
    answer.2.assistant.2 ≤ s.assistant.2 + 1 ∧ Answer be cfg s r draws answer.1 answer.2 := by
  suffices h : Answer be cfg s r draws (s.serve be.counted cfg r draws c).1
      (s.serve be.counted cfg r draws c).2 from ⟨h.starts_le, h⟩
  rw [Server.serve_messages cfg s c be.counted r draws hpost hpath]
  have hc' := hc.setHeader "X-Request-ID" (r.id draws)
  rcases hlimit : cfg.admissionLimit with _ | limit
  · -- admission control is off
    rw [Server.guarded_off _ _ _ _ _ _ hlimit]
    exact .handled (fun _ h => by simp [hlimit] at h) (messages_handled be cfg r _ draws s hfree hc')
  rcases hpass : (s.slots.acquire (clientOf r.headers r.remoteAddr) limit).1.admitted
  · -- the client has no slot to spare
    obtain ⟨hstatus, hbody, hassistant, hmetrics⟩ :=
      Server.guarded_turned_away cfg _ _ s _ _ hlimit hpass hc'
    exact .rejected limit hlimit hpass hstatus hbody hassistant hmetrics
  · -- the client takes a slot, and the handler answers on the response with the admission fields
    rw [Server.guarded_admitted cfg _ _ s _ _ hlimit hpass]
    refine .handled (fun l hl => ?_)
      (messages_handled be cfg r _ draws
        { s with slots := (s.slots.acquire (clientOf r.headers r.remoteAddr) limit).2 } hfree
        ((hc'.setHeader _ _).setHeader _ _))
    obtain rfl : limit = l := Option.some.inj (hlimit.symm.trans hl)
    exact hpass

/-- A provider whose turns give no results. -/
def silentBackend : Backend Unit := ⟨fun a _ _ => (.items [], a)⟩

/-- A request for one reply message about the conversation `hi`. -/
def helloRequest : Request :=
  { body := ("\x7b\"model\":\"claude-3-opus\",\"messages\":[\x7b\"role\":\"user\"," ++
      "\"content\":\"hi\"\x7d]\x7d").toUTF8 }

theorem hello_request_answered_once :
    helloRequest.method = "POST" ∧ requestPath helloRequest.target ∈ endpoints ∧
      ({} : Conn).Fresh ∧ ({ assistant := ((), 0) } : Server (Unit × Nat)).queue = {} ∧
      let answer := ({ assistant := ((), 0) } : Server (Unit × Nat)).serve silentBackend.counted
        { admissionLimit := some 1 } helloRequest ⟨"req_1", "msg_1"⟩ {}
      answer.2.assistant.2 ≤ 0 + 1 ∧
        Answer silentBackend { admissionLimit := some 1 } { assistant := ((), 0) } helloRequest
          ⟨"req_1", "msg_1"⟩ answer.1 answer.2 :=
  ⟨rfl, by decide, Conn.fresh_empty, rfl,
    messages_request_answered_once silentBackend { admissionLimit := some 1 }
      { assistant := ((), 0) } helloRequest ⟨"req_1", "msg_1"⟩ rfl (by decide) Conn.fresh_empty rfl⟩

/-- A request that admission control turns away is answered `429`, and is not counted among the
answered requests: no request count is kept for it. -/
theorem turned_away_request_uncounted :
    let answer := ({ metrics := some {}, assistant := () } : Server Unit).serve silentBackend
      { admissionLimit := some 0 } helloRequest ⟨"req_1", "msg_1"⟩ {}
    answer.1.status = 429 ∧ answer.2.requests = some [] := by
  have hfull : (({} : Slots).acquire (clientOf helloRequest.headers helloRequest.remoteAddr)
      0).1.admitted = false := by
    simp [Slots.acquire, Slots.pending]
  rw [Server.serve_messages _ _ _ _ _ _ rfl (by decide)]
  obtain ⟨hstatus, -, -, hmetrics⟩ := Server.guarded_turned_away { admissionLimit := some 0 } _ _
    ({ metrics := some {}, assistant := () } : Server Unit) _ _ rfl hfull
    (Conn.fresh_empty.setHeader _ _)
  refine ⟨hstatus, ?_⟩
  simp [Server.requests, hmetrics, Metrics.rejectAdmission]

end TurnRelay.Http
