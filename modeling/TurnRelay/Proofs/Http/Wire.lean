import TurnRelay.Proofs.Http.StreamReading
import TurnRelay.Proofs.Stream.Steps

/-!
# What a session puts on the wire

A session streams over an exchange by writing each frame to the connection, and a write that
does not go through adds nothing to the body. So the body of the connection is what it held
before and then the frames of what the session sent, in order: the events it wrote, with the
keepalives among them (`OnWire`). Each step of the session keeps this (`OnWire.step`), and so
does the whole run (`run_onWire`). Every event written has one of the stream's names, and each
of those is a good event name.

With the reading of a stream (`TurnRelay.Proofs.Http.StreamReading`) this says what a client
reads: exactly the events the session wrote when none of them holds a line end in its data, and
something else otherwise (`relayed_stream_reads_back_iff`). The data of most events is written
anew as one-line JSON, but a text delta on block 0 is passed on as it arrived, so a line end
inside its JSON reaches the client (`carriage_return_delta_misread`).
-/

namespace TurnRelay.Http

open TurnRelay.Stream TurnRelay.Assistant

variable {π : Type}

/-! ## Writes on the connection -/

namespace Conn

@[simp] theorem writeHeader_body (c : Conn) (status : Nat) : (c.writeHeader status).body = c.body := by
  unfold writeHeader
  split <;> rfl

@[simp] theorem flush_body (c : Conn) : c.flush.body = c.body := by
  simp [flush]

/-- A write puts its bytes on the body when it goes through, and nothing otherwise. -/
theorem write_body {c c' : Conn} {bytes : ByteArray} {f : Option WriteFault}
    (h : c.write bytes = (f, c')) : c'.body = if f.isNone then c.body ++ bytes else c.body := by
  unfold write at h
  dsimp only at h
  split at h
  · cases h
    simp
  · cases h
    simp

end Conn

namespace Exchange

/-- A frame reaches the body when its send succeeds, and nothing of it does otherwise. -/
theorem send_body {x w : Exchange π} {frame : ByteArray} {r : WriteOutcome}
    (h : x.send frame = (r, w)) :
    w.conn.body = if r = .ok then x.conn.body ++ frame else x.conn.body := by
  unfold send at h
  split at h
  · cases h
    simp
  · split at h
    · rename_i c hw
      cases h
      simp [Conn.write_body hw]
    · rename_i f c hw
      split at h <;> (cases h; simp [Conn.write_body hw])

/-- Starting the turn leaves the connection as it was. -/
theorem link_start_conn (be : Backend π) (leaves : Bool) (x : Exchange π) (prompt : ByteArray)
    (opts : TurnOptions) : ((link be leaves).start x prompt opts).2.conn = x.conn := rfl

end Exchange

/-- Every name a session gives an event is a good event name. -/
theorem goodName_of_mem_streamNames : ∀ n ∈ Session.streamNames, goodName n = true := by
  decide

/-! ## The body of the connection -/

/-- The body of the connection holds `init` and then the frames of what the session sent: the
events it wrote, in order, with keepalives among them. Every event written has one of the
stream's names. -/
structure OnWire (init : List UInt8) (s : SessionState (Exchange π)) : Prop where
  frames : ∃ sent : List (Option Outgoing),
    s.link.conn.body.data.toList = init ++ streamBytes sent ∧ sent.filterMap id = s.written
  names : ∀ o ∈ s.written, o.name ∈ Session.streamNames

namespace OnWire

variable {init : List UInt8} {s t : SessionState (Exchange π)} {be : Backend π} {leaves : Bool}

/-- A session that has written nothing yet. -/
theorem initial (x : Exchange π) :
    OnWire x.conn.body.data.toList ({ link := x } : SessionState (Exchange π)) :=
  ⟨⟨[], by simp [streamBytes], rfl⟩, by simp⟩

/-- The invariant reads only the body and the events written. -/
theorem congr (hs : OnWire init s) (hbody : t.link.conn.body = s.link.conn.body)
    (hwritten : t.written = s.written) : OnWire init t := by
  obtain ⟨⟨sent, hb, hf⟩, hn⟩ := hs
  refine ⟨⟨sent, ?_, ?_⟩, ?_⟩
  · rw [hbody]
    exact hb
  · rw [hwritten]
    exact hf
  · rw [hwritten]
    exact hn

/-- A frame sent: its bytes follow on the body, and its event, if it is one, on the events
written. -/
theorem send (hs : OnWire init s) (x : Option Outgoing)
    (hbody : t.link.conn.body = s.link.conn.body ++ sentFrame x)
    (hwritten : t.written = s.written ++ x.toList)
    (hname : ∀ o, x = some o → o.name ∈ Session.streamNames) : OnWire init t := by
  obtain ⟨⟨sent, hb, hf⟩, hn⟩ := hs
  refine ⟨⟨sent ++ [x], ?_, ?_⟩, ?_⟩
  · rw [hbody, ByteArray.data_append, Array.toList_append, hb, streamBytes_append,
      List.append_assoc]
    simp [streamBytes]
  · rw [List.filterMap_append, hf, hwritten]
    cases x <;> simp
  · rw [hwritten]
    intro o ho
    rcases List.mem_append.1 ho with ho | ho
    · exact hn o ho
    · exact hname o (by simpa using ho)

/-- Each step of the session keeps the invariant: a write that goes through adds its frame, and
nothing else touches the body or the events written. -/
theorem step (hs : OnWire init s) (h : Session.Step (Exchange.link be leaves) s t) :
    OnWire init t := by
  cases h with
  | event name data known =>
    by_cases hq : s.Quiet
    · rwa [Session.writeEvent_of_quiet _ hq]
    · rcases hw : (Exchange.link be leaves).write s.link name data with ⟨r, w⟩
      have hbody := Exchange.send_body (hw : s.link.send (eventFrame name data) = (r, w))
      rcases r with _ | _ | m
      · rw [Session.writeEvent_ok _ hq hw]
        exact hs.send (some ⟨name, data⟩) (by simpa [sentFrame] using hbody) (by simp)
          (fun o ho => by cases ho; exact known)
      · rw [Session.writeEvent_gone _ hq hw]
        exact hs.congr (by simpa using hbody) rfl
      · rw [Session.writeEvent_failed _ hq hw]
        exact hs.congr (by simpa using hbody) rfl
  | keepalive =>
    by_cases hq : s.Quiet
    · rwa [Session.keepalive_of_quiet _ hq]
    · rcases hw : (Exchange.link be leaves).comment s.link "keepalive" with ⟨r, w⟩
      have hbody := Exchange.send_body (hw : s.link.send (commentFrame "keepalive") = (r, w))
      rcases r with _ | _ | m
      · rw [Session.keepalive_ok _ hq hw]
        exact hs.send none (by simpa [sentFrame] using hbody) (by simp) (fun _ ho => by cases ho)
      · rw [Session.keepalive_gone _ hq hw]
        exact hs.congr (by simpa using hbody) rfl
      · rw [Session.keepalive_failed _ hq hw]
        exact hs.congr (by simpa using hbody) rfl
  | record link written => exact hs.congr (by rw [link]) written

theorem steps (hs : OnWire init s) (h : Session.Steps (Exchange.link be leaves) s t) :
    OnWire init t :=
  h.keep (fun hstep ha => ha.step hstep) hs

theorem finishTurn (hs : OnWire init s) :
    OnWire init (Session.finishTurn (Exchange.link be leaves) s) := by
  obtain ⟨t, hsteps, heq⟩ := Session.finishTurn_steps (Exchange.link be leaves) s
  have draining : OnWire init { s with phase := .draining } := hs.congr rfl rfl
  rw [heq]
  exact (draining.steps hsteps).congr rfl rfl

/-- On a connection that held nothing before, a client reads back exactly the events written
if and only if none of their data holds a line end. -/
theorem reads_back_iff (hs : OnWire [] s) :
    readStream s.link.conn.body.data.toList = s.written.map eventRead ↔
      ∀ o ∈ s.written, lineFree o.data.data.toList = true := by
  obtain ⟨⟨sent, hb, hf⟩, hn⟩ := hs
  rw [hb, List.nil_append, ← hf]
  exact readStream_frames_iff sent fun o ho =>
    goodName_of_mem_streamNames _ (hn o (by rwa [← hf]))

end OnWire

/-! ## The run -/

/-- Over a whole run the body of the connection holds what it held before and then the frames
of what the session sent. -/
theorem run_onWire (be : Backend π) (leaves : Bool) (x : Exchange π) (messageId model : String)
    (prompt : ByteArray) (opts : TurnOptions) :
    OnWire x.conn.body.data.toList
      (Session.run (Exchange.link be leaves) x messageId model prompt opts).2 := by
  have opened : OnWire x.conn.body.data.toList
      (Session.opening (Exchange.link be leaves) x messageId model) :=
    (OnWire.initial x).steps (Session.opening_steps _)
  rw [Session.run_snd]
  dsimp only
  split
  · exact opened.congr rfl rfl
  · -- starting the turn changes the assistant and perhaps the client, not the connection
    split
    all_goals
      rename_i w hstart
      have hconn := Exchange.link_start_conn be leaves
        { Session.opening (Exchange.link be leaves) x messageId model with
          phase := .streaming, started := true }.link prompt opts
      rw [hstart] at hconn
      dsimp only at hconn
    · exact opened.congr (by simp [hconn]) rfl
    · refine OnWire.steps ?_ (Session.fail_steps _ _)
      exact opened.congr (by simp [hconn]) rfl
    · refine OnWire.finishTurn (OnWire.steps ?_ (Session.pump_steps _ _))
      exact opened.congr (by simp [hconn]) rfl

/-! ## What a client reads -/

/-- On a connection that held nothing before the run, a client reads back exactly the events the
session wrote, in order, if and only if none of their data holds a line end. -/
theorem relayed_stream_reads_back_iff (be : Backend π) (leaves : Bool) (x : Exchange π)
    (hfresh : x.conn.body = .empty) (messageId model : String) (prompt : ByteArray)
    (opts : TurnOptions) :
    let s := (Session.run (Exchange.link be leaves) x messageId model prompt opts).2
    readStream s.link.conn.body.data.toList = s.written.map eventRead ↔
      ∀ o ∈ s.written, lineFree o.data.data.toList = true := by
  have hwire := run_onWire be leaves x messageId model prompt opts
  rw [hfresh] at hwire
  exact hwire.reads_back_iff

/-! ## A line end passed on -/

/-- The JSON of a text delta on block 0 with a CR between two of its members. The assistant's
reader keeps an event's bytes as they came, CR and all. -/
def carriageReturnDeltaJson : ByteArray :=
  ("\x7b\"type\":\"content_block_delta\",\"index\":0,\r\"delta\":" ++
    "\x7b\"type\":\"text_delta\",\"text\":\"hi\"\x7d\x7d").toUTF8

/-- An assistant whose turn yields that one delta. -/
def carriageReturnBackend : Backend Unit :=
  ⟨fun a _ _ =>
    (.items [.message (.streamEvent none "" (some
      (.blockDelta carriageReturnDeltaJson 0 "text_delta" "hi")))], a)⟩

theorem carriage_return_run_reads_back_iff :
    ({ conn := {}, assistant := () } : Exchange Unit).conn.body = .empty ∧
      let s := (Session.run (Exchange.link carriageReturnBackend false)
        ({ conn := {}, assistant := () } : Exchange Unit) "msg_ID" "m" .empty {}).2
      (readStream s.link.conn.body.data.toList = s.written.map eventRead ↔
        ∀ o ∈ s.written, lineFree o.data.data.toList = true) :=
  ⟨rfl, relayed_stream_reads_back_iff carriageReturnBackend false _ rfl "msg_ID" "m" .empty {}⟩

/-- The session writes the delta as it came: it is among the frames written before the close. -/
theorem carriageReturnDelta_written :
    ∃ t, (Session.run (Exchange.link carriageReturnBackend false)
        ({ conn := {}, assistant := () } : Exchange Unit) "msg_ID" "m" .empty {}).2 =
        Session.finishTurn (Exchange.link carriageReturnBackend false) t ∧
      (⟨"content_block_delta", carriageReturnDeltaJson⟩ : Outgoing) ∈ t.written := by
  apply Exists.intro
  constructor
  · rw [Session.run_snd]
    rfl
  · simp [Session.pump, Session.wait, Nat.repeat, Session.handle, Session.handleEvent, remap,
      Session.fold, Session.writeEvent, Session.safeWrite, Session.opening, Session.carriesText,
      verbatim, Event.kind, EventKind.name, Event.raw, Exchange.link, Exchange.sendEvent,
      Exchange.send, Conn.write, Conn.writeHeader, Conn.flush]

/-- A client does not read back what the session wrote over that assistant: the CR in the
delta's data ends a line on the wire. -/
theorem carriage_return_delta_misread :
    let s := (Session.run (Exchange.link carriageReturnBackend false)
      ({ conn := {}, assistant := () } : Exchange Unit) "msg_ID" "m" .empty {}).2
    readStream s.link.conn.body.data.toList ≠ s.written.map eventRead := by
  intro s
  have hwire : OnWire [] s :=
    run_onWire carriageReturnBackend false { conn := {}, assistant := () } "msg_ID" "m" .empty {}
  obtain ⟨t, hrun, hdelta⟩ := carriageReturnDelta_written
  have hkept : (⟨"content_block_delta", carriageReturnDeltaJson⟩ : Outgoing) ∈ s.written := by
    show _ ∈ (Session.run _ _ _ _ _ _).2.written
    rw [hrun]
    exact (Session.finishTurn_written_grow _ t).subset hdelta
  have hcr : lineFree carriageReturnDeltaJson.data.toList = false := by decide
  rw [Ne, hwire.reads_back_iff]
  intro hfree
  simp [hfree _ hkept] at hcr

end TurnRelay.Http
