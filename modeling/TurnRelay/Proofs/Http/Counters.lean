import TurnRelay.Proofs.Http.Wire
import TurnRelay.Proofs.Stream.Sorting

/-!
# What a session's counters count

The statistics a session returns are kept by hand, one counter at a time, beside the writes
they count. Each of them agrees with what the run did:

* the events forwarded are the event writes that went through, and those the recorder is told
  about; the keepalives sent are the keepalive writes that went through;
* the bytes sent are the sizes of those events on the wire, by the session's own formula, and
  `keepaliveSize` for each keepalive; over a streamed exchange they are exactly the bytes the
  connection accepted (`run_body_size`);
* the text events forwarded are the rounds of the turn that relayed a delta with text;
* every event of the turn is counted once: suppressed, folded, relayed as a text delta, or
  failing the turn.
-/

namespace TurnRelay.Http

open TurnRelay.Stream TurnRelay.Assistant

variable {π : Type}

/-- A keepalive takes the bytes a session counts for it. -/
theorem commentFrame_keepalive_size : (commentFrame "keepalive").size = Session.keepaliveSize := by
  decide

/-! ## The bytes on the connection -/

/-- The body of the connection holds `init` bytes, and then as many as the session counted
sent. -/
def Counted (init : Nat) (s : SessionState (Exchange π)) : Prop :=
  s.link.conn.body.size = init + s.stats.bytesSent

namespace Counted

variable {init : Nat} {s t : SessionState (Exchange π)} {be : Backend π} {leaves : Bool}

/-- A send that goes through adds its frame to the body, and its size to the count; one that
does not adds nothing to either. -/
theorem move (h : Session.Move (Exchange.link be leaves) s t) (hs : Counted init s) :
    Counted init t := by
  unfold Counted at hs ⊢
  cases h with
  | event name data =>
    by_cases hq : s.Quiet
    · rwa [Session.writeEvent_of_quiet _ hq]
    · rcases hw : (Exchange.link be leaves).write s.link name data with ⟨r, w⟩
      have hbody := Exchange.send_body (hw : s.link.send (eventFrame name data) = (r, w))
      rcases r with _ | _ | m
      · rw [Session.writeEvent_ok _ hq hw]
        simp only [hbody, if_pos, ByteArray.size_append, eventFrame_size]
        omega
      · rw [Session.writeEvent_gone _ hq hw]
        simpa [hbody] using hs
      · rw [Session.writeEvent_failed _ hq hw]
        simpa [hbody] using hs
  | keepalive =>
    by_cases hq : s.Quiet
    · rwa [Session.keepalive_of_quiet _ hq]
    · rcases hw : (Exchange.link be leaves).comment s.link "keepalive" with ⟨r, w⟩
      have hbody := Exchange.send_body (hw : s.link.send (commentFrame "keepalive") = (r, w))
      rcases r with _ | _ | m
      · rw [Session.keepalive_ok _ hq hw]
        simp only [hbody, if_pos, ByteArray.size_append, commentFrame_keepalive_size]
        omega
      · rw [Session.keepalive_gone _ hq hw]
        simpa [hbody] using hs
      · rw [Session.keepalive_failed _ hq hw]
        simpa [hbody] using hs
  | record link written gone forwarded kept bytes => rw [link, bytes]; exact hs

end Counted

/-- Over a streamed exchange the connection accepted, besides what it held before, exactly the
bytes the session counted sent. -/
theorem run_body_size (be : Backend π) (leaves : Bool) (x : Exchange π) (messageId model : String)
    (prompt : ByteArray) (opts : TurnOptions) :
    (Session.run (Exchange.link be leaves) x messageId model prompt opts).2.link.conn.body.size =
      x.conn.body.size +
        (Session.run (Exchange.link be leaves) x messageId model prompt opts).2.stats.bytesSent :=
  Session.run_keep (Exchange.link be leaves) (fun h hs => Counted.move h hs)
    (fun a _ _ hst ha => by
      have hconn := congrArg (fun r => r.2.conn) hst
      simp only [Exchange.link_start_conn] at hconn
      unfold Counted at ha ⊢
      rw [← hconn]
      exact ha)
    (rfl : x.conn.body.size = x.conn.body.size + 0)

/-! ## The counters of a run -/

/-- The statistics of every run agree with what it did. Over a recorded link: the events
forwarded are the event writes that went through, and the events the recorder is told about;
the keepalives sent are the keepalive writes that went through; the bytes sent are the sizes of
the events written by the session's formula, which are the sizes the recorder is told, and
`keepaliveSize` for each keepalive; the text events forwarded are the rounds that relayed a
delta with text; and each event of the turn is counted once, suppressed, folded, relayed as a
shown text delta, or failing the turn as a message delta that cannot be written. Over a
streamed exchange, the bytes sent are the bytes the connection accepted. -/
theorem session_counters_agree :
    (∀ {σ : Type} (lk : Link σ) (link : σ) (messageId model : String) (prompt : ByteArray)
        (opts : TurnOptions),
      let R := Session.run lk.recorded (link, []) messageId model prompt opts
      let T := Session.runTrace lk link messageId model prompt opts
      let evs := streamEvents (Session.runResults lk.recorded (link, []) messageId model prompt opts)
      let sent := T.calls.filterMap Call.frame?
      R.2.stats.eventsForwarded = sent.length ∧
      R.2.stats.eventsForwarded = R.2.forwarded.length ∧
      R.2.stats.keepalivesSent = T.calls.countP Call.keptAlive ∧
      R.2.stats.bytesSent = framesSize sent + Session.keepaliveSize * R.2.stats.keepalivesSent ∧
      R.2.stats.bytesSent =
        (R.2.forwarded.map Prod.snd).sum + Session.keepaliveSize * R.2.stats.keepalivesSent ∧
      R.2.stats.textEventsForwarded = T.rounds.countP Round.relaysText ∧
      R.2.stats.eventsSuppressed = (fates evs).count .suppressed ∧
      R.2.stats.eventsFolded = (fates evs).count .folded ∧
      R.2.stats.eventsSuppressed + R.2.stats.eventsFolded + (shownDeltas evs).length +
        evs.countP (fun ev => !rendersAlone ev) = evs.length) ∧
    (∀ {π : Type} (be : Backend π) (leaves : Bool) (x : Exchange π) (messageId model : String)
        (prompt : ByteArray) (opts : TurnOptions),
      (Session.run (Exchange.link be leaves) x messageId model prompt opts).2.link.conn.body.size =
        x.conn.body.size +
          (Session.run (Exchange.link be leaves) x messageId model prompt opts).2.stats.bytesSent) := by
  refine ⟨fun lk link messageId model prompt opts => ?_, run_body_size⟩
  intro R T evs sent
  have ledger := Session.run_ledger lk link messageId model prompt opts
  have accounts := Session.run_accounts lk link messageId model prompt opts
  have sorted := Session.run_sorted lk.recorded (link, []) messageId model prompt opts
  have written : R.2.written = sent := by rw [ledger.written, accounts.calls]
  have reported : (R.2.forwarded.map Prod.snd).sum = framesSize R.2.written := by
    simp [SessionState.forwarded, framesSize, Function.comp_def]
  -- the four fates of the turn's events, counted apart, make up all of them
  have partition := Fate.count_sum (fates evs)
  rw [length_fates, count_relayed_fates, count_failed_fates] at partition
  refine ⟨by rw [ledger.forwarded, written],
    by rw [ledger.forwarded, SessionState.forwarded, List.length_map],
    by rw [ledger.kept, accounts.calls], by rw [ledger.bytes, written],
    by rw [reported, ledger.bytes], accounts.texts, sorted.suppressed, sorted.folded, ?_⟩
  rw [sorted.suppressed, sorted.folded]
  exact partition

end TurnRelay.Http
