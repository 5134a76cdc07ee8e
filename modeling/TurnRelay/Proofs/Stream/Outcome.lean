import TurnRelay.Proofs.Stream.Trace

/-!
# How a run ends

A run ends with the summary of its final state, unless starting the turn aborted it
(`Session.run_fst`). The summary reads three records of the session, in order of priority: a
failure makes the turn an upstream error and is given as its error; a client that is gone
makes it `clientGone`; and a turn with no delta of text counted is `empty`
(`summary_outcome`).

Over a recorded link each of these records agrees with what the run went through
(`Session.run_accounts`), so the outcome is said by the run's trace alone
(`run_reports_first_failure`): the turn is an upstream error exactly when the trace met a
failure, and its error is the first of them, with one exception. Closing the message writes the
block's close and then encodes the closing delta, and an encoding failure replaces a failure of
that write instead of coming after it.
-/

namespace TurnRelay.Stream

open TurnRelay.Assistant

/-! ## The summary -/

section Summary

variable {σ : Type} (s : SessionState σ)

@[simp] theorem summary_error : s.summary.error = s.failure := by
  unfold SessionState.summary
  cases s.failure with
  | some e => rfl
  | none =>
    dsimp only
    split
    · rfl
    · split <;> rfl

/-- The outcome of a session, by the priority of its records. -/
theorem summary_outcome :
    s.summary.outcome =
      if s.failure.isSome then .upstreamError
      else if s.clientGone then .clientGone
      else if s.stats.textEventsForwarded = 0 then .empty
      else .completed := by
  unfold SessionState.summary
  cases s.failure with
  | some e => rfl
  | none =>
    dsimp only
    split
    · simp [*]
    · split <;> simp [*]

theorem summary_upstreamError_iff : s.summary.outcome = .upstreamError ↔ s.failure.isSome := by
  rw [summary_outcome]
  split_ifs <;> simp_all

theorem summary_clientGone_iff :
    s.summary.outcome = .clientGone ↔ s.failure = none ∧ s.clientGone = true := by
  rw [summary_outcome]
  split_ifs <;> simp_all [Option.isSome_iff_ne_none]

theorem summary_empty_iff :
    s.summary.outcome = .empty ↔
      s.failure = none ∧ s.clientGone = false ∧ s.stats.textEventsForwarded = 0 := by
  rw [summary_outcome]
  split_ifs <;> simp_all [Option.isSome_iff_ne_none]

end Summary

namespace Session

variable {σ : Type} (lk : Link σ)

/-- A run returns the summary of its final state, unless starting the turn aborted it. -/
theorem run_fst (link : σ) (messageId model : String) (prompt : ByteArray) (opts : TurnOptions) :
    (run lk link messageId model prompt opts).1 =
        .returned (run lk link messageId model prompt opts).2.summary ∨
      ∃ m w, lk.start (opening lk link messageId model).link prompt opts = (.panicked m, w) ∧
        (run lk link messageId model prompt opts).1 = .panicked m := by
  by_cases h : (opening lk link messageId model).clientGone = true
  · left
    simp only [opening] at h
    simp only [run, h, ↓reduceIte]
  · simp only [opening, Bool.not_eq_true] at h
    simp only [run, opening, h, Bool.false_eq_true, ↓reduceIte]
    rcases hst : lk.start _ prompt opts with ⟨_ | _ | m, w⟩
    · exact .inl rfl
    · exact .inl rfl
    · exact .inr ⟨m, w, rfl, rfl⟩

/-- A run records a failure exactly when its trace met one. -/
theorem Accounts.failure_isSome_iff {T : Trace} {s : SessionState (σ × List Call)}
    (h : Accounts T s) : s.failure.isSome ↔ T.failures ≠ [] := by
  rw [h.failure]
  split
  · rename_i htwice
    have hencode : T.encode.isSome := by
      simp only [Trace.closeFailedTwice, Bool.and_eq_true] at htwice
      exact htwice.2
    obtain ⟨e, he⟩ := Option.isSome_iff_exists.1 hencode
    simp [Trace.failures, he]
  · simp

end Session

/-- How every run over a recorded link ends, said by its trace. The run returns the summary of
its final state unless starting the turn aborted it, and starts the turn at most once. Its error
is the first failure the trace met (a failed start, a failed result or an event that cannot be
passed on, a write that failed other than for a client gone, or a closing delta that cannot be
encoded), except when closing the message met two failures, where the encoding failure
replaces the failed write before it. The turn is an upstream error exactly when a failure was
met, and then only it has an error. Otherwise it is `clientGone` exactly when a call found the
client gone, and else `empty` exactly when no round relayed a delta with text. -/
theorem run_reports_first_failure {σ : Type} (lk : Link σ) (link : σ) (messageId model : String)
    (prompt : ByteArray) (opts : TurnOptions) :
    let R := Session.run lk.recorded (link, []) messageId model prompt opts
    let T := Session.runTrace lk link messageId model prompt opts
    (R.1 = .returned R.2.summary ∨
      ∃ m w, lk.start (Session.opening lk.recorded (link, []) messageId model).link.1 prompt opts =
        (.panicked m, w) ∧ R.1 = .panicked m) ∧
    R.2.link.2 = T.calls ∧
    T.calls.countP Call.isStart ≤ 1 ∧
    R.2.summary.error = (if T.closeFailedTwice then T.encode else T.failures.head?) ∧
    (R.2.summary.error = none ↔ R.2.summary.outcome ≠ .upstreamError) ∧
    (R.2.summary.outcome = .upstreamError ↔ T.failures ≠ []) ∧
    (R.2.summary.outcome = .clientGone ↔ T.failures = [] ∧ T.calls.any Call.foundGone = true) ∧
    (R.2.summary.outcome = .empty ↔
      T.failures = [] ∧ T.calls.any Call.foundGone = false ∧ T.rounds.all (fun r => !r.relaysText)) := by
  intro R T
  have accounts : Session.Accounts T R.2 := Session.run_accounts lk link messageId model prompt opts
  have ledger : Session.Ledger R.2 := Session.run_ledger lk link messageId model prompt opts
  have failed := accounts.failure_isSome_iff
  -- the summary reads the failure, the client and the text count, and each is said by the trace
  have hfailure : R.2.failure = none ↔ T.failures = [] := by
    rw [← Option.not_isSome_iff_eq_none, failed, not_not]
  have hgone : R.2.clientGone = T.calls.any Call.foundGone := by rw [ledger.gone, accounts.calls]
  have htexts : R.2.stats.textEventsForwarded = 0 ↔ T.rounds.all (fun r => !r.relaysText) := by
    simp [accounts.texts, List.countP_eq_zero]
  refine ⟨?_, accounts.calls, ?_, by rw [summary_error, accounts.failure], ?_, ?_, ?_, ?_⟩
  · rcases Session.run_fst lk.recorded (link, []) messageId model prompt opts with h | ⟨m, w, hst, h⟩
    · exact .inl h
    · rcases hs : lk.start (Session.opening lk.recorded (link, []) messageId model).link.1 prompt opts
        with ⟨st, w'⟩
      rw [Session.recorded_start lk hs] at hst
      cases hst
      exact .inr ⟨m, w', rfl, h⟩
  · rw [← accounts.calls]
    exact Session.run_starts lk link messageId model prompt opts
  · rw [summary_error, ne_eq, summary_upstreamError_iff, ← Option.not_isSome_iff_eq_none]
  · rw [summary_upstreamError_iff, failed]
  · rw [summary_clientGone_iff, hfailure, hgone]
  · rw [summary_empty_iff, hfailure, hgone, htexts]

/-- A link whose third write fails with `boom`, under a turn of two message deltas of `1e308`
output tokens each. -/
def closeFailsLink : Link Nat where
  write n _ _ := (if n = 2 then .failed "boom" else .ok, n + 1)
  start n _ _ :=
    (.items [Session.outputTokensDelta 1e308, Session.outputTokensDelta 1e308], n)

/-- Closing the message meets two failures: the write of `content_block_stop` fails with `boom`,
and the closing delta, whose summed output tokens overflow, cannot be encoded. The run's error
is the second of them, not the first failure it met. -/
theorem close_write_failure_overwritten :
    (Session.runTrace closeFailsLink 0 "msg_1" "claude" ByteArray.empty {}).failures =
        ["boom", "encode message_delta: json: unsupported value: +Inf"] ∧
      (Session.run closeFailsLink.recorded (0, []) "msg_1" "claude" ByteArray.empty {}).2.summary.error =
        some "encode message_delta: json: unsupported value: +Inf" := by
  decide +kernel

end TurnRelay.Stream
