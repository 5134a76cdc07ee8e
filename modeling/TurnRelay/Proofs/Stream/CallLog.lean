import TurnRelay.Proofs.Stream.Steps

/-!
# A failed write is the session's last call

A session calls its link for three things: to write an event, to write a keepalive comment,
and to start the turn. Once a write has failed, because the client left or for any other
reason, nothing should follow it: no further event, no error event, no closing frame, no
keepalive, and no start of a turn that has not started yet.

The discipline rests on two flags. A client that left sets `clientGone`, and every later write
is skipped for it. Any other failure closes the session, and every later write is skipped for
the phase; the failure it records also keeps the close of the message from being written. Inside
the turn nothing clears either flag (`Session.Step`), so there the discipline holds.

It breaks at the stream's opening. After its two opening writes the session starts the turn
unless the client is gone, and setting the phase to `streaming` reopens a session that one of
those writes closed. The turn is then started and its events are written after the failed
write. `failed_write_ends_calls` says the discipline holds for a run exactly when neither
opening write fails for another reason than the client leaving.

The calls are seen through `Link.recorded`, a link whose world also keeps every call made of it,
in order, with what the call reported.
-/

namespace TurnRelay.Stream

open TurnRelay.Assistant

/-- One call a session makes of its link. -/
inductive Call where
  /-- An event written, with what the write reported. -/
  | event (name : String) (data : ByteArray) (outcome : WriteOutcome)
  /-- A comment written, with what the write reported. -/
  | comment (text : String) (outcome : WriteOutcome)
  /-- The start of the turn. -/
  | start

/-- Whether a call is a write that did not go through. -/
def Call.failed : Call → Bool
  | .event _ _ r | .comment _ r => r != .ok
  | .start => false

/-- The link `lk`, whose world also keeps the calls made of it, oldest first. -/
def Link.recorded {σ : Type} (lk : Link σ) : Link (σ × List Call) where
  write w name data :=
    match lk.write w.1 name data with
    | (r, w') => (r, (w', w.2 ++ [.event name data r]))
  comment w text :=
    match lk.comment w.1 text with
    | (r, w') => (r, (w', w.2 ++ [.comment text r]))
  start w prompt opts :=
    match lk.start w.1 prompt opts with
    | (r, w') => (r, (w', w.2 ++ [.start]))
  ticks w := lk.ticks w.1

/-- No call follows a write that failed: every call but the last went through. -/
def FailureEndsCalls (calls : List Call) : Prop := ∀ c ∈ calls.dropLast, c.failed = false

/-- Whether one of the stream's two opening writes fails for another reason than the client
leaving. -/
def OpeningBreaksDown {σ : Type} (lk : Link σ) (link : σ) (messageId model : String) : Prop :=
  match lk.write link "message_start" (messageStartData messageId model) with
  | (.failed _, _) => True
  | (.ok, w) => ∃ m w', lk.write w "content_block_start" blockStartData = (.failed m, w')
  | (.gone, _) => False

/-- A session that can write nothing more inside the turn: its client is gone, or it is closed
with a failure recorded. -/
def SessionState.Halted {σ : Type} (s : SessionState σ) : Prop :=
  s.clientGone = true ∨ (s.phase = .closed ∧ s.failure.isSome)

theorem SessionState.Halted.quiet {σ : Type} {s : SessionState σ} (h : s.Halted) : s.Quiet := by
  rcases h with h | ⟨h, _⟩
  · exact .inr h
  · exact .inl h

/-- Halting reads only the client, the phase and the failure: a change that keeps the client,
closes the session if anything and forgets no failure keeps it. -/
theorem SessionState.Halted.of_flags {σ : Type} {s t : SessionState σ} (h : s.Halted)
    (gone : t.clientGone = s.clientGone) (phase : t.phase = s.phase ∨ t.phase = .closed)
    (failure : s.failure.isSome → t.failure.isSome) : t.Halted := by
  rcases h with hg | ⟨hp, hf⟩
  · exact .inl (gone.trans hg)
  · refine .inr ⟨?_, failure hf⟩
    rcases phase with phase | phase
    · exact phase.trans hp
    · exact phase

namespace Session

variable {σ : Type} (lk : Link σ)

section Halting

variable {lk} {s t : SessionState σ}

/-- A halted session stays halted: nothing inside the turn brings a client back, reopens a
session or forgets a failure. -/
theorem Step.halted (h : Step lk s t) (hs : s.Halted) : t.Halted := by
  cases h with
  | event name data => rwa [writeEvent_of_quiet _ hs.quiet]
  | keepalive => rwa [keepalive_of_quiet _ hs.quiet]
  | record _ _ gone phase failure => exact hs.of_flags gone phase failure

theorem Steps.halted (h : Steps lk s t) (hs : s.Halted) : t.Halted :=
  h.keep (fun hstep ha => hstep.halted ha) hs

end Halting

section Recorded

variable {w : σ × List Call} {w' : σ} {name : String} {data : ByteArray} {r : WriteOutcome}

theorem recorded_write (h : lk.write w.1 name data = (r, w')) :
    lk.recorded.write w name data = (r, (w', w.2 ++ [.event name data r])) := by
  simp [Link.recorded, h]

theorem recorded_comment {text : String} (h : lk.comment w.1 text = (r, w')) :
    lk.recorded.comment w text = (r, (w', w.2 ++ [.comment text r])) := by
  simp [Link.recorded, h]

theorem recorded_start {prompt : ByteArray} {opts : TurnOptions} {st : Started}
    (h : lk.start w.1 prompt opts = (st, w')) :
    lk.recorded.start w prompt opts = (st, (w', w.2 ++ [.start])) := by
  simp [Link.recorded, h]

end Recorded

/-! ## Inside the turn -/

/-- What holds of the calls so far: none follows a failed one, and after a failed one the
session has halted. -/
def CallsInv (s : SessionState (σ × List Call)) : Prop :=
  FailureEndsCalls s.link.2 ∧ ((∀ c ∈ s.link.2, c.failed = false) ∨ s.Halted)

section Inside

variable {lk}
variable {s t : SessionState (σ × List Call)}

theorem failureEndsCalls_of_ok {calls : List Call} (h : ∀ c ∈ calls, c.failed = false) :
    FailureEndsCalls calls :=
  fun c hc => h c (List.dropLast_subset _ hc)

theorem callsInv_of_ok (h : ∀ c ∈ s.link.2, c.failed = false) : CallsInv s :=
  ⟨failureEndsCalls_of_ok h, .inl h⟩

/-- One more call, made while every call before it went through. -/
theorem failureEndsCalls_append {calls : List Call} {c : Call}
    (h : ∀ c' ∈ calls, c'.failed = false) : FailureEndsCalls (calls ++ [c]) := by
  intro c' hc'
  rw [List.dropLast_concat] at hc'
  exact h c' hc'

theorem ok_append {calls : List Call} {c : Call} (h : ∀ c' ∈ calls, c'.failed = false)
    (hc : c.failed = false) : ∀ c' ∈ calls ++ [c], c'.failed = false := by
  intro c' hc'
  rcases List.mem_append.1 hc' with hc' | hc'
  · exact h c' hc'
  · rw [List.mem_singleton.1 hc']
    exact hc

/-- A step of the recorded session keeps the invariant: a write by an open session has every
call before it gone through, and if it fails it halts the session at once. -/
theorem Step.callsInv (h : Step lk.recorded s t) (hs : CallsInv s) : CallsInv t := by
  have hhalt := h.halted
  cases h with
  | event name data =>
    by_cases hq : s.Quiet
    · rwa [writeEvent_of_quiet _ hq]
    · have hok : ∀ c ∈ s.link.2, c.failed = false := hs.2.resolve_right fun hh => hq hh.quiet
      rcases hw : lk.write s.link.1 name data with ⟨_ | _ | m, w'⟩
      · rw [writeEvent_ok _ hq (recorded_write lk hw)]
        exact callsInv_of_ok (ok_append hok rfl)
      · rw [writeEvent_gone _ hq (recorded_write lk hw)]
        exact ⟨failureEndsCalls_append hok, .inr (.inl rfl)⟩
      · rw [writeEvent_failed _ hq (recorded_write lk hw)]
        exact ⟨failureEndsCalls_append hok, .inr (.inr ⟨rfl, rfl⟩)⟩
  | keepalive =>
    by_cases hq : s.Quiet
    · rwa [keepalive_of_quiet _ hq]
    · have hok : ∀ c ∈ s.link.2, c.failed = false := hs.2.resolve_right fun hh => hq hh.quiet
      rcases hw : lk.comment s.link.1 "keepalive" with ⟨_ | _ | m, w'⟩
      · rw [keepalive_ok _ hq (recorded_comment lk hw)]
        exact callsInv_of_ok (ok_append hok rfl)
      · rw [keepalive_gone _ hq (recorded_comment lk hw)]
        exact ⟨failureEndsCalls_append hok, .inr (.inl rfl)⟩
      · rw [keepalive_failed _ hq (recorded_comment lk hw)]
        exact ⟨failureEndsCalls_append hok, .inr (.inr ⟨rfl, rfl⟩)⟩
  | record link =>
    -- the calls are the same; what halted the session stays
    rw [CallsInv, link]
    exact ⟨hs.1, hs.2.imp id hhalt⟩

theorem Steps.callsInv (h : Steps lk.recorded s t) (hs : CallsInv s) : CallsInv t :=
  h.keep (fun step => step.callsInv) hs

/-- The calls of a recorded session only grow. -/
theorem Step.calls_grow (h : Step lk.recorded s t) : s.link.2 <+: t.link.2 := by
  cases h with
  | event name data =>
    by_cases hq : s.Quiet
    · simp only [writeEvent_of_quiet _ hq, List.prefix_refl]
    · rcases hw : lk.write s.link.1 name data with ⟨_ | _ | m, w'⟩
      · rw [writeEvent_ok _ hq (recorded_write lk hw)]
        exact List.prefix_append _ _
      · rw [writeEvent_gone _ hq (recorded_write lk hw)]
        exact List.prefix_append _ _
      · rw [writeEvent_failed _ hq (recorded_write lk hw)]
        exact List.prefix_append _ _
  | keepalive =>
    by_cases hq : s.Quiet
    · simp only [keepalive_of_quiet _ hq, List.prefix_refl]
    · rcases hw : lk.comment s.link.1 "keepalive" with ⟨_ | _ | m, w'⟩
      · rw [keepalive_ok _ hq (recorded_comment lk hw)]
        exact List.prefix_append _ _
      · rw [keepalive_gone _ hq (recorded_comment lk hw)]
        exact List.prefix_append _ _
      · rw [keepalive_failed _ hq (recorded_comment lk hw)]
        exact List.prefix_append _ _
  | record link => exact link ▸ List.prefix_refl _

theorem Steps.calls_grow (h : Steps lk.recorded s t) : s.link.2 <+: t.link.2 := by
  induction h with
  | refl => exact List.prefix_refl _
  | tail _ hbc ih => exact ih.trans hbc.calls_grow

/-- The calls made before a chain of steps, named by what they are. -/
theorem Steps.calls_from {calls : List Call} (h : Steps lk.recorded s t)
    (hs : s.link.2 = calls) : calls <+: t.link.2 :=
  hs ▸ h.calls_grow

/-- The close is written only by a session that has not halted, so what follows the pump keeps
the discipline. -/
theorem finishTurn_failureEndsCalls (hs : CallsInv s) :
    FailureEndsCalls (finishTurn lk.recorded s).link.2 := by
  unfold finishTurn
  dsimp only
  split
  · rename_i hdue
    simp only [Bool.and_eq_true, Bool.not_eq_eq_eq_not, Bool.not_true,
      Option.isNone_iff_eq_none] at hdue
    obtain ⟨⟨hg, -⟩, hf⟩ := hdue
    have hok : ∀ c ∈ s.link.2, c.failed = false := by
      refine hs.2.resolve_right fun hh => ?_
      rcases hh with hh | ⟨-, hh⟩
      · simp [hg] at hh
      · simp [hf] at hh
    exact ((writeTerminal_steps _).callsInv (s := { s with phase := .draining })
      (callsInv_of_ok hok)).1
  · exact hs.1

/-- What follows the pump makes calls only after those made before it. -/
theorem finishTurn_calls_grow : s.link.2 <+: (finishTurn lk.recorded s).link.2 := by
  obtain ⟨t, hsteps, heq⟩ := finishTurn_steps lk.recorded s
  rw [heq]
  exact hsteps.calls_grow

end Inside

/-! ## The opening -/

section Opening

variable {link : σ} {messageId model : String}

/-- An opening write that closes the session without the client leaving is a breakdown. -/
theorem opening_closed (hp : (opening lk link messageId model).phase = .closed)
    (hg : (opening lk link messageId model).clientGone = false) :
    OpeningBreaksDown lk link messageId model := by
  unfold opening at hp hg
  rcases h1 : lk.write link "message_start" (messageStartData messageId model) with
    ⟨_ | _ | m, w1⟩
  · rcases h2 : lk.write w1 "content_block_start" blockStartData with ⟨_ | _ | m', w2⟩
    · simp [writeEvent, h1, h2] at hp
    · simp [writeEvent, h1, h2] at hg
    · simp [OpeningBreaksDown, h1, h2]
  · simp [writeEvent, h1] at hg
  · simp [OpeningBreaksDown, h1]

/-- Recording the calls changes no outcome of the opening. -/
theorem openingBreaksDown_recorded {log : List Call} :
    OpeningBreaksDown lk.recorded (link, log) messageId model ↔
      OpeningBreaksDown lk link messageId model := by
  rcases h1 : lk.write link "message_start" (messageStartData messageId model) with
    ⟨_ | _ | m, w1⟩
  · rcases h2 : lk.write w1 "content_block_start" blockStartData with ⟨r2, w2⟩
    simp [OpeningBreaksDown, Link.recorded, h1, h2]
  · simp [OpeningBreaksDown, Link.recorded, h1]
  · simp [OpeningBreaksDown, Link.recorded, h1]

/-- After a breakdown the client is still there, and a failed write is among the calls. -/
theorem opening_broken (h : OpeningBreaksDown lk link messageId model) :
    (opening lk.recorded (link, []) messageId model).clientGone = false ∧
      ∃ c ∈ (opening lk.recorded (link, []) messageId model).link.2, c.failed = true := by
  unfold opening
  rcases h1 : lk.write link "message_start" (messageStartData messageId model) with
    ⟨_ | _ | m, w1⟩
  · simp only [OpeningBreaksDown, h1] at h
    obtain ⟨m', w2, h2⟩ := h
    simp [writeEvent, Link.recorded, h1, h2, Call.failed]
  · simp [OpeningBreaksDown, h1] at h
  · simp [writeEvent, Link.recorded, h1, Call.failed]

end Opening

/-! ## The run -/

section Run

variable {link : σ} {messageId model : String} {prompt : ByteArray} {opts : TurnOptions}

/-- When the opening holds up, no call of the run follows a failed write. -/
theorem calls_end_at_failure (h : ¬ OpeningBreaksDown lk link messageId model) :
    FailureEndsCalls (run lk.recorded (link, []) messageId model prompt opts).2.link.2 := by
  have opened : CallsInv (opening lk.recorded (link, []) messageId model) :=
    (opening_steps _).callsInv (callsInv_of_ok (by simp))
  rw [run_snd]
  dsimp only
  split
  · -- the client left during the opening, and the run ends there
    exact opened.1
  · rename_i hg
    -- otherwise every opening write went through, the turn's start included
    have hok : ∀ c ∈ (opening lk.recorded (link, []) messageId model).link.2,
        c.failed = false := by
      refine opened.2.resolve_right fun hh => h ?_
      rcases hh with hh | ⟨hp, -⟩
      · exact absurd hh hg
      · exact (openingBreaksDown_recorded lk).1 (opening_closed _ hp (by simpa using hg))
    rcases hst : lk.start (opening lk.recorded (link, []) messageId model).link.1 prompt opts with
      ⟨st, w⟩
    rw [recorded_start lk hst]
    have started := ok_append hok (c := .start) rfl
    rcases st with results | e | m
    · exact finishTurn_failureEndsCalls ((pump_steps _ _).callsInv (callsInv_of_ok started))
    · exact ((fail_steps _ _).callsInv (callsInv_of_ok started)).1
    · exact failureEndsCalls_of_ok started

/-- A call of `L` stays among all calls but the last once another call follows `L`. -/
theorem mem_dropLast_of_prefix {L M : List Call} {c x : Call} (hc : c ∈ L)
    (hp : L ++ [x] <+: M) : c ∈ M.dropLast := by
  obtain ⟨R, rfl⟩ := hp
  rw [List.append_assoc, List.singleton_append, List.dropLast_append_of_ne_nil (by simp)]
  exact List.mem_append_left _ hc

/-- When an opening write breaks down, the turn is still started after it: the failed write is
not the last call. -/
theorem failed_opening_precedes_start (prompt : ByteArray) (opts : TurnOptions)
    (h : OpeningBreaksDown lk link messageId model) :
    ∃ c ∈ (run lk.recorded (link, []) messageId model prompt opts).2.link.2.dropLast,
      c.failed = true := by
  obtain ⟨hg, c, hc, hfail⟩ := opening_broken lk h
  refine ⟨c, ?_, hfail⟩
  rw [run_snd]
  dsimp only
  rw [if_neg (by simp [hg])]
  rcases hst : lk.start (opening lk.recorded (link, []) messageId model).link.1 prompt opts with
    ⟨st, w⟩
  rw [recorded_start lk hst]
  refine mem_dropLast_of_prefix (x := .start) hc ?_
  rcases st with results | e | m
  · refine List.IsPrefix.trans ?_ finishTurn_calls_grow
    exact (pump_steps _ _).calls_from rfl
  · exact (fail_steps _ _).calls_from rfl
  · exact List.prefix_refl _

/-- **A failed write is the last call of a run, exactly when neither opening write fails for
another reason than the client leaving.** No event, error event, closing frame, keepalive or
start of the turn follows a failed write then. -/
theorem failed_write_ends_calls :
    FailureEndsCalls (run lk.recorded (link, []) messageId model prompt opts).2.link.2 ↔
      ¬ OpeningBreaksDown lk link messageId model := by
  constructor
  · intro hf hb
    obtain ⟨c, hc, hfail⟩ := failed_opening_precedes_start lk prompt opts hb
    simp [hf c hc] at hfail
  · exact calls_end_at_failure lk

end Run

/-- A sink whose first write fails for another reason than the client leaving, before a turn
with no results. -/
def firstWriteFails : Link Nat where
  write n _ _ := (if n = 0 then .failed "boom" else .ok, n + 1)
  start n _ _ := (.items [], n)

/-- The stream's first write fails, and yet the turn is started after it. -/
theorem start_follows_failed_opening :
    ¬ FailureEndsCalls
      (run firstWriteFails.recorded (0, []) "msg_1" "claude" ByteArray.empty {}).2.link.2 := by
  have broken : OpeningBreaksDown firstWriteFails 0 "msg_1" "claude" := by
    simp [OpeningBreaksDown, firstWriteFails]
  intro hf
  obtain ⟨c, hc, hfail⟩ := failed_opening_precedes_start firstWriteFails ByteArray.empty {} broken
  simp [hf c hc] at hfail

end Session

end TurnRelay.Stream
