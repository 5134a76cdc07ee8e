import Mathlib.Logic.Relation
import TurnRelay.Stream.Session

/-!
# What each step of a streaming session does

A session's operations are plain functions on `SessionState`. This module says, once for each
of them, what it does to the parts of the state that the later proofs look at, so that those
proofs cite these lemmas and do not unfold the operations again.

* A write that finds the session closed or its client gone does nothing (`writeEvent_of_quiet`,
  `keepalive_of_quiet`). Otherwise it makes exactly one call of the link and takes in the
  outcome (`writeEvent_ok`, `writeEvent_gone`, `writeEvent_failed`, and likewise for
  `keepalive`).
* Every operation inside the turn is a chain of `Step`s: a write of an event with one of the
  stream's names, a keepalive, or a change of the session's own records. Along such a chain
  nothing reopens a closed session, brings a client back or forgets a failure
  (`Steps.of_quiet`, `Steps.failure_isSome`), and the frames written only grow
  (`Steps.written_grow`).
-/

namespace TurnRelay.Stream

open TurnRelay.Assistant

/-- A session that writes nothing for now: it is closed, or its client is gone. -/
def SessionState.Quiet {σ : Type} (s : SessionState σ) : Prop :=
  s.phase = .closed ∨ s.clientGone = true

instance {σ : Type} (s : SessionState σ) : Decidable s.Quiet :=
  inferInstanceAs (Decidable (_ ∨ _))

namespace Session

variable {σ : Type} (lk : Link σ)

/-! ## Writes -/

section Writes

variable {s : SessionState σ} {name : String} {data : ByteArray} {w : σ} {m : String} {n : Nat}

@[simp] theorem safeWrite_ok :
    safeWrite s (.ok, w) n =
      (true, { s with link := w, stats := { s.stats with bytesSent := s.stats.bytesSent + n } }) :=
  rfl

@[simp] theorem safeWrite_gone :
    safeWrite s (.gone, w) n = (false, { s with link := w, clientGone := true }) := rfl

@[simp] theorem safeWrite_failed :
    safeWrite s (.failed m, w) n =
      (false, { s with link := w, failure := some (s.failure.getD m), phase := .closed }) := rfl

theorem not_quiet_iff : ¬ s.Quiet ↔ s.phase ≠ .closed ∧ s.clientGone = false := by
  simp [SessionState.Quiet]

/-- A quiet session writes no event. -/
theorem writeEvent_of_quiet (h : s.Quiet) : writeEvent lk s name data = (false, s) := by
  rcases h with h | h <;> simp [writeEvent, h]

theorem writeEvent_ok (hq : ¬ s.Quiet) (hw : lk.write s.link name data = (.ok, w)) :
    writeEvent lk s name data =
      (true, { s with
        link := w
        stats := { s.stats with
          bytesSent := s.stats.bytesSent + frameSize name data
          eventsForwarded := s.stats.eventsForwarded + 1 }
        written := s.written ++ [⟨name, data⟩] }) := by
  obtain ⟨hp, hg⟩ := (not_quiet_iff).1 hq
  simp [writeEvent, hp, hg, hw]

theorem writeEvent_gone (hq : ¬ s.Quiet) (hw : lk.write s.link name data = (.gone, w)) :
    writeEvent lk s name data = (false, { s with link := w, clientGone := true }) := by
  obtain ⟨hp, hg⟩ := (not_quiet_iff).1 hq
  simp [writeEvent, hp, hg, hw]

theorem writeEvent_failed (hq : ¬ s.Quiet) (hw : lk.write s.link name data = (.failed m, w)) :
    writeEvent lk s name data =
      (false, { s with link := w, failure := some (s.failure.getD m), phase := .closed }) := by
  obtain ⟨hp, hg⟩ := (not_quiet_iff).1 hq
  simp [writeEvent, hp, hg, hw]

/-- A quiet session lets a keepalive tick pass. -/
theorem keepalive_of_quiet (h : s.Quiet) : keepalive lk s = s := by
  rcases h with h | h <;> simp [keepalive, h]

theorem keepalive_ok (hq : ¬ s.Quiet) (hw : lk.comment s.link "keepalive" = (.ok, w)) :
    keepalive lk s =
      { s with
        link := w
        stats := { s.stats with
          bytesSent := s.stats.bytesSent + keepaliveSize
          keepalivesSent := s.stats.keepalivesSent + 1 } } := by
  obtain ⟨hp, hg⟩ := (not_quiet_iff).1 hq
  simp [keepalive, hp, hg, hw]

theorem keepalive_gone (hq : ¬ s.Quiet) (hw : lk.comment s.link "keepalive" = (.gone, w)) :
    keepalive lk s = { s with link := w, clientGone := true } := by
  obtain ⟨hp, hg⟩ := (not_quiet_iff).1 hq
  simp [keepalive, hp, hg, hw]

theorem keepalive_failed (hq : ¬ s.Quiet) (hw : lk.comment s.link "keepalive" = (.failed m, w)) :
    keepalive lk s =
      { s with link := w, failure := some (s.failure.getD m), phase := .closed } := by
  obtain ⟨hp, hg⟩ := (not_quiet_iff).1 hq
  simp [keepalive, hp, hg, hw]

/-- A write either goes through and adds its frame, or leaves the frames as they were and the
session quiet. -/
theorem writeEvent_cases (s : SessionState σ) (name : String) (data : ByteArray) :
    ((writeEvent lk s name data).1 = true ∧
        (writeEvent lk s name data).2.written = s.written ++ [⟨name, data⟩]) ∨
      ((writeEvent lk s name data).1 = false ∧ (writeEvent lk s name data).2.Quiet ∧
        (writeEvent lk s name data).2.written = s.written) := by
  by_cases hq : s.Quiet
  · rw [writeEvent_of_quiet lk hq]
    exact .inr ⟨rfl, hq, rfl⟩
  · rcases hw : lk.write s.link name data with ⟨_ | _ | m, w⟩
    · rw [writeEvent_ok lk hq hw]
      exact .inl ⟨rfl, rfl⟩
    · rw [writeEvent_gone lk hq hw]
      exact .inr ⟨rfl, .inr rfl, rfl⟩
    · rw [writeEvent_failed lk hq hw]
      exact .inr ⟨rfl, .inl rfl, rfl⟩

/-- A keepalive is no event. -/
@[simp] theorem keepalive_written (s : SessionState σ) : (keepalive lk s).written = s.written := by
  by_cases hq : s.Quiet
  · rw [keepalive_of_quiet lk hq]
  · rcases hw : lk.comment s.link "keepalive" with ⟨_ | _ | m, w⟩
    · rw [keepalive_ok lk hq hw]
    · rw [keepalive_gone lk hq hw]
    · rw [keepalive_failed lk hq hw]

/-- A write leaves the link as it was, or as the link's own write left it. -/
theorem writeEvent_link (s : SessionState σ) (name : String) (data : ByteArray) :
    (writeEvent lk s name data).2.link = s.link ∨
      (writeEvent lk s name data).2.link = (lk.write s.link name data).2 := by
  by_cases hq : s.Quiet
  · simp [writeEvent_of_quiet lk hq]
  · rcases hw : lk.write s.link name data with ⟨_ | _ | m, w⟩
    · simp [writeEvent_ok lk hq hw]
    · simp [writeEvent_gone lk hq hw]
    · simp [writeEvent_failed lk hq hw]

/-- A keepalive leaves the link as it was, or as the link's own comment left it. -/
theorem keepalive_link (s : SessionState σ) :
    (keepalive lk s).link = s.link ∨ (keepalive lk s).link = (lk.comment s.link "keepalive").2 := by
  by_cases hq : s.Quiet
  · simp [keepalive_of_quiet lk hq]
  · rcases hw : lk.comment s.link "keepalive" with ⟨_ | _ | m, w⟩
    · simp [keepalive_ok lk hq hw]
    · simp [keepalive_gone lk hq hw]
    · simp [keepalive_failed lk hq hw]

end Writes

/-! ## Steps inside the turn

While the turn runs a session only writes (events and keepalives) and changes its own records.
`Step` says so once; every operation used inside the turn is a chain of such steps, and the
facts that hold across the whole turn are proved once for a step. -/

/-- The names of the events a session writes: those of the assistant's events, and `error`. -/
def streamNames : List String := "error" :: EventKind.all.map EventKind.name

theorem kind_name_mem_streamNames (k : EventKind) : k.name ∈ streamNames :=
  List.mem_cons_of_mem _ (List.mem_map_of_mem (by cases k <;> simp [EventKind.all]))

theorem error_mem_streamNames : "error" ∈ streamNames := List.mem_cons_self

/-- One step a session takes while the turn runs: a write of an event with one of the stream's
names or of a keepalive through the link, or a change of its own records that keeps the link and
the frames written, leaves the client as it was, closes the session if anything, and forgets no
failure. -/
inductive Step : SessionState σ → SessionState σ → Prop
  | event (s : SessionState σ) (name : String) (data : ByteArray) (known : name ∈ streamNames) :
      Step s (writeEvent lk s name data).2
  | keepalive (s : SessionState σ) : Step s (keepalive lk s)
  | record {s t : SessionState σ} (link : t.link = s.link) (written : t.written = s.written)
      (gone : t.clientGone = s.clientGone) (phase : t.phase = s.phase ∨ t.phase = .closed)
      (failure : s.failure.isSome → t.failure.isSome) : Step s t

/-- Steps one after another. -/
abbrev Steps : SessionState σ → SessionState σ → Prop := Relation.ReflTransGen (Step lk)

section Chains

variable {lk}
variable {s t : SessionState σ}

theorem Step.steps (h : Step lk s t) : Steps lk s t := Relation.ReflTransGen.single h

/-- A change of records that keeps the phase. -/
theorem record_steps (link : t.link = s.link) (written : t.written = s.written)
    (gone : t.clientGone = s.clientGone) (phase : t.phase = s.phase)
    (failure : s.failure.isSome → t.failure.isSome) : Steps lk s t :=
  (Step.record link written gone (.inl phase) failure).steps

/-- Closing a session is a step. -/
theorem close_steps : Steps lk s { s with phase := .closed } :=
  (Step.record (s := s) (t := { s with phase := .closed }) rfl rfl rfl (.inr rfl) id).steps

/-- Every chain of steps keeps a property that each step keeps. -/
theorem Steps.keep {P : SessionState σ → Prop} (step : ∀ {a b}, Step lk a b → P a → P b)
    (h : Steps lk s t) (hs : P s) : P t := by
  induction h with
  | refl => exact hs
  | tail _ hbc ih => exact step hbc ih

/-- A quiet session stays quiet, and its steps make no call and write nothing. -/
theorem Step.of_quiet (h : Step lk s t) (hq : s.Quiet) :
    t.Quiet ∧ t.link = s.link ∧ t.written = s.written := by
  cases h with
  | event name data => simp [writeEvent_of_quiet lk hq, hq]
  | keepalive => simp [keepalive_of_quiet lk hq, hq]
  | record link written gone phase _ =>
    refine ⟨?_, link, written⟩
    rcases hq with hp | hg
    · rcases phase with phase | phase
      · exact .inl (phase.trans hp)
      · exact .inl phase
    · exact .inr (gone.trans hg)

theorem Steps.of_quiet (h : Steps lk s t) (hq : s.Quiet) :
    t.Quiet ∧ t.link = s.link ∧ t.written = s.written := by
  induction h with
  | refl => exact ⟨hq, rfl, rfl⟩
  | tail _ hbc ih =>
    obtain ⟨hq', hl, hw⟩ := hbc.of_quiet ih.1
    exact ⟨hq', hl.trans ih.2.1, hw.trans ih.2.2⟩

/-- A step forgets no failure. -/
theorem Step.failure_isSome (h : Step lk s t) (hf : s.failure.isSome) : t.failure.isSome := by
  cases h with
  | event name data =>
    by_cases hq : s.Quiet
    · simpa [writeEvent_of_quiet lk hq] using hf
    · rcases hw : lk.write s.link name data with ⟨_ | _ | m, w⟩
      · simpa [writeEvent_ok lk hq hw] using hf
      · simpa [writeEvent_gone lk hq hw] using hf
      · simp [writeEvent_failed lk hq hw]
  | keepalive =>
    by_cases hq : s.Quiet
    · simpa [keepalive_of_quiet lk hq] using hf
    · rcases hw : lk.comment s.link "keepalive" with ⟨_ | _ | m, w⟩
      · simpa [keepalive_ok lk hq hw] using hf
      · simpa [keepalive_gone lk hq hw] using hf
      · simp [keepalive_failed lk hq hw]
  | record _ _ _ _ failure => exact failure hf

theorem Steps.failure_isSome (h : Steps lk s t) (hf : s.failure.isSome) : t.failure.isSome :=
  h.keep (fun step => step.failure_isSome) hf

/-- The frames written only grow: a step writes one more or none. -/
theorem Step.written_grow (h : Step lk s t) : s.written <+: t.written := by
  cases h with
  | event name data =>
    rcases writeEvent_cases lk s name data with ⟨-, hw⟩ | ⟨-, -, hw⟩
    · rw [hw]
      exact List.prefix_append _ _
    · simp only [hw, List.prefix_refl]
  | keepalive => simp only [keepalive_written, List.prefix_refl]
  | record _ written => exact written ▸ List.prefix_refl _

theorem Steps.written_grow (h : Steps lk s t) : s.written <+: t.written := by
  induction h with
  | refl => exact List.prefix_refl _
  | tail _ hbc ih => exact ih.trans hbc.written_grow

/-- Inside the turn only the link's own writes and comments change it, so a property of the link
that they keep holds all along. -/
theorem Step.link_keep {P : σ → Prop} (hw : ∀ w name data, P w → P (lk.write w name data).2)
    (hc : ∀ w text, P w → P (lk.comment w text).2) (h : Step lk s t) (hs : P s.link) :
    P t.link := by
  cases h with
  | event name data =>
    rcases writeEvent_link lk s name data with e | e <;> rw [e]
    · exact hs
    · exact hw _ _ _ hs
  | keepalive =>
    rcases keepalive_link lk s with e | e <;> rw [e]
    · exact hs
    · exact hc _ _ hs
  | record link => exact link ▸ hs

theorem Steps.link_keep {P : σ → Prop} (hw : ∀ w name data, P w → P (lk.write w name data).2)
    (hc : ∀ w text, P w → P (lk.comment w text).2) (h : Steps lk s t) (hs : P s.link) :
    P t.link :=
  h.keep (P := fun s => P s.link) (fun step ha => step.link_keep hw hc ha) hs

end Chains

section Operations

variable {s : SessionState σ}

/-- A failure is told when the client can still hear it and none was told before; otherwise it
is only recorded. -/
theorem fail_cases (s : SessionState σ) :
    (s.clientGone = false ∧ s.errorSent = false ∧ s.phase ≠ .closed) ∨
      (s.clientGone = true ∨ s.errorSent = true ∨ s.phase = .closed) := by
  by_cases hg : s.clientGone = true
  · exact .inr (.inl hg)
  · by_cases he : s.errorSent = true
    · exact .inr (.inr (.inl he))
    · by_cases hp : s.phase = .closed
      · exact .inr (.inr (.inr hp))
      · exact .inl ⟨by simpa using hg, by simpa using he, hp⟩

/-- A failure is told with an `error` event when the client can still hear it and none was
told before. -/
theorem fail_told {err : String}
    (h : s.clientGone = false ∧ s.errorSent = false ∧ s.phase ≠ .closed) :
    fail lk s err =
      { (writeEvent lk { s with failure := some (s.failure.getD err), errorSent := true } "error"
          (errorData err)).2 with phase := .closed } := by
  obtain ⟨hg, he, hp⟩ := h
  simp [fail, hg, he, hp]

/-- Otherwise the failure is only recorded. -/
theorem fail_silent {err : String}
    (h : s.clientGone = true ∨ s.errorSent = true ∨ s.phase = .closed) :
    fail lk s err = { s with failure := some (s.failure.getD err), phase := .closed } := by
  rcases h with h | h | h <;> simp [fail, h]

/-- Once the failure is recorded, telling it and closing the session are steps. -/
theorem fail_steps_of_recorded (err : String) :
    Steps lk { s with failure := some (s.failure.getD err) } (fail lk s err) := by
  rcases fail_cases s with h | h
  · have marked : Steps lk { s with failure := some (s.failure.getD err) }
        { s with failure := some (s.failure.getD err), errorSent := true } :=
      record_steps rfl rfl rfl rfl (fun _ => rfl)
    rw [fail_told lk h]
    exact (marked.tail (.event _ "error" (errorData err) error_mem_streamNames)).trans close_steps
  · rw [fail_silent lk h]
    exact close_steps

/-- A failure is recorded, told to the client if it can be, and closes the session. -/
theorem fail_steps (err : String) : Steps lk s (fail lk s err) :=
  (record_steps (s := s) (t := { s with failure := some (s.failure.getD err) }) rfl rfl rfl rfl
    (fun _ => rfl)).trans (fail_steps_of_recorded lk err)

/-- What the client gets of an event goes under the name of the event's kind; a message delta
written anew is no exception. -/
theorem remap_name {ev : Event} {hidden hidden' : IndexSet} {out : Outgoing}
    (h : remap (some ev) hidden = .ok (some out, hidden')) : out.name = ev.kind.name := by
  cases ev with
  | blockStart raw index blockType =>
    simp only [remap] at h
    split at h
    · cases h
    · split at h
      · cases h
      · cases h; rfl
  | blockDelta raw index deltaType text =>
    simp only [remap] at h
    split at h
    · cases h
    · cases h; rfl
  | blockStop raw index =>
    simp only [remap] at h
    split at h
    · cases h
    · cases h; rfl
  | messageDelta raw stopReason stopSequence usage =>
    simp only [remap] at h
    split at h
    · cases h; rfl
    · cases h
  | messageStart raw => cases h; rfl
  | messageStop raw => cases h; rfl

/-- Folding passes an event on under the name it came with. -/
theorem fold_name {s s' : SessionState σ} {ev : Event} {out o : Outgoing}
    (h : fold s ev out = (some o, s')) : o.name = out.name := by
  unfold fold at h
  split at h
  · split at h
    · cases h
    · split at h
      · cases h; rfl
      · cases h; rfl
  · cases h
  · cases h

/-- Folding changes only the usage and the stop sequence it holds. -/
theorem fold_steps (ev : Event) (out : Outgoing) : Steps lk s (fold s ev out).2 := by
  unfold fold
  split
  · split
    · exact .refl
    · split <;> exact .refl
  · exact record_steps rfl rfl rfl rfl id
  · exact .refl

theorem handleEvent_steps (ev : Event) : Steps lk s (handleEvent lk s ev) := by
  unfold handleEvent
  split
  · exact fail_steps lk _
  · exact record_steps rfl rfl rfl rfl id
  · rename_i out hidden hremap
    have hidden_steps : Steps lk s { s with hidden := hidden } := record_steps rfl rfl rfl rfl id
    have folded := hidden_steps.trans (fold_steps lk (s := { s with hidden := hidden }) ev out)
    split
    · rename_i s' heq
      rw [heq] at folded
      exact folded.trans (record_steps rfl rfl rfl rfl id)
    · rename_i o s' heq
      rw [heq] at folded
      have known : o.name ∈ streamNames := by
        rw [fold_name heq, remap_name hremap]
        exact kind_name_mem_streamNames _
      have written := folded.tail (.event s' o.name o.data known)
      split
      · rename_i s'' hw
        rw [hw] at written
        split
        · exact written.trans (record_steps rfl rfl rfl rfl id)
        · exact written
      · rename_i s'' hw
        rw [hw] at written
        exact written

theorem handle_steps (item : Item) : Steps lk s (handle lk s item) := by
  unfold handle
  split
  · exact fail_steps lk _
  · exact handleEvent_steps lk _
  · exact .refl

theorem wait_steps : Steps lk s (wait lk s) := by
  unfold wait
  generalize lk.ticks s.link = k
  induction k with
  | zero => exact .refl
  | succ k ih => exact ih.tail (.keepalive _)

/-- The pump waits for a result and handles it, then goes on with the rest. -/
theorem pump_cons (item : Item) (rest : List Item) :
    pump lk s (item :: rest) = pump lk (handle lk (wait lk s) item) rest := rfl

theorem pump_nil : pump lk s [] = wait lk s := rfl

theorem pump_steps (results : List Item) : Steps lk s (pump lk s results) := by
  induction results generalizing s with
  | nil => exact wait_steps lk
  | cons item rest ih =>
    rw [pump_cons]
    exact ((wait_steps lk).trans (handle_steps lk item)).trans ih

/-- Closing the block and the message is a chain of steps too. -/
theorem writeTerminal_steps : Steps lk s (writeTerminal lk s) := by
  unfold writeTerminal
  split
  · exact .refl
  · have stop : Steps lk s
        (writeEvent lk { s with terminated := true } "content_block_stop" blockStopData).2 :=
      (record_steps (s := s) (t := { s with terminated := true }) rfl rfl rfl rfl id).tail
        (.event _ _ _ (kind_name_mem_streamNames .blockStop))
    dsimp only
    split
    · exact stop.trans (record_steps rfl rfl rfl rfl (fun _ => rfl))
    · exact (stop.tail (.event _ _ _ (kind_name_mem_streamNames .messageDelta))).tail
        (.event _ _ _ (kind_name_mem_streamNames .messageStop))

end Operations

/-! ## The run in three parts

A run writes the opening, then, unless the client left meanwhile, starts the turn; a turn that
yields results is pumped and then finished: the block and the message are closed unless the
client is gone, an error was told or a failure is recorded. -/

/-- The session after the opening writes. -/
def opening (link : σ) (messageId model : String) : SessionState σ :=
  let s := (writeEvent lk { link := link } "message_start" (messageStartData messageId model)).2
  (writeEvent lk s "content_block_start" blockStartData).2

/-- The opening writes are steps from the first state. -/
theorem opening_steps {link : σ} {messageId model : String} :
    Steps lk { link := link } (opening lk link messageId model) :=
  ((Step.event _ _ _ (kind_name_mem_streamNames .messageStart)).steps).tail
    (.event _ _ _ (kind_name_mem_streamNames .blockStart))

/-- What follows the pump: the close of the block and of the message, when it is due, and the
session's end. -/
def finishTurn (s : SessionState σ) : SessionState σ :=
  let s := { s with phase := .draining }
  let s := if !s.clientGone && !s.errorSent && s.failure.isNone then writeTerminal lk s else s
  { s with phase := .closed }

/-- What follows the pump is a chain of steps from the draining session, then the close. -/
theorem finishTurn_steps (s : SessionState σ) :
    ∃ t, Steps lk { s with phase := .draining } t ∧ finishTurn lk s = { t with phase := .closed } := by
  unfold finishTurn
  dsimp only
  split
  · exact ⟨_, writeTerminal_steps lk, rfl⟩
  · exact ⟨_, .refl, rfl⟩

/-- What follows the pump keeps the frames written before it. -/
theorem finishTurn_written_grow (s : SessionState σ) : s.written <+: (finishTurn lk s).written := by
  obtain ⟨t, hsteps, heq⟩ := finishTurn_steps lk s
  rw [heq]
  exact hsteps.written_grow

theorem run_snd (link : σ) (messageId model : String) (prompt : ByteArray) (opts : TurnOptions) :
    (run lk link messageId model prompt opts).2 =
      let s := opening lk link messageId model
      if s.clientGone then { s with phase := .closed }
      else
        let s := { s with phase := .streaming, started := true }
        match lk.start s.link prompt opts with
        | (.panicked _, w) => { s with link := w }
        | (.failed e, w) => fail lk { s with link := w } (startFailure e.message)
        | (.items results, w) => finishTurn lk (pump lk { s with link := w } results) := by
  by_cases h : (opening lk link messageId model).clientGone = true
  · simp only [opening] at h
    simp only [run, opening, h, ↓reduceIte]
  · simp only [opening, Bool.not_eq_true] at h
    simp only [run, opening, h, Bool.false_eq_true, ↓reduceIte]
    rcases lk.start _ prompt opts with ⟨_ | _ | _, w⟩ <;> rfl

end Session

end TurnRelay.Stream
