import TurnRelay.Proofs.Stream.Trace

/-!
# Every event of a turn is sorted once

A session takes in each event of its turn once, and gives it its fate (`fate`): it suppresses
it, folds it, relays it as a text delta, or fails the turn with it. The counts it keeps of the
suppressed and the folded events are the counts of those fates among the turn's events, and
the blocks it hides are the blocks hidden after them (`Sorted`). Taking in a result keeps this
with the result's event added (`Sorted.handle`); everything else a session does leaves these
records alone (`SameTurn`). So at the end of every run the four fates of the turn's events
account for each of them once (`run_sorted`).
-/

namespace TurnRelay.Stream

open TurnRelay.Assistant

theorem streamEvents_singleton (item : Item) : streamEvents [item] = item.event?.toList := by
  cases item with
  | failure e => rfl
  | message m =>
    cases m with
    | streamEvent parent session ev => cases ev <;> rfl
    | _ => rfl

theorem hiddenAfter_nil (i : Int) : hiddenAfter [] i = false := rfl

/-- An event that fails the turn hides no block and shows none. -/
theorem hideAfter_of_failure {ev : Event} {m : String} (h : ev.failure? = some m)
    (hidden : IndexSet) : hideAfter hidden ev = hidden := by
  cases ev <;> simp_all [Event.failure?, hideAfter]

namespace Session

variable {σ : Type} (lk : Link σ)

/-- The session has sorted the events `evs`: the blocks it hides are those hidden after them,
and it counted the suppressed and the folded ones among them. -/
structure Sorted (evs : List Event) (s : SessionState σ) : Prop where
  hidden : ∀ i, s.hidden.contains i = hiddenAfter evs i
  suppressed : s.stats.eventsSuppressed = (fates evs).count .suppressed
  folded : s.stats.eventsFolded = (fates evs).count .folded

namespace Sorted

variable {lk} {evs : List Event} {s t : SessionState σ}

/-- A session that has taken in nothing yet. -/
theorem initial (link : σ) : Sorted [] ({ link := link } : SessionState σ) :=
  ⟨fun i => (hiddenAfter_nil i).symm, rfl, rfl⟩

theorem sameTurn (h : Sorted evs s) (ht : SameTurn s t) : Sorted evs t :=
  ⟨fun i => ht.hidden ▸ h.hidden i, ht.suppressed.trans h.suppressed, ht.folded.trans h.folded⟩

/-- Handling an event sorts it: its fate is read from the blocks hidden so far, and its count
and the hidden blocks follow it. -/
theorem handleEvent (h : Sorted evs s) (ev : Event) :
    Sorted (evs ++ [ev]) (Session.handleEvent lk s ev) := by
  have next := hideAfter_contains h.hidden ev
  have hfate := fate_congr h.hidden ev
  cases hf : fate s.hidden.contains ev with
  | failed =>
    obtain ⟨m, hm⟩ := Option.isSome_iff_exists.1 ((fate_eq_failed_iff _ ev).1 hf)
    have hf' : fate (hiddenAfter evs) ev = .failed := hfate ▸ hf
    rw [handleEvent_failed lk hm]
    have kept := fail_sameTurn lk s m
    refine ⟨fun i => ?_, ?_, ?_⟩
    · rw [kept.hidden, ← next i, hideAfter_of_failure hm]
    · simp [kept.suppressed, h.suppressed, hf']
    · simp [kept.folded, h.folded, hf']
  | suppressed =>
    have hf' : fate (hiddenAfter evs) ev = .suppressed := hfate ▸ hf
    rw [handleEvent_suppressed lk hf]
    exact ⟨next, by simp [h.suppressed, hf'], by simp [h.folded, hf']⟩
  | folded =>
    have hf' : fate (hiddenAfter evs) ev = .folded := hfate ▸ hf
    rw [handleEvent_folded lk hf]
    exact ⟨next, by simp [h.suppressed, hf'], by simp [h.folded, hf']⟩
  | relayed =>
    have hf' : fate (hiddenAfter evs) ev = .relayed := hfate ▸ hf
    rw [handleEvent_relayed lk hf]
    have kept := relay_sameTurn lk s ev
    refine ⟨fun i => ?_, ?_, ?_⟩
    · rw [kept.hidden, ← next i, hideAfter_of_relayed hf]
    · simp [kept.suppressed, h.suppressed, hf']
    · simp [kept.folded, h.folded, hf']

/-- Handling a result sorts its event, if it has one. -/
theorem handle (h : Sorted evs s) (item : Item) :
    Sorted (evs ++ streamEvents [item]) (Session.handle lk s item) := by
  rw [handle_eq, streamEvents_singleton]
  cases item with
  | failure e => simpa [Item.event?] using h.sameTurn (fail_sameTurn lk s e.message)
  | message m =>
    dsimp only
    cases hev : (Item.message m).event? with
    | none => simpa using h
    | some ev => simpa using h.handleEvent ev

/-- Taking in results one after another sorts their events in order. -/
theorem foldl (h : Sorted evs s) (results : List Item) :
    Sorted (evs ++ streamEvents results) (results.foldl (takeIn lk) s) := by
  induction results generalizing evs s with
  | nil => simpa using h
  | cons item rest ih =>
    rw [List.foldl_cons, streamEvents_cons, ← List.append_assoc]
    exact ih ((h.sameTurn (wait_sameTurn lk s)).handle item)

end Sorted

/-- The results the turn of a run gave: none unless it was started and gave results. -/
def runResults (link : σ) (messageId model : String) (prompt : ByteArray) (opts : TurnOptions) :
    List Item :=
  let s := opening lk link messageId model
  if s.clientGone then []
  else
    match lk.start s.link prompt opts with
    | (.items results, _) => results
    | _ => []

theorem opening_sameTurn (link : σ) (messageId model : String) :
    SameTurn { link := link } (opening lk link messageId model) :=
  (writeEvent_sameTurn lk _ _ _).trans (writeEvent_sameTurn lk _ _ _)

/-- At the end of every run the session has sorted every event its turn gave. -/
theorem run_sorted (link : σ) (messageId model : String) (prompt : ByteArray)
    (opts : TurnOptions) :
    Sorted (streamEvents (runResults lk link messageId model prompt opts))
      (run lk link messageId model prompt opts).2 := by
  have opened := (Sorted.initial link).sameTurn (opening_sameTurn lk link messageId model)
  rw [run_snd]
  unfold runResults
  dsimp only
  split
  · exact opened.sameTurn ⟨rfl, rfl, rfl, rfl, rfl⟩
  · have started : ∀ w, Sorted []
        { opening lk link messageId model with phase := .streaming, started := true, link := w } :=
      fun _ => opened.sameTurn ⟨rfl, rfl, rfl, rfl, rfl⟩
    rcases lk.start (opening lk link messageId model).link prompt opts with ⟨_ | _ | _, w⟩ <;>
      dsimp only
    · -- the turn's events are sorted by the pump, and its close leaves them alone
      exact ((started w).foldl _).sameTurn ((wait_sameTurn lk _).trans (finishTurn_sameTurn lk _))
    · exact (started w).sameTurn (fail_sameTurn lk _ _)
    · exact started w

end Session

end TurnRelay.Stream
