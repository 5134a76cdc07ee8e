import Mathlib.Data.List.Induction
import TurnRelay.Proofs.Stream.Folding

/-!
# What becomes of each event of a turn

Every event a turn reports meets one of four fates in the session (`fate`). It is suppressed:
a tool-use block's start, or any part of a block that is hidden. It is folded into the one
message: message and block boundaries, deltas other than text, and message deltas, whose usage
is held for the close. It is relayed to the client as a text delta on block 0. Or it fails the
turn: a message delta whose own stop sequence and usage cannot be written. Which fate an event
meets depends only on the blocks hidden when it comes, and those are said without the session
by `hiddenAfter`.

`handleEvent_failed`, `handleEvent_suppressed`, `handleEvent_folded` and `handleEvent_relayed`
say once what handling an event does in each case, so that later proofs cite them and do not
unfold the session again. `fates` lists the fates of a turn's events in order; the relayed ones
are the shown deltas and the failed ones the message deltas that cannot be written.
-/

namespace TurnRelay.Stream

open TurnRelay.Json TurnRelay.Assistant

/-- What becomes of an event in the session. -/
inductive Fate where
  /-- Hidden from the client, and counted as suppressed. -/
  | suppressed
  /-- Absorbed into the one message, and counted as folded. -/
  | folded
  /-- Handed on to be written as a text delta on block 0. -/
  | relayed
  /-- A failure of the turn. -/
  | failed
  deriving DecidableEq, Repr

/-- The fate of an event that comes while the blocks `hidden` are hidden. -/
def fate (hidden : Int → Bool) : Event → Fate
  | .blockStart _ index blockType =>
    if blockType == "tool_use" || hidden index then .suppressed else .folded
  | .blockDelta _ index deltaType _ =>
    if hidden index then .suppressed else if deltaType == "text_delta" then .relayed else .folded
  | .blockStop _ index => if hidden index then .suppressed else .folded
  | ev@(.messageDelta ..) => if rendersAlone ev then .folded else .failed
  | _ => .folded

/-- The hidden set after an event: a message start shows every block again, and a tool-use
start hides its block. -/
def hideAfter (hidden : IndexSet) : Event → IndexSet
  | .messageStart _ => []
  | .blockStart _ index blockType => if blockType == "tool_use" then hidden.insert index else hidden
  | _ => hidden

end TurnRelay.Stream

namespace TurnRelay.Assistant

open TurnRelay.Stream

/-- What the turn fails with when an event cannot be passed on: a message delta whose stop
sequence and usage cannot be written. -/
def Event.failure? : Event → Option String
  | .messageDelta _ _ stopSequence usage =>
    match endTurnDelta stopSequence usage with
    | .error m => some (RemapError.encode m).message
    | .ok _ => none
  | _ => none

/-- The event a result carries: that of a stream event, if it has one. -/
def Item.event? : Item → Option Event
  | .message (.streamEvent _ _ ev) => ev
  | _ => none

/-- What a result is a failure of by itself: a failed result, or an event that cannot be passed
on. -/
def Item.failure? : Item → Option String
  | .failure e => some e.message
  | item => item.event?.bind Event.failure?

/-- Whether a result carries a delta with text. -/
def Item.carriesText (item : Item) : Bool := (item.event?.map Session.carriesText).getD false

end TurnRelay.Assistant

namespace TurnRelay.Stream

open TurnRelay.Json TurnRelay.Assistant

theorem rendersAlone_eq_isNone (ev : Event) : rendersAlone ev = ev.failure?.isNone := by
  cases ev with
  | messageDelta raw stopReason stopSequence usage =>
    cases h : endTurnDelta stopSequence usage <;>
      simp [rendersAlone, Event.failure?, h, Except.isOk, Except.toBool]
  | _ => rfl

theorem fate_eq_failed_iff (hidden : Int → Bool) (ev : Event) :
    fate hidden ev = .failed ↔ ev.failure?.isSome := by
  cases ev with
  | blockStart _ _ _ => simp only [fate]; split <;> simp [Event.failure?]
  | blockDelta _ _ _ _ =>
    simp only [fate]; split
    · simp [Event.failure?]
    · split <;> simp [Event.failure?]
  | blockStop _ _ => simp only [fate]; split <;> simp [Event.failure?]
  | messageDelta raw stopReason stopSequence usage =>
    rw [← Option.not_isNone, ← rendersAlone_eq_isNone]
    simp only [fate]
    split <;> simp_all
  | _ => simp [fate, Event.failure?]

/-! ## Handling an event, by its fate -/

namespace Session

variable {σ : Type} (lk : Link σ)

/-- Writes a delta the client sees as its frame, and counts it when it carries text. -/
def relay (s : SessionState σ) (ev : Event) : SessionState σ :=
  match writeEvent lk s (deltaFrame ev).name (deltaFrame ev).data with
  | (true, t) =>
    if carriesText ev then
      { t with stats := { t.stats with textEventsForwarded := t.stats.textEventsForwarded + 1 } }
    else t
  | (false, t) => t

variable {s : SessionState σ} {ev : Event}

/-- An event that cannot be passed on fails the session. -/
theorem handleEvent_failed {m : String} (h : ev.failure? = some m) :
    handleEvent lk s ev = fail lk s m := by
  cases ev with
  | messageDelta raw stopReason stopSequence usage =>
    cases hd : endTurnDelta stopSequence usage with
    | error m' =>
      simp only [Event.failure?, hd, Option.some.injEq] at h
      subst h
      simp [handleEvent, remap, hd]
    | ok data => simp [Event.failure?, hd] at h
  | _ => simp [Event.failure?] at h

/-- A suppressed event is counted and moves the hidden set. -/
theorem handleEvent_suppressed (h : fate s.hidden.contains ev = .suppressed) :
    handleEvent lk s ev =
      { s with hidden := hideAfter s.hidden ev,
               stats := { s.stats with eventsSuppressed := s.stats.eventsSuppressed + 1 } } := by
  cases ev with
  | blockStart raw index blockType =>
    by_cases htool : blockType = "tool_use"
    · subst htool
      simp only [handleEvent, remap, hideAfter, beq_self_eq_true, ↓reduceIte]
    · have hhid : s.hidden.contains index = true := by
        simpa [fate, htool] using h
      simp only [handleEvent, remap, hideAfter, htool, hhid, beq_iff_eq, ↓reduceIte]
  | blockDelta raw index deltaType text =>
    have hhid : s.hidden.contains index = true := by
      simp only [fate] at h
      split at h
      · assumption
      · split at h <;> cases h
    simp only [handleEvent, remap, hideAfter, hhid, ↓reduceIte]
  | blockStop raw index =>
    have hhid : s.hidden.contains index = true := by
      simpa [fate] using h
    simp only [handleEvent, remap, hideAfter, hhid, ↓reduceIte]
  | messageDelta raw stopReason stopSequence usage =>
    simp only [fate] at h
    split at h <;> cases h
  | messageStart raw => simp [fate] at h
  | messageStop raw => simp [fate] at h

/-- A folded event is counted; the hidden set, the usage and the stop sequence follow it. -/
theorem handleEvent_folded (h : fate s.hidden.contains ev = .folded) :
    handleEvent lk s ev =
      { s with hidden := hideAfter s.hidden ev, usage := addUsage s.usage ev.usage,
               stopSequence := ev.stopSequence.or s.stopSequence,
               stats := { s.stats with eventsFolded := s.stats.eventsFolded + 1 } } := by
  cases ev with
  | messageStart raw =>
    simp only [handleEvent, remap, fold, hideAfter, Event.usage, Event.stopSequence]
    rfl
  | blockStart raw index blockType =>
    have hopen : blockType ≠ "tool_use" ∧ s.hidden.contains index = false := by
      simpa [fate] using h
    simp only [handleEvent, remap, fold, hideAfter, Event.usage, Event.stopSequence, hopen.1,
      hopen.2, beq_iff_eq, Bool.false_eq_true, ↓reduceIte]
    rfl
  | blockDelta raw index deltaType text =>
    have hopen : s.hidden.contains index = false ∧ deltaType ≠ "text_delta" := by
      simp only [fate] at h
      split at h
      · cases h
      · split at h
        · cases h
        · simp_all
    simp only [handleEvent, remap, fold, hideAfter, Event.usage, Event.stopSequence, hopen.1,
      hopen.2, bne_iff_ne, ne_eq, not_false_eq_true, Bool.false_eq_true, ↓reduceIte]
    rfl
  | blockStop raw index =>
    have hopen : s.hidden.contains index = false := by
      simpa [fate] using h
    simp only [handleEvent, remap, fold, hideAfter, Event.usage, Event.stopSequence, hopen,
      Bool.false_eq_true, ↓reduceIte]
    rfl
  | messageDelta raw stopReason stopSequence usage =>
    obtain ⟨data, hdata⟩ : ∃ data, endTurnDelta stopSequence usage = .ok data := by
      simp only [fate] at h
      split at h
      · rename_i hr
        cases hd : endTurnDelta stopSequence usage with
        | ok data => exact ⟨data, rfl⟩
        | error m => simp [rendersAlone, hd, Except.isOk, Except.toBool] at hr
      · cases h
    -- the session keeps the stop sequence given last
    have hstop : (if stopSequence.isSome then stopSequence else s.stopSequence) =
        stopSequence.or s.stopSequence := by
      cases stopSequence <;> rfl
    simp only [handleEvent, remap, fold, hideAfter, Event.usage, Event.stopSequence, hdata, hstop]
  | messageStop raw =>
    simp only [handleEvent, remap, fold, hideAfter, Event.usage, Event.stopSequence]
    rfl

/-- A relayed event is written as its frame. -/
theorem handleEvent_relayed (h : fate s.hidden.contains ev = .relayed) :
    handleEvent lk s ev = relay lk s ev := by
  cases ev with
  | blockDelta raw index deltaType text =>
    have hshow : s.hidden.contains index = false ∧ deltaType = "text_delta" := by
      simp only [fate] at h
      split at h
      · cases h
      · split at h
        · simp_all
        · cases h
    obtain ⟨hhid, rfl⟩ := hshow
    exact handleEvent_shownDelta hhid
  | blockStart raw index blockType => simp only [fate] at h; split at h <;> cases h
  | blockStop raw index => simp only [fate] at h; split at h <;> cases h
  | messageDelta raw stopReason stopSequence usage =>
    simp only [fate] at h; split at h <;> cases h
  | messageStart raw => simp [fate] at h
  | messageStop raw => simp [fate] at h

/-- A relayed delta leaves the hidden set as it was. -/
theorem hideAfter_of_relayed {hidden : Int → Bool} (h : fate hidden ev = .relayed) (set : IndexSet) :
    hideAfter set ev = set := by
  cases ev with
  | blockDelta => rfl
  | blockStart raw index blockType => simp only [fate] at h; split at h <;> cases h
  | messageStart raw => simp [fate] at h
  | _ => rfl

/-- Handling a result: a failed one fails the session, one with an event handles the event, and
the others leave the session as it was. -/
theorem handle_eq (item : Item) :
    handle lk s item =
      match item with
      | .failure e => fail lk s e.message
      | item => match item.event? with
        | some ev => handleEvent lk s ev
        | none => s := by
  cases item with
  | failure e => rfl
  | message m =>
    cases m with
    | streamEvent _ _ ev => cases ev <;> rfl
    | _ => rfl

end Session

/-! ## The fates of a turn -/

/-- The fates of the events `evs`, in order, when the events `before` came first. -/
def fatesFrom (before : List Event) : List Event → List Fate
  | [] => []
  | ev :: rest => fate (hiddenAfter before) ev :: fatesFrom (before ++ [ev]) rest

/-- The fates of a turn's events, in order. -/
def fates (evs : List Event) : List Fate := fatesFrom [] evs

section Fates

variable (evs : List Event) (ev : Event)

theorem fatesFrom_append_singleton (before : List Event) :
    fatesFrom before (evs ++ [ev]) = fatesFrom before evs ++ [fate (hiddenAfter (before ++ evs)) ev] := by
  induction evs generalizing before with
  | nil => simp [fatesFrom]
  | cons e rest ih => simp [fatesFrom, ih, List.append_assoc]

@[simp] theorem fates_nil : fates [] = [] := rfl

@[simp] theorem fates_append_singleton :
    fates (evs ++ [ev]) = fates evs ++ [fate (hiddenAfter evs) ev] := by
  simpa [fates] using fatesFrom_append_singleton evs ev []

@[simp] theorem length_fates : (fates evs).length = evs.length := by
  induction evs using List.reverseRecOn with
  | nil => rfl
  | append_singleton evs ev ih => simp [ih]

/-- The relayed events are the deltas the client sees. -/
theorem count_relayed_fates : (fates evs).count .relayed = (shownDeltas evs).length := by
  induction evs using List.reverseRecOn with
  | nil => rfl
  | append_singleton evs ev ih =>
    rw [fates_append_singleton, List.count_append, ih, shownDeltas_append_singleton,
      List.length_append]
    cases ev with
    | blockDelta raw index deltaType text =>
      simp only [fate, showsAfter]
      by_cases hh : hiddenAfter evs index = true <;> by_cases hd : deltaType = "text_delta" <;>
        simp [hh, hd]
    | blockStart raw index blockType =>
      simp only [fate, showsAfter]
      split <;> simp
    | blockStop raw index =>
      simp only [fate, showsAfter]
      split <;> simp
    | messageDelta raw stopReason stopSequence usage =>
      simp only [fate, showsAfter]
      split <;> simp
    | messageStart raw => simp [fate, showsAfter]
    | messageStop raw => simp [fate, showsAfter]

/-- The failed events are the message deltas that cannot be written. -/
theorem count_failed_fates : (fates evs).count .failed = evs.countP (fun ev => !rendersAlone ev) := by
  induction evs using List.reverseRecOn with
  | nil => rfl
  | append_singleton evs ev ih =>
    rw [fates_append_singleton, List.count_append, ih, List.countP_append]
    congr 1
    have hiff := fate_eq_failed_iff (hiddenAfter evs) ev
    rw [← Option.not_isNone, ← rendersAlone_eq_isNone] at hiff
    by_cases hr : rendersAlone ev = true
    · have hne : fate (hiddenAfter evs) ev ≠ .failed := fun h => by simpa [hr] using hiff.1 h
      simp [hr, hne]
    · simp [hr, hiff.2 (by simpa using hr)]

end Fates

/-- Each fate of a list is one of four. -/
theorem Fate.count_sum (l : List Fate) :
    l.count .suppressed + l.count .folded + l.count .relayed + l.count .failed = l.length := by
  induction l with
  | nil => rfl
  | cons f rest ih =>
    cases f <;> simp <;> omega

/-- A hidden set that follows the events seen keeps following them. -/
theorem hideAfter_contains {hidden : IndexSet} {before : List Event}
    (h : ∀ i, hidden.contains i = hiddenAfter before i) (ev : Event) :
    ∀ i, (hideAfter hidden ev).contains i = hiddenAfter (before ++ [ev]) i := by
  intro i
  rw [hiddenAfter_append_singleton, ← h i]
  cases ev with
  | messageStart raw => simp [hideAfter, Event.kind]
  | blockStart raw index blockType =>
    by_cases htool : blockType = "tool_use"
    · subst htool
      simp only [hideAfter, beq_self_eq_true, ↓reduceIte]
      rw [IndexSet.contains_insert]
      simp [Event.kind, Event.opensToolUse]
    · simp [hideAfter, htool, Event.kind, Event.opensToolUse]
  | _ => simp [hideAfter, Event.kind, Event.opensToolUse]

/-- The fate of an event reads the hidden blocks only. -/
theorem fate_congr {hidden : IndexSet} {before : List Event}
    (h : ∀ i, hidden.contains i = hiddenAfter before i) (ev : Event) :
    fate hidden.contains ev = fate (hiddenAfter before) ev :=
  congrArg (fate · ev) (funext h)

end TurnRelay.Stream
