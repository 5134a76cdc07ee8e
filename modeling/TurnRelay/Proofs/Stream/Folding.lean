import TurnRelay.Proofs.Stream.Steps

/-!
# The one message a turn is shown as

When every write goes through and the turn reports no failure, a session writes one message:
its opening, a text delta on block 0 for each text delta of the turn that the client may see,
and its close. Which deltas those are is said here without the session: a delta shows unless
its block is a tool-use block opened since the latest message start (`hiddenAfter`,
`shownDeltas`).

The close carries the usage of all the turn's message deltas summed and the last stop sequence
given. It, and every message delta as it comes, must be written as JSON, which a usage counter
that is not finite cannot be; the turn then ends in a failure instead. So the message comes out
exactly when all of them can be written (`relays_one_message_iff_deltas_render`).

The proof follows the session through the turn with an invariant, `Tracks`, that ties its state
to the events seen so far. Every event the turn reports keeps it (`Tracks.handleEvent`), so the
whole pump does (`Tracks.pump`), and the close is read off it (`Tracks.finishTurn`).
-/

namespace TurnRelay.Assistant

open TurnRelay.Json

/-- Whether an event opens a tool-use block at index `i`. -/
def Event.opensToolUse (i : Int) : Event → Bool
  | .blockStart _ index blockType => index == i && blockType == "tool_use"
  | _ => false

/-- The usage counters a message delta reports; none for other events. -/
def Event.usage : Event → Option Dict
  | .messageDelta _ _ _ usage => usage
  | _ => none

/-- The stop sequence a message delta gives; none for other events. -/
def Event.stopSequence : Event → Option String
  | .messageDelta _ _ stopSequence _ => stopSequence
  | _ => none

end TurnRelay.Assistant

namespace TurnRelay.Stream

open TurnRelay.Json TurnRelay.Assistant

/-! ## The message the client should see -/

/-- The stream events among a turn's results, in order. -/
def streamEvents (results : List Item) : List Event :=
  results.filterMap fun
    | .message (.streamEvent _ _ ev) => ev
    | _ => none

@[simp] theorem streamEvents_nil : streamEvents [] = [] := rfl

/-- The events after the latest message start; all of them when there is none. -/
def sinceMessageStart (evs : List Event) : List Event :=
  (evs.reverse.takeWhile fun ev => ev.kind != .messageStart).reverse

/-- Whether block `i` is hidden after the events `evs`: a tool-use block was opened at `i`
since the latest message start. -/
def hiddenAfter (evs : List Event) (i : Int) : Bool :=
  (sinceMessageStart evs).any (Event.opensToolUse i)

/-- Whether an event that comes after `before` is a text delta the client sees. -/
def showsAfter (before : List Event) : Event → Bool
  | .blockDelta _ index deltaType _ => deltaType == "text_delta" && !hiddenAfter before index
  | _ => false

/-- The text deltas among `evs` that the client sees, in order, when `before` came first. -/
def shownFrom (before : List Event) : List Event → List Event
  | [] => []
  | ev :: rest => (if showsAfter before ev then [ev] else []) ++ shownFrom (before ++ [ev]) rest

/-- The text deltas of a turn that the client sees, in order. -/
def shownDeltas (evs : List Event) : List Event := shownFrom [] evs

/-- The frame a shown text delta is written as: the delta as it came when its block is 0, and
written anew on block 0 otherwise. -/
def deltaFrame : Event → Outgoing
  | .blockDelta raw index _ text =>
    ⟨"content_block_delta", if index = 0 then raw else textDeltaData text⟩
  | ev => verbatim ev

/-- The usage of a turn: what its message deltas report, summed in order. -/
def totalUsage (evs : List Event) : Option Dict := (evs.map Event.usage).foldl addUsage none

/-- The last stop sequence a turn gives. -/
def lastStopSequence (evs : List Event) : Option String :=
  (evs.filterMap Event.stopSequence).getLast?

/-- Whether an event can be passed on when it comes: a message delta only when its own stop
sequence and usage can be written. -/
def rendersAlone : Event → Bool
  | .messageDelta _ _ stopSequence usage => (endTurnDelta stopSequence usage).isOk
  | _ => true

/-- Whether a turn's message deltas can all be written: each one when it comes, and the close
with the turn's usage and last stop sequence. -/
def deltasRender (evs : List Event) : Bool :=
  evs.all rendersAlone && (endTurnDelta (lastStopSequence evs) (totalUsage evs)).isOk

/-- The opening of the reply message. -/
def openingFrames (messageId model : String) : List Outgoing :=
  [⟨"message_start", messageStartData messageId model⟩, ⟨"content_block_start", blockStartData⟩]

/-- The close of the reply message, with the message delta `close`. -/
def closingFrames (close : ByteArray) : List Outgoing :=
  [⟨"content_block_stop", blockStopData⟩, ⟨"message_delta", close⟩,
    ⟨"message_stop", messageStopData⟩]

/-! ### One more event -/

section Spec

variable (evs : List Event) (ev : Event)

theorem sinceMessageStart_append_singleton :
    sinceMessageStart (evs ++ [ev]) =
      if ev.kind = .messageStart then [] else sinceMessageStart evs ++ [ev] := by
  unfold sinceMessageStart
  rw [List.reverse_append, List.reverse_singleton, List.singleton_append, List.takeWhile_cons]
  by_cases h : ev.kind = .messageStart <;> simp [h]

/-- A message start shows every block again; a tool-use start hides its block. -/
@[simp] theorem hiddenAfter_append_singleton (i : Int) :
    hiddenAfter (evs ++ [ev]) i =
      if ev.kind = .messageStart then false else hiddenAfter evs i || ev.opensToolUse i := by
  by_cases h : ev.kind = .messageStart <;>
    simp [hiddenAfter, sinceMessageStart_append_singleton, h]

theorem shownFrom_append_singleton (before : List Event) :
    shownFrom before (evs ++ [ev]) =
      shownFrom before evs ++ if showsAfter (before ++ evs) ev then [ev] else [] := by
  induction evs generalizing before with
  | nil => simp [shownFrom]
  | cons e rest ih => simp [shownFrom, ih, List.append_assoc]

@[simp] theorem shownDeltas_append_singleton :
    shownDeltas (evs ++ [ev]) = shownDeltas evs ++ if showsAfter evs ev then [ev] else [] := by
  simpa [shownDeltas] using shownFrom_append_singleton evs ev []

@[simp] theorem totalUsage_append_singleton :
    totalUsage (evs ++ [ev]) = addUsage (totalUsage evs) ev.usage := by
  simp [totalUsage]

@[simp] theorem lastStopSequence_append_singleton :
    lastStopSequence (evs ++ [ev]) = ev.stopSequence.or (lastStopSequence evs) := by
  cases h : ev.stopSequence <;> simp [lastStopSequence, List.getLast?_append, h]

/-- A shown event is a text delta on a block that is not hidden. -/
theorem exists_of_showsAfter {before : List Event} {ev : Event} (h : showsAfter before ev = true) :
    ∃ raw index text, ev = .blockDelta raw index "text_delta" text ∧
      hiddenAfter before index = false := by
  cases ev with
  | blockDelta raw index deltaType text =>
    simp only [showsAfter, Bool.and_eq_true, beq_iff_eq, Bool.not_eq_true'] at h
    exact ⟨raw, index, text, by rw [h.1], h.2⟩
  | _ => simp [showsAfter] at h

end Spec

@[simp] theorem addUsage_none (total : Option Dict) : addUsage total none = total := rfl

/-- Adding an index keeps the others: the hidden set grows by exactly the index. -/
theorem IndexSet.contains_insert (s : IndexSet) (i j : Int) :
    (s.insert i).contains j = (s.contains j || i == j) := by
  unfold IndexSet.insert
  split
  · rename_i hi
    by_cases hj : i = j
    · subst hj
      simpa using hi
    · simp [hj]
  · simp only [List.partition_eq_filter_filter]
    grind

/-! ## The session follows the message -/

/-- A link whose every write goes through. -/
structure Link.Reliable {σ : Type} (lk : Link σ) : Prop where
  write : ∀ w name data, (lk.write w name data).1 = .ok
  comment : ∀ w text, (lk.comment w text).1 = .ok

section Reliable

variable {σ : Type} {lk : Link σ}

theorem Link.Reliable.write_eq (hlk : lk.Reliable) (w : σ) (name : String) (data : ByteArray) :
    lk.write w name data = (.ok, (lk.write w name data).2) :=
  Prod.ext (hlk.write w name data) rfl

theorem Link.Reliable.comment_eq (hlk : lk.Reliable) (w : σ) (text : String) :
    lk.comment w text = (.ok, (lk.comment w text).2) :=
  Prod.ext (hlk.comment w text) rfl

end Reliable

namespace Session

variable {σ : Type} {lk : Link σ}

/-- The session `s` has taken in the events `before` with nothing gone wrong: it still streams,
has written `head` and then the frames of the deltas shown so far, hides exactly the blocks
hidden after `before`, and holds their usage, their last stop sequence and the number of shown
deltas with text. -/
structure Tracks (head : List Outgoing) (before : List Event) (s : SessionState σ) : Prop where
  phase : s.phase = .streaming
  clientGone : s.clientGone = false
  errorSent : s.errorSent = false
  terminated : s.terminated = false
  failure : s.failure = none
  hidden : ∀ i, s.hidden.contains i = hiddenAfter before i
  written : s.written = head ++ (shownDeltas before).map deltaFrame
  usage : s.usage = totalUsage before
  stopSequence : s.stopSequence = lastStopSequence before
  textEvents : s.stats.textEventsForwarded = (shownDeltas before).countP carriesText

variable {head : List Outgoing} {before : List Event} {s : SessionState σ}

theorem Tracks.not_quiet (ht : Tracks head before s) : ¬ s.Quiet :=
  (not_quiet_iff).2 ⟨by simp [ht.phase], ht.clientGone⟩

/-- A keepalive that goes through touches nothing the invariant looks at. -/
theorem Tracks.keepalive (hlk : lk.Reliable) (ht : Tracks head before s) :
    Tracks head before (keepalive lk s) := by
  rw [keepalive_ok lk ht.not_quiet (hlk.comment_eq _ _)]
  exact { ht with }

theorem Tracks.wait (hlk : lk.Reliable) (ht : Tracks head before s) :
    Tracks head before (wait lk s) := by
  unfold Session.wait
  generalize lk.ticks s.link = k
  induction k with
  | zero => exact ht
  | succ k ih => exact ih.keepalive hlk

/-! ### One event -/

section Event

variable {ev : Event}

/-- An event that is taken in without a write: the hidden set, the usage and the stop sequence
follow it, and the counters but the count of text deltas may change. -/
theorem Tracks.absorb (ht : Tracks head before s) (hshow : showsAfter before ev = false)
    {hidden : IndexSet} (hhidden : ∀ i, hidden.contains i = hiddenAfter (before ++ [ev]) i)
    {stats : Stats} (htext : stats.textEventsForwarded = s.stats.textEventsForwarded) :
    Tracks head (before ++ [ev])
      { s with hidden := hidden, usage := addUsage s.usage ev.usage,
               stopSequence := ev.stopSequence.or s.stopSequence, stats := stats } where
  phase := ht.phase
  clientGone := ht.clientGone
  errorSent := ht.errorSent
  terminated := ht.terminated
  failure := ht.failure
  hidden := hhidden
  written := by simp [ht.written, hshow]
  usage := by simp [ht.usage]
  stopSequence := by simp [ht.stopSequence]
  textEvents := by simp [htext, ht.textEvents, hshow]

/-- An event that neither starts a message nor opens a tool-use block leaves the hidden set. -/
theorem Tracks.hidden_plain (ht : Tracks head before s) (ev : Event)
    (hkind : ev.kind ≠ .messageStart)
    (hopen : ∀ i, ev.opensToolUse i = false) :
    ∀ i, s.hidden.contains i = hiddenAfter (before ++ [ev]) i := fun i =>
  (ht.hidden i).trans (by simp [hkind, hopen])

/-- A shown delta is written as its frame `o`, and counted when it has text. -/
theorem Tracks.show (ht : Tracks head before s) (hshow : showsAfter before ev = true)
    {o : Outgoing} (ho : o = deltaFrame ev) {w : σ} {stats : Stats}
    (htext : stats.textEventsForwarded =
      s.stats.textEventsForwarded + if carriesText ev then 1 else 0) :
    Tracks head (before ++ [ev]) { s with link := w, stats := stats, written := s.written ++ [o] } := by
  obtain ⟨raw, index, text, rfl, -⟩ := exists_of_showsAfter hshow
  refine ⟨ht.phase, ht.clientGone, ht.errorSent, ht.terminated, ht.failure,
    fun i => (ht.hidden i).trans ?_, ?_, ?_, ?_, ?_⟩
  · simp [Event.kind, Event.opensToolUse]
  · simp [ht.written, hshow, ho]
  · simp [ht.usage, Event.usage]
  · simp [ht.stopSequence, Event.stopSequence]
  · simp [htext, ht.textEvents, hshow]

/-- A text delta on a block that is not hidden is written as its frame. -/
theorem handleEvent_shownDelta {raw : ByteArray} {index : Int} {text : String}
    (hhid : s.hidden.contains index = false) :
    handleEvent lk s (.blockDelta raw index "text_delta" text) =
      match writeEvent lk s (deltaFrame (.blockDelta raw index "text_delta" text)).name
          (deltaFrame (.blockDelta raw index "text_delta" text)).data with
      | (true, t) =>
        if carriesText (.blockDelta raw index "text_delta" text) then
          { t with stats := { t.stats with textEventsForwarded := t.stats.textEventsForwarded + 1 } }
        else t
      | (false, t) => t := by
  by_cases hzero : index = 0
  · subst hzero
    simp only [handleEvent, remap, fold, hhid, Bool.false_eq_true, ↓reduceIte, bne_self_eq_false,
      beq_self_eq_true, deltaFrame]
    rfl
  · simp only [handleEvent, remap, fold, hhid, hzero, Bool.false_eq_true, ↓reduceIte,
      bne_self_eq_false, beq_iff_eq, deltaFrame]
    rfl

/-- Every event the turn reports keeps the invariant, as long as it can be passed on. -/
theorem Tracks.handleEvent (hlk : lk.Reliable) (ht : Tracks head before s)
    (hev : rendersAlone ev = true) :
    Tracks head (before ++ [ev]) (handleEvent lk s ev) := by
  cases ev with
  | messageStart raw =>
    simp only [handleEvent, remap, fold]
    exact ht.absorb rfl (fun i => by simp [Event.kind]) rfl
  | blockStart raw index blockType =>
    by_cases htool : blockType = "tool_use"
    · subst htool
      simp only [handleEvent, remap, beq_self_eq_true, ↓reduceIte]
      refine ht.absorb rfl (fun i => ?_) rfl
      rw [IndexSet.contains_insert, ht.hidden]
      simp [Event.kind, Event.opensToolUse]
    · have hkeep := ht.hidden_plain (.blockStart raw index blockType) (by simp [Event.kind])
        (by simp [Event.opensToolUse, htool])
      by_cases hhid : s.hidden.contains index = true
      · simp only [handleEvent, remap, htool, hhid, beq_iff_eq, ↓reduceIte]
        exact ht.absorb rfl hkeep rfl
      · simp only [handleEvent, remap, fold, htool, hhid, beq_iff_eq, ↓reduceIte]
        exact ht.absorb rfl hkeep rfl
  | blockDelta raw index deltaType text =>
    have hkeep := ht.hidden_plain (.blockDelta raw index deltaType text) (by simp [Event.kind])
      (by simp [Event.opensToolUse])
    by_cases hhid : s.hidden.contains index = true
    · have hidden : hiddenAfter before index = true := ht.hidden index ▸ hhid
      simp only [handleEvent, remap, hhid, ↓reduceIte]
      exact ht.absorb (by simp [showsAfter, hidden]) hkeep rfl
    · by_cases htype : deltaType = "text_delta"
      · subst htype
        have hshow : showsAfter before (.blockDelta raw index "text_delta" text) = true := by
          simpa [showsAfter, ← ht.hidden] using hhid
        rw [handleEvent_shownDelta (by simpa using hhid),
          writeEvent_ok lk ht.not_quiet (hlk.write_eq _ _ _)]
        dsimp only
        split
        · rename_i htext
          exact ht.show hshow rfl (by simp [htext])
        · rename_i htext
          exact ht.show hshow rfl (by simp [htext])
      · simp only [handleEvent, remap, fold, hhid, htype, bne_iff_ne, ne_eq, not_false_eq_true, ↓reduceIte]
        exact ht.absorb (by simp [showsAfter, htype]) hkeep rfl
  | blockStop raw index =>
    have hkeep := ht.hidden_plain (.blockStop raw index) (by simp [Event.kind])
      (by simp [Event.opensToolUse])
    by_cases hhid : s.hidden.contains index = true
    · simp only [handleEvent, remap, hhid, ↓reduceIte]
      exact ht.absorb rfl hkeep rfl
    · simp only [handleEvent, remap, fold, hhid, Bool.false_eq_true, ↓reduceIte]
      exact ht.absorb rfl hkeep rfl
  | messageDelta raw stopReason stopSequence usage =>
    obtain ⟨data, hdata⟩ : ∃ data, endTurnDelta stopSequence usage = .ok data := by
      cases h : endTurnDelta stopSequence usage with
      | ok data => exact ⟨data, rfl⟩
      | error m => simp [rendersAlone, h, Except.isOk, Except.toBool] at hev
    have hkeep := ht.hidden_plain (.messageDelta raw stopReason stopSequence usage)
      (by simp [Event.kind]) (by simp [Event.opensToolUse])
    -- the session keeps the stop sequence given last
    have hstop : (if stopSequence.isSome then stopSequence else s.stopSequence) =
        stopSequence.or s.stopSequence := by
      cases stopSequence <;> rfl
    simp only [handleEvent, remap, fold, hdata, hstop]
    exact ht.absorb rfl hkeep rfl
  | messageStop raw =>
    have hkeep := ht.hidden_plain (.messageStop raw) (by simp [Event.kind])
      (by simp [Event.opensToolUse])
    simp only [handleEvent, remap, fold]
    exact ht.absorb rfl hkeep rfl

/-- A failure is always recorded. -/
theorem fail_failure_isSome (err : String) : (fail lk s err).failure.isSome :=
  (fail_steps_of_recorded lk err).failure_isSome rfl

/-- A message delta that cannot be written fails the turn. -/
theorem handleEvent_failure_of_not_renders (hev : rendersAlone ev = false) :
    (handleEvent lk s ev).failure.isSome := by
  cases ev with
  | messageDelta raw stopReason stopSequence usage =>
    cases h : endTurnDelta stopSequence usage with
    | ok data => simp [rendersAlone, h, Except.isOk, Except.toBool] at hev
    | error m =>
      simp only [handleEvent, remap, h]
      exact fail_failure_isSome _
  | _ => simp [rendersAlone] at hev

end Event

/-! ### The turn -/

section Turn

variable {results : List Item}

theorem streamEvents_cons (item : Item) (rest : List Item) :
    streamEvents (item :: rest) = streamEvents [item] ++ streamEvents rest := by
  rw [← List.singleton_append]
  exact List.filterMap_append

/-- Every result that is not a failure keeps the invariant, when its event can be passed on. -/
theorem Tracks.handle (hlk : lk.Reliable) (ht : Tracks head before s) {item : Item}
    (hitem : ∀ e, item ≠ .failure e) (hev : (streamEvents [item]).all rendersAlone = true) :
    Tracks head (before ++ streamEvents [item]) (handle lk s item) := by
  cases item with
  | failure e => exact absurd rfl (hitem e)
  | message m =>
    cases m with
    | streamEvent parent session ev =>
      cases ev with
      | none =>
        show Tracks head (before ++ []) s
        rw [List.append_nil]
        exact ht
      | some ev =>
        show Tracks head (before ++ [ev]) (Session.handleEvent lk s ev)
        have hev : [ev].all rendersAlone = true := hev
        exact ht.handleEvent hlk (by simpa using hev)
    | _ =>
      show Tracks head (before ++ []) s
      rw [List.append_nil]
      exact ht

/-- A result whose event cannot be passed on fails the turn. -/
theorem handle_failure_of_not_renders {item : Item}
    (hev : (streamEvents [item]).all rendersAlone = false) : (handle lk s item).failure.isSome := by
  cases item with
  | failure e => exact fail_failure_isSome _
  | message m =>
    cases m with
    | streamEvent parent session ev =>
      cases ev with
      | none => nomatch (hev : true = false)
      | some ev =>
        have hev : [ev].all rendersAlone = false := hev
        exact handleEvent_failure_of_not_renders (by simpa using hev)
    | _ => nomatch (hev : true = false)

/-- The pump keeps the invariant through the whole turn when all its events can be passed on.
The induction runs over the results, the invariant carrying the events seen so far. -/
theorem Tracks.pump (hlk : lk.Reliable) (ht : Tracks head before s)
    (hitems : ∀ e, Item.failure e ∉ results) (hev : (streamEvents results).all rendersAlone = true) :
    Tracks head (before ++ streamEvents results) (Session.pump lk s results) := by
  induction results generalizing before s with
  | nil => simpa [pump_nil] using ht.wait hlk
  | cons item rest ih =>
    rw [streamEvents_cons, List.all_append, Bool.and_eq_true] at hev
    have hitem : ∀ e, item ≠ .failure e := fun e h => hitems e (h ▸ List.mem_cons_self)
    have hrest : ∀ e, Item.failure e ∉ rest := fun e h => hitems e (List.mem_cons_of_mem _ h)
    rw [pump_cons, streamEvents_cons, ← List.append_assoc]
    exact ih ((ht.wait hlk).handle hlk hitem hev.1) hrest hev.2

/-- Otherwise the turn ends in a failure. -/
theorem Tracks.pump_failure (hlk : lk.Reliable) (ht : Tracks head before s)
    (hitems : ∀ e, Item.failure e ∉ results)
    (hev : (streamEvents results).all rendersAlone = false) :
    (Session.pump lk s results).failure.isSome := by
  induction results generalizing before s with
  | nil => simp at hev
  | cons item rest ih =>
    rw [streamEvents_cons, List.all_append] at hev
    have hrest : ∀ e, Item.failure e ∉ rest := fun e h => hitems e (List.mem_cons_of_mem _ h)
    rw [pump_cons]
    by_cases hitem : (streamEvents [item]).all rendersAlone = true
    · have hitem' : ∀ e, item ≠ .failure e := fun e h => hitems e (h ▸ List.mem_cons_self)
      exact ih ((ht.wait hlk).handle hlk hitem' hitem) hrest (by simpa [hitem] using hev)
    · exact (pump_steps lk rest).failure_isSome
        (handle_failure_of_not_renders (by simpa using hitem))

end Turn

/-! ### Opening and close -/

section Ends

variable {evs : List Event} {close : ByteArray}

/-- The close of a session that tracks the whole turn: the block and the message are closed
with the message delta `close`. -/
theorem Tracks.finishTurn (hlk : lk.Reliable) (ht : Tracks head evs s)
    (hclose : endTurnDelta (lastStopSequence evs) (totalUsage evs) = .ok close) :
    (Session.finishTurn lk s).written = head ++ (shownDeltas evs).map deltaFrame ++ closingFrames close ∧
      (Session.finishTurn lk s).failure = none ∧ (Session.finishTurn lk s).clientGone = false ∧
      (Session.finishTurn lk s).stats.textEventsForwarded = (shownDeltas evs).countP carriesText := by
  have hdue : (!s.clientGone && !s.errorSent && s.failure.isNone) = true := by
    simp [ht.clientGone, ht.errorSent, ht.failure]
  simp only [Session.finishTurn, hdue, ↓reduceIte]
  unfold writeTerminal
  simp only [ht.terminated, Bool.false_eq_true, ↓reduceIte]
  -- the three closing writes, each to a session that is draining with its client there
  rw [writeEvent_ok lk ?_ (hlk.write_eq _ "content_block_stop" blockStopData)]
  · simp only [ht.usage, ht.stopSequence, hclose]
    rw [writeEvent_ok lk ?_ (hlk.write_eq _ "message_delta" close),
      writeEvent_ok lk ?_ (hlk.write_eq _ "message_stop" messageStopData)]
    · simp [ht.written, ht.failure, ht.clientGone, ht.textEvents, closingFrames]
    all_goals simp [SessionState.Quiet, ht.clientGone]
  · simp [SessionState.Quiet, ht.clientGone]

/-- A close that cannot be written fails the turn. -/
theorem Tracks.finishTurn_failure (hlk : lk.Reliable) (ht : Tracks head evs s) {m : String}
    (hclose : endTurnDelta (lastStopSequence evs) (totalUsage evs) = .error m) :
    (Session.finishTurn lk s).failure.isSome := by
  have hdue : (!s.clientGone && !s.errorSent && s.failure.isNone) = true := by
    simp [ht.clientGone, ht.errorSent, ht.failure]
  simp only [Session.finishTurn, hdue, ↓reduceIte]
  unfold writeTerminal
  simp only [ht.terminated, Bool.false_eq_true, ↓reduceIte]
  rw [writeEvent_ok lk ?_ (hlk.write_eq _ "content_block_stop" blockStopData)]
  · simp [ht.usage, ht.stopSequence, hclose]
  · simp [SessionState.Quiet, ht.clientGone]

/-- A failure recorded before the close stays. -/
theorem finishTurn_failure_of_failure (h : s.failure.isSome) :
    (Session.finishTurn lk s).failure.isSome := by
  have hdue : (!s.clientGone && !s.errorSent && s.failure.isNone) = false := by simp [h]
  simp [Session.finishTurn, hdue, h]

/-- Through a reliable link the opening is written and the client stays there; the session then
tracks the turn from its first event, whatever world the start leaves. -/
theorem tracks_opening (hlk : lk.Reliable) (link : σ) (messageId model : String) (w : σ) :
    Tracks (openingFrames messageId model) []
      { opening lk link messageId model with phase := .streaming, started := true, link := w } := by
  simp only [opening]
  rw [writeEvent_ok lk ?_ (hlk.write_eq _ "message_start" (messageStartData messageId model))]
  · rw [writeEvent_ok lk ?_ (hlk.write_eq _ "content_block_start" blockStartData)]
    · exact ⟨rfl, rfl, rfl, rfl, rfl, fun _ => rfl, rfl, rfl, rfl, rfl⟩
    · simp [SessionState.Quiet]
  · simp [SessionState.Quiet]

/-- A run whose opening leaves the client there and whose turn starts with `results`. -/
theorem run_of_items {link w : σ} {messageId model : String} {prompt : ByteArray}
    {opts : TurnOptions} {results : List Item}
    (hgone : (opening lk link messageId model).clientGone = false)
    (hs : lk.start (opening lk link messageId model).link prompt opts = (.items results, w)) :
    run lk link messageId model prompt opts =
      let s := Session.finishTurn lk (Session.pump lk
        { opening lk link messageId model with phase := .streaming, started := true, link := w }
        results)
      (.returned s.summary, s) := by
  simp only [opening] at hgone hs
  simp only [run, opening, hgone, hs, Bool.false_eq_true, ↓reduceIte]
  rfl

/-- A session that ends without a failure and with its client there reports whether a delta
with text was written. -/
theorem summary_outcome_of_open (hf : s.failure = none) (hg : s.clientGone = false) :
    s.summary.outcome = if s.stats.textEventsForwarded = 0 then .empty else .completed := by
  simp only [SessionState.summary, hf, hg, Bool.false_eq_true, ↓reduceIte]
  split <;> rfl

/-- A session that ends in a failure reports it, so neither a completed nor an empty turn. -/
theorem summary_outcome_of_failure (hf : s.failure.isSome) (b : Bool) :
    s.summary.outcome ≠ if b then .completed else .empty := by
  obtain ⟨e, he⟩ := Option.isSome_iff_exists.1 hf
  cases b <;> simp [SessionState.summary, he]

end Ends

/-! ## The message of a whole run -/

/-- With every write going through and a turn that starts with `results`, none of them a
failure: the client gets exactly the opening, one frame for each shown text delta, and the close
with the turn's usage and last stop sequence, and the turn is completed when a shown delta had
text and empty otherwise, if and only if the turn's message deltas can all be written. -/
theorem relays_one_message_iff_deltas_render (hlk : lk.Reliable) (link : σ)
    (messageId model : String) (prompt : ByteArray) (opts : TurnOptions) {results : List Item}
    (hstart : ∀ w, (lk.start w prompt opts).1 = .items results)
    (hitems : ∀ e, Item.failure e ∉ results) :
    ((∃ close, endTurnDelta (lastStopSequence (streamEvents results))
          (totalUsage (streamEvents results)) = .ok close ∧
        (run lk link messageId model prompt opts).2.written =
          openingFrames messageId model ++ (shownDeltas (streamEvents results)).map deltaFrame ++
            closingFrames close) ∧
      ∃ r, (run lk link messageId model prompt opts).1 = .returned r ∧
        r.outcome = if (shownDeltas (streamEvents results)).any carriesText then .completed
          else .empty) ↔
    deltasRender (streamEvents results) = true := by
  have hs : lk.start (opening lk link messageId model).link prompt opts =
      (.items results, (lk.start (opening lk link messageId model).link prompt opts).2) :=
    Prod.ext (hstart _) rfl
  have ht0 := tracks_opening hlk link messageId model
    (lk.start (opening lk link messageId model).link prompt opts).2
  rw [run_of_items ht0.clientGone hs]
  dsimp only
  -- a turn that fails is reported as failed, so the message cannot be what the left side says
  have failed : ∀ {t : SessionState σ}, t.failure.isSome →
      ¬ ∃ r, (Ending.returned t.summary) = .returned r ∧
        r.outcome = if (shownDeltas (streamEvents results)).any carriesText then .completed
          else .empty := by
    rintro t hf ⟨r, hr, hout⟩
    cases hr
    exact summary_outcome_of_failure hf _ hout
  by_cases hev : (streamEvents results).all rendersAlone = true
  · have ht := ht0.pump hlk hitems hev
    rw [List.nil_append] at ht
    cases hclose : endTurnDelta (lastStopSequence (streamEvents results))
        (totalUsage (streamEvents results)) with
    | ok close =>
      obtain ⟨hwritten, hfailure, hgone, htext⟩ := ht.finishTurn hlk hclose
      have hrender : deltasRender (streamEvents results) = true := by
        simp [deltasRender, hev, hclose, Except.isOk, Except.toBool]
      refine iff_of_true ⟨⟨close, rfl, hwritten⟩, _, rfl, ?_⟩ hrender
      rw [summary_outcome_of_open hfailure hgone, htext]
      by_cases hany : (shownDeltas (streamEvents results)).any carriesText = true
      · have hpos := List.countP_pos_iff.2 (List.any_eq_true.1 hany)
        simp [hany, Nat.pos_iff_ne_zero.1 hpos]
      · have hzero : (shownDeltas (streamEvents results)).countP carriesText = 0 :=
          List.countP_eq_zero.2 (by simpa using hany)
        simp [hany, hzero]
    | error m =>
      have hrender : deltasRender (streamEvents results) = false := by
        simp [deltasRender, hclose, Except.isOk, Except.toBool]
      exact iff_of_false (fun h => failed (ht.finishTurn_failure hlk hclose) h.2)
        (by simp [hrender])
  · have hrender : deltasRender (streamEvents results) = false := by
      simp [deltasRender, hev]
    have hf : (Session.finishTurn lk _).failure.isSome :=
      finishTurn_failure_of_failure (ht0.pump_failure hlk hitems (by simpa using hev))
    exact iff_of_false (fun h => failed hf h.2) (by simp [hrender])

/-! ### Counters that overflow

Usage counters are doubles and are summed as such. Two message deltas of `1e308` output tokens
each can be written, but their sum overflows to infinity, which has no JSON text: the close
fails and the message is never finished. The run is first stated against which of the two
doubles have a JSON text, then computed outright. -/

/-- A link on which every write goes through and every turn yields `results`. -/
def steadyLink (results : List Item) : Link Unit where
  write _ _ _ := (.ok, ())
  start _ _ _ := (.items results, ())

/-- A message delta of a turn that reports `n` output tokens and nothing else. -/
def outputTokensDelta (n : Float) : Item :=
  .message (.streamEvent none "session"
    (some (.messageDelta ByteArray.empty (some "end_turn") none (some [("output_tokens", .number n)]))))

/-- A usage of only output tokens can be written exactly when their count has a JSON text. -/
theorem endTurnDelta_outputTokens_isOk (stopSequence : Option String) (n : Float) :
    (endTurnDelta stopSequence (some [("output_tokens", .number n)])).isOk =
      (Decimal.jsonText n).isSome := by
  cases h : Decimal.jsonText n <;>
    simp [endTurnDelta, withOutputTokens, Dict.get?, Dict.render, Value.render, renderMembers, h,
      Except.isOk, Except.toBool, bind, Except.bind, pure, Except.pure, Except.map]

/-- Two deltas' output tokens are summed. -/
theorem totalUsage_outputTokens (a b : Float) :
    totalUsage (streamEvents [outputTokensDelta a, outputTokensDelta b]) =
      some [("output_tokens", .number (a + b))] := by
  simp [totalUsage, streamEvents, outputTokensDelta, Event.usage, addUsage, Dict.insert, Dict.get?]

/-- At two deltas of `1e308` output tokens, the message comes out exactly when `1e308` and the
sum of two of them have JSON texts. -/
theorem doubled_output_tokens_relayed_iff_sum_written :
    (steadyLink [outputTokensDelta 1e308, outputTokensDelta 1e308]).Reliable ∧
      (∀ w, ((steadyLink [outputTokensDelta 1e308, outputTokensDelta 1e308]).start w
        ByteArray.empty {}).1 = .items [outputTokensDelta 1e308, outputTokensDelta 1e308]) ∧
      (∀ e, Item.failure e ∉ [outputTokensDelta 1e308, outputTokensDelta 1e308]) ∧
      (((∃ close, endTurnDelta
            (lastStopSequence (streamEvents [outputTokensDelta 1e308, outputTokensDelta 1e308]))
            (totalUsage (streamEvents [outputTokensDelta 1e308, outputTokensDelta 1e308])) =
              .ok close ∧
          (run (steadyLink [outputTokensDelta 1e308, outputTokensDelta 1e308]) () "msg_1" "claude"
            ByteArray.empty {}).2.written =
            openingFrames "msg_1" "claude" ++
              (shownDeltas (streamEvents [outputTokensDelta 1e308, outputTokensDelta 1e308])).map
                deltaFrame ++ closingFrames close) ∧
        ∃ r, (run (steadyLink [outputTokensDelta 1e308, outputTokensDelta 1e308]) () "msg_1"
            "claude" ByteArray.empty {}).1 = .returned r ∧
          r.outcome =
            if (shownDeltas (streamEvents [outputTokensDelta 1e308, outputTokensDelta 1e308])).any
              carriesText then .completed else .empty) ↔
        ((Decimal.jsonText 1e308).isSome && (Decimal.jsonText (1e308 + 1e308)).isSome) = true) := by
  have hitems : ∀ e, Item.failure e ∉ [outputTokensDelta 1e308, outputTokensDelta 1e308] := by
    simp [outputTokensDelta]
  refine ⟨⟨fun _ _ _ => rfl, fun _ _ => rfl⟩, fun _ => rfl, hitems, ?_⟩
  rw [relays_one_message_iff_deltas_render ⟨fun _ _ _ => rfl, fun _ _ => rfl⟩ () "msg_1" "claude"
    ByteArray.empty {} (fun _ => rfl) hitems]
  simp only [deltasRender, totalUsage_outputTokens, endTurnDelta_outputTokens_isOk]
  simp [streamEvents, outputTokensDelta, rendersAlone, endTurnDelta_outputTokens_isOk]

/-- At two deltas of `1e308` output tokens, on a link where every write goes through and the
turn starts without a failure, the message is never closed: `content_block_stop` is the last
frame written, with no `message_delta` or `message_stop` after it, and the turn is an upstream
error rather than completed or empty. -/
theorem doubled_output_tokens_left_unclosed :
    (steadyLink [outputTokensDelta 1e308, outputTokensDelta 1e308]).Reliable ∧
      (∀ e, Item.failure e ∉ [outputTokensDelta 1e308, outputTokensDelta 1e308]) ∧
      (run (steadyLink [outputTokensDelta 1e308, outputTokensDelta 1e308]) () "msg_1" "claude"
          ByteArray.empty {}).2.written.map (·.name) =
        ["message_start", "content_block_start", "content_block_stop"] ∧
      (run (steadyLink [outputTokensDelta 1e308, outputTokensDelta 1e308]) () "msg_1" "claude"
          ByteArray.empty {}).2.summary.outcome = .upstreamError :=
  ⟨⟨fun _ _ _ => rfl, fun _ _ => rfl⟩, by simp [outputTokensDelta], by decide +kernel⟩

end Session

end TurnRelay.Stream
