import TurnRelay.Proofs.Stream.Ledger

/-!
# What a run went through

Over a recorded link a run leaves a trace (`Session.runTrace`): the calls of the opening;
whether the turn was started, and what starting it failed with; one `Round` for each result of
the turn, with the keepalives made while waiting for it and the writes made while handling it;
the calls made while waiting for the end; and the calls of the close of the message, with what
encoding its closing delta failed with.

`Session.SameTurn` says that a stretch of a session left alone what it keeps of the turn's
events, and `Session.Did` what the stretch did as seen from outside: the calls it made, the
failures it met in order, and the text deltas it relayed. Both compose, and each operation of
the session has one lemma that says what it did.

## Main results

* `Session.takeIn_did`: a round is what taking in its result did.
* `Session.writeTerminal_did`: the close of the message records its last failure, not its first.
* `Session.run_accounts`: the calls of a run are those of its trace; the failure it records is
  the first one the trace met, unless closing the message met two; and it counts the rounds
  that relayed text.
-/

namespace TurnRelay.Stream

open TurnRelay.Assistant

/-! ## Calls, rounds and traces -/

/-- What a call failed with: a write that did not go through, for another reason than a client
that is gone. -/
def Call.failure? : Call → Option String
  | .event _ _ (.failed m) => some m
  | .comment _ (.failed m) => some m
  | _ => none

/-- Whether a call wrote a text delta that went through. -/
def Call.deltaWritten : Call → Bool
  | .event name _ .ok => name == "content_block_delta"
  | _ => false

/-- One result of the turn as the session took it in: the calls made while waiting for it, the
result, and the calls made while handling it. -/
structure Round where
  waited : List Call
  item : Item
  handled : List Call

namespace Round

/-- The calls of a round, in order. -/
def calls (r : Round) : List Call := r.waited ++ r.handled

/-- The failures a round met, in order: keepalives that failed while waiting, the result's own
failure, and writes that failed while handling it. -/
def failures (r : Round) : List String :=
  r.waited.filterMap Call.failure? ++ r.item.failure?.toList ++ r.handled.filterMap Call.failure?

/-- Whether a round relayed text: its result carries text, and a text delta was written while
handling it. -/
def relaysText (r : Round) : Bool := r.item.carriesText && r.handled.any Call.deltaWritten

end Round

/-- What a run went through, seen from outside the session. -/
structure Trace where
  /-- The calls of the opening. -/
  opening : List Call
  started : Bool := false
  /-- What starting the turn failed with. -/
  startFailed : Option String := none
  rounds : List Round := []
  /-- The calls after the last result, or after the turn failed to start. -/
  ending : List Call := []
  /-- The calls of the close of the message. -/
  closing : List Call := []
  /-- What encoding the closing message delta failed with. -/
  encode : Option String := none

namespace Trace

/-- All the calls of a trace, in order. -/
def calls (T : Trace) : List Call :=
  T.opening ++ (if T.started then [.start] else []) ++ T.rounds.flatMap Round.calls ++ T.ending ++
    T.closing

/-- All the failures a trace met, in order. -/
def failures (T : Trace) : List String :=
  T.opening.filterMap Call.failure? ++ T.startFailed.toList ++ T.rounds.flatMap Round.failures ++
    T.ending.filterMap Call.failure? ++ T.closing.filterMap Call.failure? ++ T.encode.toList

/-- Whether the close of the message met two failures: a write of it failed, and then its
closing delta could not be encoded. -/
def closeFailedTwice (T : Trace) : Bool :=
  T.closing.any (fun c => c.failure?.isSome) && T.encode.isSome

end Trace

namespace Session

variable {σ : Type} (lk : Link σ)

/-- The calls a session over a recorded link made from `s` to `t`. -/
def callsSince (s t : SessionState (σ × List Call)) : List Call := t.link.2.drop s.link.2.length

/-- Waits for the turn's next result and handles it. -/
def takeIn (s : SessionState σ) (item : Item) : SessionState σ := handle lk (wait lk s) item

theorem pump_eq (s : SessionState σ) (results : List Item) :
    pump lk s results = wait lk (results.foldl (takeIn lk) s) := rfl

/-- The round of a result taken in by `s` over a recorded link. -/
def round (s : SessionState (σ × List Call)) (item : Item) : Round :=
  ⟨callsSince s (wait lk.recorded s), item,
    callsSince (wait lk.recorded s) (takeIn lk.recorded s item)⟩

/-- The rounds of the results `results` taken in one after another from `s`. -/
def rounds (s : SessionState (σ × List Call)) : List Item → List Round
  | [] => []
  | item :: rest => round lk s item :: rounds (takeIn lk.recorded s item) rest

/-- What closing the message fails with when its delta cannot be encoded; nothing once it was
closed. -/
def closeFailure (s : SessionState σ) : Option String :=
  if s.terminated then none
  else
    match endTurnDelta s.stopSequence s.usage with
    | .error m => some (encodeFailure m)
    | .ok _ => none

/-- The trace of a turn that gave the results `results` to the session `a` that started it,
after an opening that made the calls `opened`. -/
def turnTrace (opened : List Call) (a : SessionState (σ × List Call)) (results : List Item) :
    Trace :=
  let u := results.foldl (takeIn lk.recorded) a
  let v := { wait lk.recorded u with phase := .draining }
  let closes := !v.clientGone && !v.errorSent && v.failure.isNone
  { opening := opened, started := true, rounds := rounds lk a results, ending := callsSince u v,
    closing := if closes then callsSince v (writeTerminal lk.recorded v) else [],
    encode := if closes then closeFailure v else none }

/-- The trace of a run over `lk`, recorded. -/
def runTrace (link : σ) (messageId model : String) (prompt : ByteArray) (opts : TurnOptions) :
    Trace :=
  let s := opening lk.recorded (link, []) messageId model
  if s.clientGone then { opening := s.link.2 }
  else
    let s := { s with phase := .streaming, started := true }
    match lk.recorded.start s.link prompt opts with
    | (.panicked _, _) => { opening := s.link.2, started := true }
    | (.failed e, w) =>
      let a := { s with link := w }
      { opening := s.link.2, started := true, startFailed := some (startFailure e.message),
        ending := callsSince a (fail lk.recorded a (startFailure e.message)) }
    | (.items results, w) => turnTrace lk s.link.2 { s with link := w } results

/-! ## What a stretch of a session keeps of the turn -/

/-- `t` keeps what `s` holds of the turn's events: the hidden blocks, the usage and stop
sequence held for the close, and the counts of events suppressed and folded. -/
structure SameTurn (s t : SessionState σ) : Prop where
  hidden : t.hidden = s.hidden
  usage : t.usage = s.usage
  stopSequence : t.stopSequence = s.stopSequence
  suppressed : t.stats.eventsSuppressed = s.stats.eventsSuppressed
  folded : t.stats.eventsFolded = s.stats.eventsFolded

section SameTurn

variable {s t u : SessionState σ}

theorem SameTurn.refl (s : SessionState σ) : SameTurn s s := ⟨rfl, rfl, rfl, rfl, rfl⟩

theorem SameTurn.trans (h₁ : SameTurn s u) (h₂ : SameTurn u t) : SameTurn s t :=
  ⟨h₂.hidden.trans h₁.hidden, h₂.usage.trans h₁.usage, h₂.stopSequence.trans h₁.stopSequence,
    h₂.suppressed.trans h₁.suppressed, h₂.folded.trans h₁.folded⟩

theorem writeEvent_sameTurn (s : SessionState σ) (name : String) (data : ByteArray) :
    SameTurn s (writeEvent lk s name data).2 := by
  by_cases hq : s.Quiet
  · rw [writeEvent_of_quiet lk hq]
    exact .refl s
  · rcases hw : lk.write s.link name data with ⟨_ | _ | m, w⟩
    · rw [writeEvent_ok lk hq hw]
      exact ⟨rfl, rfl, rfl, rfl, rfl⟩
    · rw [writeEvent_gone lk hq hw]
      exact ⟨rfl, rfl, rfl, rfl, rfl⟩
    · rw [writeEvent_failed lk hq hw]
      exact ⟨rfl, rfl, rfl, rfl, rfl⟩

theorem keepalive_sameTurn (s : SessionState σ) : SameTurn s (keepalive lk s) := by
  by_cases hq : s.Quiet
  · rw [keepalive_of_quiet lk hq]
    exact .refl s
  · rcases hw : lk.comment s.link "keepalive" with ⟨_ | _ | m, w⟩
    · rw [keepalive_ok lk hq hw]
      exact ⟨rfl, rfl, rfl, rfl, rfl⟩
    · rw [keepalive_gone lk hq hw]
      exact ⟨rfl, rfl, rfl, rfl, rfl⟩
    · rw [keepalive_failed lk hq hw]
      exact ⟨rfl, rfl, rfl, rfl, rfl⟩

theorem wait_sameTurn (s : SessionState σ) : SameTurn s (wait lk s) := by
  unfold wait
  generalize lk.ticks s.link = k
  induction k with
  | zero => exact .refl s
  | succ k ih => exact ih.trans (keepalive_sameTurn lk _)

theorem fail_sameTurn (s : SessionState σ) (err : String) : SameTurn s (fail lk s err) := by
  rcases fail_cases s with h | h
  · rw [fail_told lk h]
    have told : SameTurn s { s with failure := some (s.failure.getD err), errorSent := true } :=
      ⟨rfl, rfl, rfl, rfl, rfl⟩
    exact (told.trans (writeEvent_sameTurn lk _ "error" (errorData err))).trans
      ⟨rfl, rfl, rfl, rfl, rfl⟩
  · rw [fail_silent lk h]
    exact ⟨rfl, rfl, rfl, rfl, rfl⟩

theorem relay_sameTurn (s : SessionState σ) (ev : Event) : SameTurn s (relay lk s ev) := by
  have written := writeEvent_sameTurn lk s (deltaFrame ev).name (deltaFrame ev).data
  unfold relay
  split
  · rename_i t hw
    rw [hw] at written
    split
    · exact written.trans ⟨rfl, rfl, rfl, rfl, rfl⟩
    · exact written
  · rename_i t hw
    rw [hw] at written
    exact written

theorem writeTerminal_sameTurn (s : SessionState σ) : SameTurn s (writeTerminal lk s) := by
  unfold writeTerminal
  split
  · exact .refl s
  · have stop := (show SameTurn s { s with terminated := true } from ⟨rfl, rfl, rfl, rfl, rfl⟩).trans
      (writeEvent_sameTurn lk _ "content_block_stop" blockStopData)
    dsimp only
    split
    · exact stop.trans ⟨rfl, rfl, rfl, rfl, rfl⟩
    · exact (stop.trans (writeEvent_sameTurn lk _ _ _)).trans (writeEvent_sameTurn lk _ _ _)

theorem finishTurn_sameTurn (s : SessionState σ) : SameTurn s (finishTurn lk s) := by
  have draining : SameTurn s { s with phase := .draining } := ⟨rfl, rfl, rfl, rfl, rfl⟩
  unfold finishTurn
  dsimp only
  split
  · exact (draining.trans (writeTerminal_sameTurn lk _)).trans ⟨rfl, rfl, rfl, rfl, rfl⟩
  · exact draining.trans ⟨rfl, rfl, rfl, rfl, rfl⟩

end SameTurn

/-! ## What a stretch of a session did -/

/-- From `s` to `t` a session over a recorded link made the calls `calls`, met the failures
`seen` in order, the first of them recorded unless one was already, and relayed `texts` deltas
with text. -/
structure Did (s t : SessionState (σ × List Call)) (calls : List Call) (seen : List String)
    (texts : Nat) : Prop where
  calls : t.link.2 = s.link.2 ++ calls
  failure : t.failure = s.failure.or seen.head?
  texts : t.stats.textEventsForwarded = s.stats.textEventsForwarded + texts

section Did

variable {lk} {s t u : SessionState (σ × List Call)} {c c₁ c₂ : List Call}
  {f f₁ f₂ : List String} {n n₁ n₂ : Nat}

theorem Did.refl (s : SessionState (σ × List Call)) : Did s s [] [] 0 := ⟨by simp, by simp, rfl⟩

theorem Did.trans (h₁ : Did s u c₁ f₁ n₁) (h₂ : Did u t c₂ f₂ n₂) :
    Did s t (c₁ ++ c₂) (f₁ ++ f₂) (n₁ + n₂) where
  calls := by rw [h₂.calls, h₁.calls, List.append_assoc]
  failure := by rw [h₂.failure, h₁.failure, List.head?_append, Option.or_assoc]
  texts := by rw [h₂.texts, h₁.texts, Nat.add_assoc]

/-- A change of the session's own records that calls nothing and keeps its failure. -/
theorem Did.record (link : t.link = s.link) (failure : t.failure = s.failure)
    (texts : t.stats.textEventsForwarded = s.stats.textEventsForwarded) : Did s t [] [] 0 :=
  ⟨by rw [link, List.append_nil], by rw [failure]; simp, texts⟩

/-- A move to another phase. -/
theorem Did.phase (s : SessionState (σ × List Call)) (p : Phase) :
    Did s { s with phase := p } [] [] 0 :=
  .record rfl rfl rfl

/-- The calls of a stretch are those the session made from its start to its end. -/
theorem Did.callsSince (h : Did s t c f n) : callsSince s t = c := by
  simp [Session.callsSince, h.calls]

end Did

section Operations

variable {s : SessionState (σ × List Call)}

/-- A write makes one call unless the session is quiet, and a text delta is written exactly when
the write goes through. -/
theorem writeEvent_did (s : SessionState (σ × List Call)) (name : String) (data : ByteArray) :
    ∃ c, Did s (writeEvent lk.recorded s name data).2 c (c.filterMap Call.failure?) 0 ∧
      c.any Call.deltaWritten = ((writeEvent lk.recorded s name data).1 &&
        name == "content_block_delta") := by
  by_cases hq : s.Quiet
  · rw [writeEvent_of_quiet _ hq]
    exact ⟨[], .refl s, rfl⟩
  · rcases hw : lk.write s.link.1 name data with ⟨_ | _ | m, w⟩
    · rw [writeEvent_ok _ hq (recorded_write lk hw)]
      exact ⟨_, ⟨rfl, by simp [Call.failure?], rfl⟩, by simp [Call.deltaWritten]⟩
    · rw [writeEvent_gone _ hq (recorded_write lk hw)]
      exact ⟨_, ⟨rfl, by simp [Call.failure?], rfl⟩, by simp [Call.deltaWritten]⟩
    · rw [writeEvent_failed _ hq (recorded_write lk hw)]
      refine ⟨_, ⟨rfl, ?_, rfl⟩, by simp [Call.deltaWritten]⟩
      cases s.failure <;> simp [Call.failure?]

theorem keepalive_did (s : SessionState (σ × List Call)) :
    ∃ c, Did s (keepalive lk.recorded s) c (c.filterMap Call.failure?) 0 := by
  by_cases hq : s.Quiet
  · rw [keepalive_of_quiet _ hq]
    exact ⟨[], .refl s⟩
  · rcases hw : lk.comment s.link.1 "keepalive" with ⟨_ | _ | m, w⟩
    · rw [keepalive_ok _ hq (recorded_comment lk hw)]
      exact ⟨_, rfl, by simp [Call.failure?], rfl⟩
    · rw [keepalive_gone _ hq (recorded_comment lk hw)]
      exact ⟨_, rfl, by simp [Call.failure?], rfl⟩
    · rw [keepalive_failed _ hq (recorded_comment lk hw)]
      refine ⟨_, rfl, ?_, rfl⟩
      cases s.failure <;> simp [Call.failure?]

theorem wait_did (s : SessionState (σ × List Call)) :
    ∃ c, Did s (wait lk.recorded s) c (c.filterMap Call.failure?) 0 := by
  unfold wait
  generalize lk.recorded.ticks s.link = k
  induction k with
  | zero => exact ⟨[], .refl s⟩
  | succ k ih =>
    obtain ⟨c₁, h₁⟩ := ih
    obtain ⟨c₂, h₂⟩ := keepalive_did lk (Nat.repeat (keepalive lk.recorded) k s)
    refine ⟨c₁ ++ c₂, ?_⟩
    rw [List.filterMap_append]
    exact h₁.trans h₂

/-- A failure is met first, and then the write that tells it, if the session can still write. -/
theorem fail_did (s : SessionState (σ × List Call)) (err : String) :
    ∃ c, Did s (fail lk.recorded s err) c (err :: c.filterMap Call.failure?) 0 := by
  rcases fail_cases s with h | h
  · rw [fail_told lk.recorded h]
    have recorded : Did s { s with failure := some (s.failure.getD err), errorSent := true } [] [err]
        0 :=
      ⟨by simp, by cases s.failure <;> rfl, rfl⟩
    obtain ⟨c, hc, -⟩ := writeEvent_did lk
      { s with failure := some (s.failure.getD err), errorSent := true } "error" (errorData err)
    exact ⟨c, by simpa using recorded.trans (hc.trans (.phase _ .closed))⟩
  · rw [fail_silent lk.recorded h]
    exact ⟨[], by simp, by cases s.failure <;> rfl, rfl⟩

/-- A text delta the client sees is written as a `content_block_delta`. -/
theorem deltaFrame_name_of_relayed {hidden : Int → Bool} {ev : Event} (h : fate hidden ev = .relayed) :
    (deltaFrame ev).name = "content_block_delta" := by
  cases ev with
  | blockDelta => rfl
  | blockStart raw index blockType => simp only [fate] at h; split at h <;> cases h
  | blockStop raw index => simp only [fate] at h; split at h <;> cases h
  | messageDelta raw stopReason stopSequence usage =>
    simp only [fate] at h; split at h <;> cases h
  | messageStart raw => simp [fate] at h
  | messageStop raw => simp [fate] at h

/-- An event that fails the turn carries no text. -/
theorem carriesText_of_failure {ev : Event} {m : String} (h : ev.failure? = some m) :
    carriesText ev = false := by
  cases ev <;> simp_all [Event.failure?, carriesText]

theorem failure?_eq_none_of_fate (hidden : Int → Bool) {ev : Event} (h : fate hidden ev ≠ .failed) :
    ev.failure? = none :=
  Option.not_isSome_iff_eq_none.1 fun hs => h ((fate_eq_failed_iff hidden ev).2 hs)

/-- A relayed delta is written once; it counts as text when it carries text and went through. -/
theorem relay_did (s : SessionState (σ × List Call)) (ev : Event)
    (hname : (deltaFrame ev).name = "content_block_delta") :
    ∃ c, Did s (relay lk.recorded s ev) c (c.filterMap Call.failure?)
      (if carriesText ev && c.any Call.deltaWritten then 1 else 0) := by
  obtain ⟨c, hc, hany⟩ := writeEvent_did lk s (deltaFrame ev).name (deltaFrame ev).data
  have written : c.any Call.deltaWritten =
      (writeEvent lk.recorded s (deltaFrame ev).name (deltaFrame ev).data).1 := by
    rw [hany, hname]
    simp
  unfold relay
  rcases hw : writeEvent lk.recorded s (deltaFrame ev).name (deltaFrame ev).data with ⟨_ | _, t⟩ <;>
    rw [hw] at hc written <;> dsimp only at hc written ⊢
  · exact ⟨c, by simpa [written] using hc⟩
  · by_cases htext : carriesText ev = true
    · simp only [htext, ↓reduceIte]
      exact ⟨c, hc.calls, hc.failure, by simp [written, hc.texts]⟩
    · simp only [htext, Bool.false_eq_true, ↓reduceIte]
      exact ⟨c, by simpa [htext, written] using hc⟩

/-- Handling an event meets its own failure first, then those of the writes it makes. -/
theorem handleEvent_did (s : SessionState (σ × List Call)) (ev : Event) :
    ∃ c, Did s (handleEvent lk.recorded s ev) c (ev.failure?.toList ++ c.filterMap Call.failure?)
      (if carriesText ev && c.any Call.deltaWritten then 1 else 0) := by
  -- a suppressed or folded event only changes the session's own records
  have absorbed : ∀ t : SessionState (σ × List Call), t.link = s.link → t.failure = s.failure →
      t.stats.textEventsForwarded = s.stats.textEventsForwarded → ev.failure? = none →
      ∃ c, Did s t c (ev.failure?.toList ++ c.filterMap Call.failure?)
        (if carriesText ev && c.any Call.deltaWritten then 1 else 0) :=
    fun t hl hf ht hn => ⟨[], by simpa [hn] using Did.record hl hf ht⟩
  cases hf : fate s.hidden.contains ev with
  | failed =>
    obtain ⟨m, hm⟩ := Option.isSome_iff_exists.1 ((fate_eq_failed_iff _ ev).1 hf)
    rw [handleEvent_failed _ hm, hm, carriesText_of_failure hm]
    obtain ⟨c, hc⟩ := fail_did lk s m
    exact ⟨c, by simpa using hc⟩
  | suppressed =>
    rw [handleEvent_suppressed _ hf]
    exact absorbed _ rfl rfl rfl (failure?_eq_none_of_fate s.hidden.contains (by simp [hf]))
  | folded =>
    rw [handleEvent_folded _ hf]
    exact absorbed _ rfl rfl rfl (failure?_eq_none_of_fate s.hidden.contains (by simp [hf]))
  | relayed =>
    rw [handleEvent_relayed _ hf, failure?_eq_none_of_fate s.hidden.contains (by simp [hf])]
    obtain ⟨c, hc⟩ := relay_did lk s ev (deltaFrame_name_of_relayed hf)
    exact ⟨c, by simpa using hc⟩

/-- Handling a result meets its own failure first, then those of the writes it makes. -/
theorem handle_did (s : SessionState (σ × List Call)) (item : Item) :
    ∃ c, Did s (handle lk.recorded s item) c (item.failure?.toList ++ c.filterMap Call.failure?)
      (if item.carriesText && c.any Call.deltaWritten then 1 else 0) := by
  rw [handle_eq]
  cases item with
  | failure e =>
    obtain ⟨c, hc⟩ := fail_did lk s e.message
    exact ⟨c, by simpa [Item.failure?, Item.carriesText, Item.event?] using hc⟩
  | message m =>
    dsimp only
    cases hev : (Item.message m).event? with
    | none => exact ⟨[], by simpa [Item.failure?, Item.carriesText, hev] using Did.refl s⟩
    | some ev =>
      obtain ⟨c, hc⟩ := handleEvent_did lk s ev
      exact ⟨c, by simpa [Item.failure?, Item.carriesText, hev] using hc⟩

end Operations

/-! ## Rounds -/

/-- A round is what taking in its result did. -/
theorem takeIn_did (s : SessionState (σ × List Call)) (item : Item) :
    Did s (takeIn lk.recorded s item) (round lk s item).calls (round lk s item).failures
      (if (round lk s item).relaysText then 1 else 0) := by
  obtain ⟨c₁, h₁⟩ := wait_did lk s
  obtain ⟨c₂, h₂⟩ := handle_did lk (wait lk.recorded s) item
  have waited : (round lk s item).waited = c₁ := h₁.callsSince
  have handled : (round lk s item).handled = c₂ := h₂.callsSince
  have taken : (round lk s item).item = item := rfl
  simpa [takeIn, Round.calls, Round.failures, Round.relaysText, waited, handled, taken] using
    h₁.trans h₂

/-- Taking in results one after another did what their rounds did, one after another. -/
theorem foldl_did (s : SessionState (σ × List Call)) (results : List Item) :
    Did s (results.foldl (takeIn lk.recorded) s) ((rounds lk s results).flatMap Round.calls)
      ((rounds lk s results).flatMap Round.failures)
      ((rounds lk s results).countP Round.relaysText) := by
  induction results generalizing s with
  | nil => exact .refl s
  | cons item rest ih =>
    rw [List.foldl_cons]
    simp only [rounds, List.flatMap_cons, List.countP_cons]
    rw [Nat.add_comm]
    exact (takeIn_did lk s item).trans (ih _)

/-! ## The opening, the start and the close -/

theorem opening_did (link : σ) (messageId model : String) :
    Did { link := (link, []) } (opening lk.recorded (link, []) messageId model)
      (opening lk.recorded (link, []) messageId model).link.2
      ((opening lk.recorded (link, []) messageId model).link.2.filterMap Call.failure?) 0 := by
  obtain ⟨c₁, h₁, -⟩ := writeEvent_did lk { link := (link, []) } "message_start"
    (messageStartData messageId model)
  obtain ⟨c₂, h₂, -⟩ := writeEvent_did lk _ "content_block_start" blockStartData
  have opened : Did _ (opening lk.recorded (link, []) messageId model) _ _ _ := h₁.trans h₂
  have calls : (opening lk.recorded (link, []) messageId model).link.2 = c₁ ++ c₂ := by
    simpa using opened.calls
  rw [calls, List.filterMap_append]
  exact opened

/-- Starting the turn adds its call and nothing else. -/
theorem start_did {a : SessionState (σ × List Call)} {prompt : ByteArray} {opts : TurnOptions}
    {st : Started} {w : σ × List Call} (h : lk.recorded.start a.link prompt opts = (st, w)) :
    Did a { a with link := w } [.start] [] 0 :=
  ⟨congrArg Prod.snd (recorded_start_calls lk h), by simp, rfl⟩

/-- Closing the message, from a session that records no failure, makes the calls `c` and then
records the last failure it met: a failed write, or after it the encoding of the closing
delta. -/
theorem writeTerminal_did (s : SessionState (σ × List Call)) (hs : s.failure = none) :
    ∃ c, (writeTerminal lk.recorded s).link.2 = s.link.2 ++ c ∧
      (writeTerminal lk.recorded s).failure =
        (if c.any (fun x => x.failure?.isSome) && (closeFailure s).isSome then closeFailure s
          else (c.filterMap Call.failure? ++ (closeFailure s).toList).head?) ∧
      (writeTerminal lk.recorded s).stats.textEventsForwarded = s.stats.textEventsForwarded := by
  unfold writeTerminal
  by_cases ht : s.terminated = true
  · have hc : closeFailure s = none := by simp [closeFailure, ht]
    refine ⟨[], ?_, ?_, ?_⟩ <;> simp [ht, hc, hs]
  · simp only [ht, Bool.false_eq_true, ↓reduceIte]
    obtain ⟨c₁, h₁, -⟩ := writeEvent_did lk { s with terminated := true } "content_block_stop"
      blockStopData
    have kept := writeEvent_sameTurn lk.recorded { s with terminated := true } "content_block_stop"
      blockStopData
    have hstop : (writeEvent lk.recorded { s with terminated := true } "content_block_stop"
        blockStopData).2.stopSequence = s.stopSequence := kept.stopSequence
    have husage : (writeEvent lk.recorded { s with terminated := true } "content_block_stop"
        blockStopData).2.usage = s.usage := kept.usage
    rw [hstop, husage]
    rcases hd : endTurnDelta s.stopSequence s.usage with m | data
    · -- the closing delta cannot be encoded: its failure replaces any the write met
      have hc : closeFailure s = some (encodeFailure m) := by simp [closeFailure, ht, hd]
      refine ⟨c₁, h₁.calls, ?_, h₁.texts⟩
      by_cases hany : c₁.any (fun x => x.failure?.isSome) = true
      · simp [hc, hany]
      · have none : c₁.filterMap Call.failure? = [] := by
          simpa [List.filterMap_eq_nil_iff] using hany
        simp [hc, hany, none]
    · have hc : closeFailure s = none := by simp [closeFailure, ht, hd]
      obtain ⟨c₂, h₂, -⟩ := writeEvent_did lk _ "message_delta" data
      obtain ⟨c₃, h₃, -⟩ := writeEvent_did lk _ "message_stop" messageStopData
      have closed := h₁.trans (h₂.trans h₃)
      refine ⟨c₁ ++ (c₂ ++ c₃), closed.calls, ?_, closed.texts⟩
      rw [closed.failure]
      simp [hs, hc]

/-! ## The run -/

/-- What the final state of a run records agrees with its trace: the calls made, the failure
recorded, and the text deltas counted. -/
structure Accounts (T : Trace) (s : SessionState (σ × List Call)) : Prop where
  calls : s.link.2 = T.calls
  failure : s.failure = if T.closeFailedTwice then T.encode else T.failures.head?
  texts : s.stats.textEventsForwarded = T.rounds.countP Round.relaysText

/-- A run that did all of its trace from the first state, with no close that failed twice. -/
theorem Accounts.of_did {T : Trace} {link : σ} {s : SessionState (σ × List Call)}
    (h : Did { link := (link, []) } s T.calls T.failures (T.rounds.countP Round.relaysText))
    (htwice : T.closeFailedTwice = false) : Accounts T s :=
  ⟨by simpa using h.calls, by simpa [htwice] using h.failure, by simpa using h.texts⟩

/-- A turn that gave results accounts for its trace, from a session that started it after an
opening that met only the failures of its calls. -/
theorem turnTrace_accounts {link : σ} {a : SessionState (σ × List Call)} {opened : List Call}
    (ha : Did { link := (link, []) } a (opened ++ [.start]) (opened.filterMap Call.failure?) 0)
    (results : List Item) :
    Accounts (turnTrace lk opened a results) (finishTurn lk.recorded (pump lk.recorded a results)) := by
  rw [pump_eq]
  unfold finishTurn turnTrace
  dsimp only
  obtain ⟨c, hw⟩ := wait_did lk (results.foldl (takeIn lk.recorded) a)
  have waited := hw.trans (.phase _ .draining)
  have ending := waited.callsSince
  have pre := (ha.trans (foldl_did lk a results)).trans hw
  split_ifs with hc
  · -- the message is closed: nothing failed before, and the close records its last failure
    have hnone : (wait lk.recorded (results.foldl (takeIn lk.recorded) a)).failure = none := by
      simp at hc
      exact hc.2
    obtain ⟨c', hcalls, hfail, htexts⟩ := writeTerminal_did lk
      { wait lk.recorded (results.foldl (takeIn lk.recorded) a) with phase := .draining } hnone
    have closing : callsSince
        { wait lk.recorded (results.foldl (takeIn lk.recorded) a) with phase := .draining }
        (writeTerminal lk.recorded
          { wait lk.recorded (results.foldl (takeIn lk.recorded) a) with phase := .draining }) = c' := by
      simp [callsSince, hcalls]
    have before : opened.filterMap Call.failure? = [] ∧
        (rounds lk a results).flatMap Round.failures = [] ∧ c.filterMap Call.failure? = [] := by
      have h := pre.failure
      rw [hnone] at h
      simpa [List.append_eq_nil_iff] using List.head?_eq_none_iff.1 h.symm
    refine ⟨?_, ?_, ?_⟩
    · simp [Trace.calls, hcalls, pre.calls, ending, closing]
    · rw [hfail]
      simp [Trace.failures, Trace.closeFailedTwice, before.1, before.2.1, before.2.2, ending,
        closing]
    · simp [htexts, pre.texts]
  · have closed := (pre.trans (.phase _ .draining)).trans (.phase _ .closed)
    exact .of_did (by simpa [Trace.calls, Trace.failures, ending] using closed)
      (by simp [Trace.closeFailedTwice])

/-- A turn that failed to start accounts for its trace. -/
theorem startFailed_accounts {link : σ} {a : SessionState (σ × List Call)} {opened : List Call}
    (ha : Did { link := (link, []) } a (opened ++ [.start]) (opened.filterMap Call.failure?) 0)
    (err : String) :
    Accounts
      { opening := opened, started := true, startFailed := some err,
        ending := callsSince a (fail lk.recorded a err) }
      (fail lk.recorded a err) := by
  obtain ⟨c, hc⟩ := fail_did lk a err
  exact .of_did (by simpa [Trace.calls, Trace.failures, hc.callsSince] using ha.trans hc) rfl

/-- The final state of every run over a recorded link accounts for the run's trace. -/
theorem run_accounts (link : σ) (messageId model : String) (prompt : ByteArray)
    (opts : TurnOptions) :
    Accounts (runTrace lk link messageId model prompt opts)
      (run lk.recorded (link, []) messageId model prompt opts).2 := by
  have opened := opening_did lk link messageId model
  rw [run_snd]
  unfold runTrace
  dsimp only
  split
  · -- the client left during the opening, and the turn is not started
    exact .of_did (by simpa [Trace.calls, Trace.failures] using opened.trans (.phase _ .closed)) rfl
  · have streaming := opened.trans (Did.record (t := { opening lk.recorded (link, []) messageId model
      with phase := .streaming, started := true }) rfl rfl rfl)
    rcases hst : lk.recorded.start (opening lk.recorded (link, []) messageId model).link prompt opts
      with ⟨st, w⟩
    have started := streaming.trans (start_did lk hst)
    rcases st with results | e | m
    · exact turnTrace_accounts lk (by simpa using started) results
    · exact startFailed_accounts lk (by simpa using started) _
    · exact .of_did (by simpa [Trace.calls, Trace.failures] using started) rfl

end Session

end TurnRelay.Stream
