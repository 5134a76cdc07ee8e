import TurnRelay.Proofs.Stream.CallLog
import TurnRelay.Proofs.Stream.Folding

/-!
# The frames of a run form one message

Whatever the turn reports and however the writes fail, the events a session writes should be the
beginning of one message (`Bracketed`): its opening (`message_start`, then `content_block_start`
for text block 0), text deltas on block 0, and its close (`content_block_stop`, the message delta
with stop reason `end_turn`, `message_stop`); or a beginning of the opening and deltas followed by
one `error` event, after which nothing is written.

Inside the turn this holds step by step (`Session.InTurn`): the session writes only the frames
of text deltas the turn reported, an error told is written last since it halts the session, and
the close is written only by a session that told no error and saw no failure. So a run whose
opening holds up writes one message (`frames_bracketed`).

The opening can break down, though. A `message_start` that fails for another reason than the
client leaving closes the session, and the session is then opened again for the turn, whose
deltas are written with no opening before them (`delta_written_without_opening`).
-/

namespace TurnRelay.Assistant

/-- Whether an event is a text delta. -/
def Event.isTextDelta : Event → Bool
  | .blockDelta _ _ deltaType _ => deltaType == "text_delta"
  | _ => false

end TurnRelay.Assistant

namespace TurnRelay.Stream

open TurnRelay.Assistant

/-! ## One message -/

/-- The stream events of a started turn; none when it did not start. -/
def startedEvents : Started → List Event
  | .items results => streamEvents results
  | _ => []

/-- Whether a frame is that of a text delta among `evs`: the delta as it came when its block is
0, and written anew on block 0 otherwise. -/
def IsDeltaOf (evs : List Event) (d : Outgoing) : Prop :=
  ∃ ev ∈ evs, ev.isTextDelta = true ∧ d = deltaFrame ev

/-- The `error` event that tells a failure. -/
def errorFrame (m : String) : Outgoing := ⟨"error", errorData m⟩

/-- A beginning of the message's close: the block's stop, then a message delta with stop reason
`end_turn` as `endTurnDelta` writes it, then the message's stop. -/
def ClosingPrefix (tail : List Outgoing) : Prop :=
  tail <+: [⟨"content_block_stop", blockStopData⟩] ∨
    ∃ stopSequence usage close, endTurnDelta stopSequence usage = .ok close ∧
      tail <+: closingFrames close

/-- The frames of one message as its client should see them, from a turn that reported `evs`:
a beginning of the opening, the frames of text deltas of the turn, and the close; or a beginning
of the opening and those deltas, and then one `error` event. -/
def Bracketed (evs : List Event) (messageId model : String) (frames : List Outgoing) : Prop :=
  ∃ deltas, (∀ d ∈ deltas, IsDeltaOf evs d) ∧
    ((∃ tail, ClosingPrefix tail ∧ frames <+: openingFrames messageId model ++ deltas ++ tail) ∨
      ∃ pre m, pre <+: openingFrames messageId model ++ deltas ∧ frames = pre ++ [errorFrame m])

/-- A message written so far opens with `message_start`, or is a lone `error` event. -/
theorem Bracketed.first_name {evs : List Event} {messageId model : String}
    {frames : List Outgoing} (h : Bracketed evs messageId model frames) {o : Outgoing}
    (ho : frames.head? = some o) : o.name = "message_start" ∨ o.name = "error" := by
  obtain ⟨deltas, -, ⟨tail, -, hpre⟩ | ⟨pre, m, hpre, rfl⟩⟩ := h
  · -- the first frame written is the first of the opening
    left
    obtain ⟨rest, hrest⟩ := hpre
    cases frames with
    | nil => cases ho
    | cons f fs =>
      cases ho
      simp only [openingFrames, List.cons_append, List.cons.injEq] at hrest
      rw [hrest.1]
  · cases pre with
    | nil =>
      cases ho
      exact .inr rfl
    | cons p ps =>
      left
      obtain ⟨rest, hrest⟩ := hpre
      cases ho
      simp only [openingFrames, List.cons_append, List.cons.injEq] at hrest
      rw [hrest.1]

namespace Session

variable {σ : Type} (lk : Link σ)

/-! ## What a step writes -/

/-- Folding an event writes nothing. -/
theorem fold_written (s : SessionState σ) (ev : Event) (out : Outgoing) :
    (fold s ev out).2.written = s.written := by
  unfold fold
  split
  · split
    · rfl
    · split <;> rfl
  · rfl
  · rfl

/-- What folding passes on of an event the client gets is the frame of a text delta. -/
theorem fold_deltaFrame {s s' : SessionState σ} {ev : Event} {hidden hidden' : IndexSet}
    {out o : Outgoing} (hremap : remap (some ev) hidden = .ok (some out, hidden'))
    (h : fold s ev out = (some o, s')) : ev.isTextDelta = true ∧ o = deltaFrame ev := by
  cases ev with
  | blockDelta raw index deltaType text =>
    -- a delta passed on is the delta as it came
    have hout : out = ⟨"content_block_delta", raw⟩ := by
      simp only [remap] at hremap
      split at hremap
      · cases hremap
      · cases hremap
        rfl
    subst hout
    simp only [fold] at h
    by_cases htext : deltaType = "text_delta"
    · subst htext
      refine ⟨by simp [Event.isTextDelta], ?_⟩
      -- block 0 keeps the delta as it came; another block gets it written anew
      by_cases hzero : index = 0
      · simp only [hzero, bne_self_eq_false, beq_self_eq_true, Bool.false_eq_true, ↓reduceIte,
          Prod.mk.injEq, Option.some.injEq] at h
        rw [← h.1]
        simp [deltaFrame, hzero]
      · simp only [hzero, bne_self_eq_false, beq_iff_eq, Bool.false_eq_true, ↓reduceIte,
          Prod.mk.injEq, Option.some.injEq] at h
        rw [← h.1]
        simp [deltaFrame, hzero]
    · simp [htext] at h
  | _ => simp [fold] at h

/-- The close a session writes is a beginning of the message's close: a write that does not go
through leaves the session quiet, and nothing after it is written. -/
theorem writeTerminal_closing (s : SessionState σ) :
    ∃ tail, ClosingPrefix tail ∧ (writeTerminal lk s).written = s.written ++ tail := by
  have hnil : ClosingPrefix [] := .inl List.nil_prefix
  have hstop : ClosingPrefix [⟨"content_block_stop", blockStopData⟩] := .inl (List.prefix_refl _)
  unfold writeTerminal
  split
  · exact ⟨[], hnil, by simp⟩
  · dsimp only
    have c1 := writeEvent_cases lk { s with terminated := true } "content_block_stop" blockStopData
    generalize writeEvent lk { s with terminated := true } "content_block_stop" blockStopData = r1
      at c1 ⊢
    rcases c1 with ⟨-, h1⟩ | ⟨-, hq1, h1⟩
    · split
      · exact ⟨_, hstop, by simp [h1]⟩
      · rename_i close hclose
        have hclosing (tail) (htail : tail <+: closingFrames close) : ClosingPrefix tail :=
          .inr ⟨_, _, close, hclose, htail⟩
        have c2 := writeEvent_cases lk r1.2 "message_delta" close
        generalize writeEvent lk r1.2 "message_delta" close = r2 at c2 ⊢
        rcases c2 with ⟨-, h2⟩ | ⟨-, hq2, h2⟩
        · rcases writeEvent_cases lk r2.2 "message_stop" messageStopData with ⟨-, h3⟩ | ⟨-, -, h3⟩
          · refine ⟨_, hclosing _ (List.prefix_refl _), ?_⟩
            simp [h3, h2, h1, closingFrames]
          · refine ⟨_, hclosing [⟨"content_block_stop", blockStopData⟩, ⟨"message_delta", close⟩]
              ⟨[⟨"message_stop", messageStopData⟩], rfl⟩, ?_⟩
            simp [h3, h2, h1]
        · rw [writeEvent_of_quiet lk hq2]
          exact ⟨_, hstop, by simp [h2, h1]⟩
    · split
      · exact ⟨[], hnil, by simp [h1]⟩
      · rw [writeEvent_of_quiet lk hq1, writeEvent_of_quiet lk hq1]
        exact ⟨[], hnil, by simp [h1]⟩

/-! ## Inside the turn -/

/-- Where a session stands inside a turn that reports `evs`, after the frames `head`: it has
written frames of the turn's text deltas, and perhaps then one `error` event, after which it is
halted. -/
def InTurn (evs : List Event) (head : List Outgoing) (s : SessionState σ) : Prop :=
  ∃ deltas, (∀ d ∈ deltas, IsDeltaOf evs d) ∧
    (s.written = head ++ deltas ∨ s.Halted ∧ ∃ m, s.written = head ++ deltas ++ [errorFrame m])

namespace InTurn

variable {lk} {evs : List Event} {head : List Outgoing} {s t : SessionState σ}

theorem start (h : s.written = head) : InTurn evs head s :=
  ⟨[], by simp, .inl (by simp [h])⟩

/-- Steps that write nothing keep the invariant: a halted session stays halted. -/
theorem of_steps (h : InTurn evs head s) (hsteps : Steps lk s t) (hw : t.written = s.written) :
    InTurn evs head t := by
  obtain ⟨deltas, hdeltas, hcase⟩ := h
  refine ⟨deltas, hdeltas, ?_⟩
  rw [hw]
  rcases hcase with hcase | ⟨hhalt, m, hcase⟩
  · exact .inl hcase
  · exact .inr ⟨hsteps.halted hhalt, m, hcase⟩

/-- A change of the session's records keeps the invariant. -/
theorem of_record (h : InTurn evs head s) (written : t.written = s.written)
    (gone : t.clientGone = s.clientGone) (phase : t.phase = s.phase)
    (failure : t.failure = s.failure) : InTurn evs head t := by
  obtain ⟨deltas, hdeltas, hcase⟩ := h
  refine ⟨deltas, hdeltas, ?_⟩
  rw [written]
  rcases hcase with hcase | ⟨hhalt, m, hcase⟩
  · exact .inl hcase
  · exact .inr ⟨hhalt.of_flags gone (.inl phase) (by rw [failure]; exact id), m, hcase⟩

/-- Writing the frame of one of the turn's text deltas keeps the invariant. -/
theorem writeEvent (h : InTurn evs head s) {name : String} {data : ByteArray}
    (hd : IsDeltaOf evs ⟨name, data⟩) : InTurn evs head (Session.writeEvent lk s name data).2 := by
  obtain ⟨deltas, hdeltas, hcase⟩ := h
  rcases hcase with hcase | ⟨hhalt, m, hcase⟩
  · rcases writeEvent_cases lk s name data with ⟨-, hw⟩ | ⟨-, -, hw⟩
    · refine ⟨deltas ++ [⟨name, data⟩], ?_, .inl ?_⟩
      · intro d hmem
        rcases List.mem_append.1 hmem with hmem | hmem
        · exact hdeltas d hmem
        · rw [List.mem_singleton.1 hmem]
          exact hd
      · rw [hw, hcase, List.append_assoc]
    · exact ⟨deltas, hdeltas, .inl (hw.trans hcase)⟩
  · -- a halted session writes nothing
    rw [writeEvent_of_quiet lk hhalt.quiet]
    exact ⟨deltas, hdeltas, .inr ⟨hhalt, m, hcase⟩⟩

theorem keepalive (h : InTurn evs head s) : InTurn evs head (Session.keepalive lk s) :=
  h.of_steps (Step.keepalive s).steps (keepalive_written lk s)

theorem wait (h : InTurn evs head s) : InTurn evs head (Session.wait lk s) := by
  unfold Session.wait
  generalize lk.ticks s.link = k
  induction k with
  | zero => exact h
  | succ k ih => exact ih.keepalive

/-- A failure told is the last frame: the session that tells it is closed with the failure. -/
theorem fail (h : InTurn evs head s) (err : String) : InTurn evs head (Session.fail lk s err) := by
  obtain ⟨deltas, hdeltas, hcase⟩ := h
  rcases fail_cases s with htold | hsilent
  · rw [fail_told lk htold]
    rcases hcase with hcase | ⟨hhalt, -, -⟩
    · let r := { s with failure := some (s.failure.getD err), errorSent := true }
      have hfailure : (Session.writeEvent lk r "error" (errorData err)).2.failure.isSome :=
        (Step.event r "error" (errorData err) error_mem_streamNames).failure_isSome rfl
      rcases writeEvent_cases lk r "error" (errorData err) with ⟨-, hw⟩ | ⟨-, -, hw⟩
      · refine ⟨deltas, hdeltas, .inr ⟨.inr ⟨rfl, hfailure⟩, err, ?_⟩⟩
        show (Session.writeEvent lk r "error" (errorData err)).2.written = _
        rw [hw, List.append_assoc]
        simp [r, hcase, errorFrame]
      · refine ⟨deltas, hdeltas, .inl ?_⟩
        show (Session.writeEvent lk r "error" (errorData err)).2.written = _
        rw [hw]
        exact hcase
    · -- a halted session tells nothing
      exfalso
      rcases hhalt with hg | ⟨hp, -⟩
      · simp [hg] at htold
      · exact htold.2.2 hp
  · have hsteps := fail_steps lk (s := s) err
    rw [fail_silent lk hsilent] at hsteps ⊢
    exact InTurn.of_steps ⟨deltas, hdeltas, hcase⟩ hsteps rfl

/-- Handling one of the turn's events keeps the invariant: it fails the session, changes only
its records, or writes the event's frame when it is a text delta the client sees. -/
theorem handleEvent (h : InTurn evs head s) {ev : Event} (hev : ev ∈ evs) :
    InTurn evs head (Session.handleEvent lk s ev) := by
  unfold Session.handleEvent
  split
  · exact h.fail _
  · exact h.of_record rfl rfl rfl rfl
  · rename_i out hidden hremap
    have hhidden : InTurn evs head { s with hidden := hidden } :=
      h.of_record rfl rfl rfl rfl
    have hfolded := hhidden.of_steps (fold_steps lk (s := { s with hidden := hidden }) ev out)
      (fold_written _ _ _)
    split
    · rename_i s' heq
      rw [heq] at hfolded
      exact hfolded.of_record rfl rfl rfl rfl
    · rename_i o s' heq
      rw [heq] at hfolded
      obtain ⟨htext, ho⟩ := fold_deltaFrame hremap heq
      have hwritten : InTurn evs head (Session.writeEvent lk s' o.name o.data).2 :=
        hfolded.writeEvent ⟨ev, hev, htext, ho⟩
      split
      · rename_i s'' hw
        rw [hw] at hwritten
        split
        · exact hwritten.of_record rfl rfl rfl rfl
        · exact hwritten
      · rename_i s'' hw
        rw [hw] at hwritten
        exact hwritten

theorem handle (h : InTurn evs head s) {item : Item} (hitem : ∀ ev ∈ streamEvents [item], ev ∈ evs) :
    InTurn evs head (Session.handle lk s item) := by
  unfold Session.handle
  split
  · exact h.fail _
  · exact h.handleEvent (hitem _ (by simp [streamEvents]))
  · exact h

theorem pump (h : InTurn evs head s) {results : List Item}
    (hresults : ∀ ev ∈ streamEvents results, ev ∈ evs) :
    InTurn evs head (Session.pump lk s results) := by
  induction results generalizing s with
  | nil => exact h.wait
  | cons item rest ih =>
    rw [pump_cons]
    rw [streamEvents_cons] at hresults
    exact ih (h.wait.handle fun ev hev => hresults ev (List.mem_append_left _ hev))
      fun ev hev => hresults ev (List.mem_append_right _ hev)

/-- The frames written inside the turn are a message so far. -/
theorem bracketed {messageId model : String} (h : InTurn evs (openingFrames messageId model) s) :
    Bracketed evs messageId model s.written := by
  obtain ⟨deltas, hdeltas, hcase | ⟨-, m, hcase⟩⟩ := h
  · refine ⟨deltas, hdeltas, .inl ⟨[], .inl List.nil_prefix, ?_⟩⟩
    simp only [hcase, List.append_nil, List.prefix_refl]
  · exact ⟨deltas, hdeltas, .inr ⟨_, m, List.prefix_refl _, hcase⟩⟩

/-- The close is written only after deltas, with no error told, so the whole is a message. -/
theorem finishTurn_bracketed {messageId model : String}
    (h : InTurn evs (openingFrames messageId model) s) :
    Bracketed evs messageId model (Session.finishTurn lk s).written := by
  unfold Session.finishTurn
  dsimp only
  split
  · rename_i hdue
    simp only [Bool.and_eq_true, Bool.not_eq_eq_eq_not, Bool.not_true,
      Option.isNone_iff_eq_none] at hdue
    obtain ⟨⟨hg, -⟩, hf⟩ := hdue
    obtain ⟨deltas, hdeltas, hcase | ⟨hhalt, -⟩⟩ := h
    · obtain ⟨tail, htail, hw⟩ := writeTerminal_closing lk { s with phase := .draining }
      refine ⟨deltas, hdeltas, .inl ⟨tail, htail, ?_⟩⟩
      rw [hw]
      simp only [hcase, List.prefix_refl]
    · -- a halted session has lost its client or holds a failure
      exfalso
      rcases hhalt with hh | ⟨-, hh⟩
      · simp [hg] at hh
      · simp [hf] at hh
  · exact h.bracketed

end InTurn

/-! ## The run -/

section Run

variable {lk} {link : σ} {messageId model : String}

/-- When the opening holds up, it is written whole, or the client left during it. -/
theorem opening_written (h : ¬ OpeningBreaksDown lk link messageId model) :
    (opening lk link messageId model).clientGone = true ∧
        (opening lk link messageId model).written <+: openingFrames messageId model ∨
      (opening lk link messageId model).written = openingFrames messageId model := by
  unfold opening
  rcases h1 : lk.write link "message_start" (messageStartData messageId model) with
    ⟨_ | _ | m, w1⟩
  · rcases h2 : lk.write w1 "content_block_start" blockStartData with ⟨_ | _ | m, w2⟩
    · right
      simp [writeEvent, h1, h2, openingFrames]
    · left
      simp [writeEvent, h1, h2, openingFrames]
    · exact absurd (by simp only [OpeningBreaksDown, h1]; exact ⟨m, w2, h2⟩) h
  · left
    simp [writeEvent, h1]
  · exact absurd (by simp [OpeningBreaksDown, h1]) h

/-- **A run whose opening holds up writes one message so far**: a beginning of the opening, text
deltas of the turn and the close, or the opening and such deltas followed by one `error` event. -/
theorem frames_bracketed (h : ¬ OpeningBreaksDown lk link messageId model) (prompt : ByteArray)
    (opts : TurnOptions) :
    Bracketed (startedEvents (lk.start (opening lk link messageId model).link prompt opts).1)
      messageId model (run lk link messageId model prompt opts).2.written := by
  rw [run_snd]
  dsimp only
  split
  · -- the client left during the opening: what was written is a beginning of it
    rename_i hgone
    refine ⟨[], by simp, .inl ⟨[], .inl List.nil_prefix, ?_⟩⟩
    rcases opening_written h with ⟨-, hpre⟩ | hw
    · simpa using hpre
    · simp only [hw, List.append_nil, List.prefix_refl]
  · rename_i hgone
    have hopen : (opening lk link messageId model).written = openingFrames messageId model := by
      rcases opening_written h with ⟨hg, -⟩ | hw
      · exact absurd hg hgone
      · exact hw
    rcases hst : lk.start (opening lk link messageId model).link prompt opts with ⟨st, w⟩
    have hturn : InTurn (startedEvents st) (openingFrames messageId model)
        { opening lk link messageId model with phase := .streaming, started := true, link := w } :=
      InTurn.start hopen
    rcases st with results | e | m
    · exact (hturn.pump fun ev hev => hev).finishTurn_bracketed
    · exact (hturn.fail _).bracketed
    · exact hturn.bracketed

/-- The JSON of a text delta `hi` on block 0. -/
def helloDeltaJson : ByteArray :=
  ("\x7b\"type\":\"content_block_delta\",\"index\":0,\"delta\":" ++
    "\x7b\"type\":\"text_delta\",\"text\":\"hi\"\x7d\x7d").toUTF8

/-- A turn's result that carries that delta. -/
def helloDelta : Item :=
  .message (.streamEvent none "" (some (.blockDelta helloDeltaJson 0 "text_delta" "hi")))

theorem steady_hello_frames_bracketed :
    ¬ OpeningBreaksDown (steadyLink [helloDelta]) () "msg_ID" "m" ∧
      Bracketed
        (startedEvents ((steadyLink [helloDelta]).start
          (opening (steadyLink [helloDelta]) () "msg_ID" "m").link ByteArray.empty {}).1)
        "msg_ID" "m" (run (steadyLink [helloDelta]) () "msg_ID" "m" ByteArray.empty {}).2.written :=
  ⟨by simp [OpeningBreaksDown, steadyLink],
    frames_bracketed (by simp [OpeningBreaksDown, steadyLink]) ByteArray.empty {}⟩

end Run

/-- A sink whose first write fails for another reason than the client leaving, before a turn
that reports the delta `hi`. -/
def failedOpeningLink : Link Nat where
  write n _ _ := (if n = 0 then .failed "boom" else .ok, n + 1)
  start n _ _ := (.items [helloDelta], n)

/-- When `message_start` fails, the turn's delta is still written, alone: its frames are no
message. -/
theorem delta_written_without_opening :
    (run failedOpeningLink 0 "msg_ID" "m" ByteArray.empty {}).2.written =
        [⟨"content_block_delta", helloDeltaJson⟩] ∧
      ¬ Bracketed
        (startedEvents (failedOpeningLink.start
          (opening failedOpeningLink 0 "msg_ID" "m").link ByteArray.empty {}).1)
        "msg_ID" "m" (run failedOpeningLink 0 "msg_ID" "m" ByteArray.empty {}).2.written := by
  have hw : (run failedOpeningLink 0 "msg_ID" "m" ByteArray.empty {}).2.written =
      [⟨"content_block_delta", helloDeltaJson⟩] := by
    simp [run_snd, opening, finishTurn, pump, wait, Nat.repeat, handle, handleEvent, remap, fold,
      writeEvent, safeWrite, failedOpeningLink, helloDelta, verbatim, Event.kind, EventKind.name,
      Event.raw, carriesText]
  refine ⟨hw, fun hb => ?_⟩
  have hhead : (run failedOpeningLink 0 "msg_ID" "m" ByteArray.empty {}).2.written.head? =
      some ⟨"content_block_delta", helloDeltaJson⟩ := by
    rw [hw]
    rfl
  rcases hb.first_name hhead with hname | hname <;> simp at hname

end Session

end TurnRelay.Stream
