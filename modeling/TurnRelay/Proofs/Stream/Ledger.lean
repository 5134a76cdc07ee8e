import Mathlib
import TurnRelay.Proofs.Stream.CallLog
import TurnRelay.Proofs.Stream.Fates

/-!
# What a session's calls account for

A session changes its link, the frames it has written, whether its client is gone and the
counts of what it wrote (`eventsForwarded`, `keepalivesSent`, `bytesSent`) only by writing, an
event or a keepalive. Everything else it does, inside the turn and around it, is a change of its
own records that leaves these alone (`Session.Move`). Every operation of a session is a chain of
such moves, so a property that each move keeps holds through a whole run (`Session.run_keep`).

Over a link that keeps its calls (`Link.recorded`) this ties the counts to the calls made
(`Session.Ledger`): the frames written are those of the event writes that went through, in
order; `eventsForwarded` counts them; `keepalivesSent` counts the keepalives that went through;
`bytesSent` is the size of both on the wire; and the client is gone exactly when a call found
it gone. The turn is started at most once (`Session.Moves.starts`).
-/

namespace TurnRelay.Stream

open TurnRelay.Assistant

/-! ## Calls -/

/-- The frame of an event write that went through. -/
def Call.frame? : Call → Option Outgoing
  | .event name data .ok => some ⟨name, data⟩
  | _ => none

/-- Whether a call is a keepalive that went through. -/
def Call.keptAlive : Call → Bool
  | .comment _ .ok => true
  | _ => false

/-- Whether a call found the client gone. -/
def Call.foundGone : Call → Bool
  | .event _ _ .gone | .comment _ .gone => true
  | _ => false

/-- Whether a call started the turn. -/
def Call.isStart : Call → Bool
  | .start => true
  | _ => false

/-- The bytes frames take on the wire. -/
def framesSize (frames : List Outgoing) : Nat := (frames.map fun o => frameSize o.name o.data).sum

@[simp] theorem framesSize_nil : framesSize [] = 0 := rfl

@[simp] theorem framesSize_append (a b : List Outgoing) :
    framesSize (a ++ b) = framesSize a + framesSize b := by
  simp [framesSize]

@[simp] theorem framesSize_singleton (o : Outgoing) : framesSize [o] = frameSize o.name o.data := by
  simp [framesSize]

namespace Session

variable {σ : Type} (lk : Link σ)

/-! ## Moves -/

/-- One move of a session, as far as its link, its frames, its client and the counts of what it
wrote go: a write of an event or of a keepalive, or a change of its own records that leaves all
of these alone. -/
inductive Move : SessionState σ → SessionState σ → Prop
  | event (s : SessionState σ) (name : String) (data : ByteArray) :
      Move s (writeEvent lk s name data).2
  | keepalive (s : SessionState σ) : Move s (keepalive lk s)
  | record {s t : SessionState σ} (link : t.link = s.link) (written : t.written = s.written)
      (gone : t.clientGone = s.clientGone)
      (forwarded : t.stats.eventsForwarded = s.stats.eventsForwarded)
      (kept : t.stats.keepalivesSent = s.stats.keepalivesSent)
      (bytes : t.stats.bytesSent = s.stats.bytesSent) : Move s t

/-- Moves one after another. -/
abbrev Moves : SessionState σ → SessionState σ → Prop := Relation.ReflTransGen (Move lk)

section Chains

variable {lk} {s t : SessionState σ}

theorem Move.moves (h : Move lk s t) : Moves lk s t := Relation.ReflTransGen.single h

/-- A change of the session's own records, as a chain of one move. -/
theorem Moves.record (link : t.link = s.link) (written : t.written = s.written)
    (gone : t.clientGone = s.clientGone)
    (forwarded : t.stats.eventsForwarded = s.stats.eventsForwarded)
    (kept : t.stats.keepalivesSent = s.stats.keepalivesSent)
    (bytes : t.stats.bytesSent = s.stats.bytesSent) : Moves lk s t :=
  (Move.record link written gone forwarded kept bytes).moves

/-- Every chain of moves keeps a property that each move keeps. -/
theorem Moves.keep {P : SessionState σ → Prop} (step : ∀ {a b}, Move lk a b → P a → P b)
    (h : Moves lk s t) (hs : P s) : P t := by
  induction h with
  | refl => exact hs
  | tail _ hbc ih => exact step hbc ih

end Chains

section Operations

variable {s : SessionState σ}

theorem fail_moves (err : String) : Moves lk s (fail lk s err) := by
  rcases fail_cases s with h | h
  · rw [fail_told lk h]
    let a : SessionState σ := { s with failure := some (s.failure.getD err), errorSent := true }
    have told : Moves lk s (writeEvent lk a "error" (errorData err)).2 :=
      (Moves.record (s := s) (t := a) rfl rfl rfl rfl rfl rfl).tail (.event _ "error" (errorData err))
    exact told.trans (Moves.record rfl rfl rfl rfl rfl rfl)
  · rw [fail_silent lk h]
    exact Moves.record rfl rfl rfl rfl rfl rfl

theorem relay_moves (ev : Event) : Moves lk s (relay lk s ev) := by
  have written : Moves lk s (writeEvent lk s (deltaFrame ev).name (deltaFrame ev).data).2 :=
    (Move.event s _ _).moves
  unfold relay
  split
  · rename_i t hw
    rw [hw] at written
    split
    · exact written.trans (Moves.record rfl rfl rfl rfl rfl rfl)
    · exact written
  · rename_i t hw
    rw [hw] at written
    exact written

/-- Handling an event is a chain of moves, whatever its fate. -/
theorem handleEvent_moves (ev : Event) : Moves lk s (handleEvent lk s ev) := by
  cases hf : fate s.hidden.contains ev with
  | failed =>
    obtain ⟨m, hm⟩ := Option.isSome_iff_exists.1 ((fate_eq_failed_iff _ ev).1 hf)
    rw [handleEvent_failed lk hm]
    exact fail_moves lk m
  | suppressed =>
    rw [handleEvent_suppressed lk hf]
    exact Moves.record rfl rfl rfl rfl rfl rfl
  | folded =>
    rw [handleEvent_folded lk hf]
    exact Moves.record rfl rfl rfl rfl rfl rfl
  | relayed =>
    rw [handleEvent_relayed lk hf]
    exact relay_moves lk ev

theorem handle_moves (item : Item) : Moves lk s (handle lk s item) := by
  rw [handle_eq]
  split
  · exact fail_moves lk _
  · split
    · exact handleEvent_moves lk _
    · exact .refl

theorem wait_moves : Moves lk s (wait lk s) := by
  unfold wait
  generalize lk.ticks s.link = k
  induction k with
  | zero => exact .refl
  | succ k ih => exact ih.tail (.keepalive _)

theorem pump_moves (results : List Item) : Moves lk s (pump lk s results) := by
  induction results generalizing s with
  | nil => exact wait_moves lk
  | cons item rest ih =>
    rw [pump_cons]
    exact ((wait_moves lk).trans (handle_moves lk item)).trans ih

theorem writeTerminal_moves : Moves lk s (writeTerminal lk s) := by
  unfold writeTerminal
  split
  · exact .refl
  · have stop : Moves lk s
        (writeEvent lk { s with terminated := true } "content_block_stop" blockStopData).2 :=
      (Moves.record (s := s) (t := { s with terminated := true }) rfl rfl rfl rfl rfl rfl).tail
        (.event _ _ _)
    dsimp only
    split
    · exact stop.trans (Moves.record rfl rfl rfl rfl rfl rfl)
    · exact (stop.tail (.event _ _ _)).tail (.event _ _ _)

/-- What follows the pump: the session drains, closes the block and the message when that is
due, and ends. -/
theorem finishTurn_moves : Moves lk s (finishTurn lk s) := by
  have draining : Moves lk s { s with phase := .draining } := Moves.record rfl rfl rfl rfl rfl rfl
  unfold finishTurn
  dsimp only
  split
  · exact (draining.trans (writeTerminal_moves lk)).trans (Moves.record rfl rfl rfl rfl rfl rfl)
  · exact draining.trans (Moves.record rfl rfl rfl rfl rfl rfl)

theorem opening_moves {link : σ} {messageId model : String} :
    Moves lk { link := link } (opening lk link messageId model) :=
  ((Move.event _ _ _).moves).tail (.event _ _ _)

end Operations

/-- A run is a chain of moves, or one with the start of the turn in between: its opening, then
unless the client left, the start, and after it the turn and its close. -/
theorem run_moves (link : σ) (messageId model : String) (prompt : ByteArray) (opts : TurnOptions) :
    Moves lk { link := link } (run lk link messageId model prompt opts).2 ∨
      ∃ a st w, Moves lk { link := link } a ∧ lk.start a.link prompt opts = (st, w) ∧
        Moves lk { a with link := w } (run lk link messageId model prompt opts).2 := by
  have opened : Moves lk { link := link } (opening lk link messageId model) := opening_moves lk
  have streaming : Moves lk { link := link }
      { opening lk link messageId model with phase := .streaming, started := true } :=
    opened.trans (Moves.record rfl rfl rfl rfl rfl rfl)
  rw [run_snd]
  dsimp only
  split
  · exact .inl (opened.trans (Moves.record rfl rfl rfl rfl rfl rfl))
  · right
    rcases hst : lk.start (opening lk link messageId model).link prompt opts with ⟨st, w⟩
    refine ⟨_, st, w, streaming, hst, ?_⟩
    rcases st with results | e | m
    · exact (pump_moves lk results).trans (finishTurn_moves lk)
    · exact fail_moves lk _
    · exact .refl

/-- A property of sessions that every move keeps, and that starting the turn keeps whatever the
start reports, holds at the end of every run that begins where it holds. -/
theorem run_keep {P : SessionState σ → Prop} {link : σ} {messageId model : String}
    {prompt : ByteArray} {opts : TurnOptions} (move : ∀ {a b}, Move lk a b → P a → P b)
    (start : ∀ (a : SessionState σ) st w, lk.start a.link prompt opts = (st, w) → P a →
      P { a with link := w })
    (init : P { link := link }) : P (run lk link messageId model prompt opts).2 := by
  rcases run_moves lk link messageId model prompt opts with h | ⟨a, st, w, ha, hst, hrest⟩
  · exact h.keep move init
  · exact hrest.keep move (start a st w hst (ha.keep move init))

/-! ## The ledger of a recorded session -/

/-- What a session over a recorded link holds agrees with the calls it made: the frames written
are those of the event writes that went through, in order; `eventsForwarded` counts them;
`keepalivesSent` counts the keepalives that went through; `bytesSent` is the size of both on the
wire; and the client is gone exactly when a call found it gone. -/
structure Ledger (s : SessionState (σ × List Call)) : Prop where
  written : s.written = s.link.2.filterMap Call.frame?
  forwarded : s.stats.eventsForwarded = s.written.length
  kept : s.stats.keepalivesSent = s.link.2.countP Call.keptAlive
  bytes : s.stats.bytesSent = framesSize s.written + keepaliveSize * s.stats.keepalivesSent
  gone : s.clientGone = s.link.2.any Call.foundGone

section Ledger

variable {lk}
variable {s t : SessionState (σ × List Call)}

/-- A session that has made no call yet. -/
theorem Ledger.initial (link : σ) : Ledger ({ link := (link, []) } : SessionState (σ × List Call)) :=
  ⟨rfl, rfl, rfl, rfl, rfl⟩

/-- One more call, which writes no frame, keeps no client alive and finds no client gone, taken
in with no change to the frames, the client or the counts. -/
theorem Ledger.call (hs : Ledger s) {c : Call} (hframe : c.frame? = none)
    (hkept : c.keptAlive = false) (hgone : c.foundGone = false)
    (link : t.link.2 = s.link.2 ++ [c]) (written : t.written = s.written)
    (gone : t.clientGone = s.clientGone) (stats : t.stats = s.stats) : Ledger t where
  written := by simp [written, link, hs.written, hframe]
  forwarded := by rw [stats, written]; exact hs.forwarded
  kept := by simp [stats, link, hs.kept, hkept]
  bytes := by rw [stats, written]; exact hs.bytes
  gone := by simp [gone, link, hs.gone, hgone]

/-- Each move of a recorded session keeps the ledger: a write adds its call, and what the call
reported is taken in as the ledger says. -/
theorem Move.ledger (h : Move lk.recorded s t) (hs : Ledger s) : Ledger t := by
  cases h with
  | event name data =>
    by_cases hq : s.Quiet
    · rwa [writeEvent_of_quiet _ hq]
    · rcases hw : lk.write s.link.1 name data with ⟨_ | _ | m, w⟩
      · rw [writeEvent_ok _ hq (recorded_write lk hw)]
        refine ⟨?_, ?_, ?_, ?_, ?_⟩ <;>
          simp [hs.written, hs.forwarded, hs.kept, hs.bytes, hs.gone, Call.frame?, Call.keptAlive,
            Call.foundGone]
        -- what is left is the byte count, one frame more
        omega
      · rw [writeEvent_gone _ hq (recorded_write lk hw)]
        refine ⟨?_, ?_, ?_, ?_, ?_⟩ <;>
          simp [hs.written, hs.forwarded, hs.kept, hs.bytes, Call.frame?, Call.keptAlive,
            Call.foundGone]
      · rw [writeEvent_failed _ hq (recorded_write lk hw)]
        exact hs.call (c := .event name data (.failed m)) rfl rfl rfl rfl rfl rfl rfl
  | keepalive =>
    by_cases hq : s.Quiet
    · rwa [keepalive_of_quiet _ hq]
    · rcases hw : lk.comment s.link.1 "keepalive" with ⟨_ | _ | m, w⟩
      · rw [keepalive_ok _ hq (recorded_comment lk hw)]
        refine ⟨?_, ?_, ?_, ?_, ?_⟩ <;>
          simp [hs.written, hs.forwarded, hs.kept, hs.bytes, hs.gone, Call.frame?, Call.keptAlive,
            Call.foundGone, Nat.mul_add_one]
        -- what is left is the byte count, one keepalive more
        omega
      · rw [keepalive_gone _ hq (recorded_comment lk hw)]
        refine ⟨?_, ?_, ?_, ?_, ?_⟩ <;>
          simp [hs.written, hs.forwarded, hs.kept, hs.bytes, Call.frame?, Call.keptAlive,
            Call.foundGone]
      · rw [keepalive_failed _ hq (recorded_comment lk hw)]
        exact hs.call (c := .comment "keepalive" (.failed m)) rfl rfl rfl rfl rfl rfl rfl
  | record link written gone forwarded kept bytes =>
    exact ⟨by rw [written, link]; exact hs.written, by rw [forwarded, written]; exact hs.forwarded,
      by rw [kept, link]; exact hs.kept, by rw [bytes, written, kept]; exact hs.bytes,
      by rw [gone, link]; exact hs.gone⟩

/-- A move starts no turn: the calls it adds are writes. -/
theorem Move.starts (h : Move lk.recorded s t) :
    t.link.2.countP Call.isStart = s.link.2.countP Call.isStart := by
  cases h with
  | event name data =>
    by_cases hq : s.Quiet
    · rw [writeEvent_of_quiet _ hq]
    · rcases hw : lk.write s.link.1 name data with ⟨_ | _ | m, w⟩
      · rw [writeEvent_ok _ hq (recorded_write lk hw)]
        simp [Call.isStart]
      · rw [writeEvent_gone _ hq (recorded_write lk hw)]
        simp [Call.isStart]
      · rw [writeEvent_failed _ hq (recorded_write lk hw)]
        simp [Call.isStart]
  | keepalive =>
    by_cases hq : s.Quiet
    · rw [keepalive_of_quiet _ hq]
    · rcases hw : lk.comment s.link.1 "keepalive" with ⟨_ | _ | m, w⟩
      · rw [keepalive_ok _ hq (recorded_comment lk hw)]
        simp [Call.isStart]
      · rw [keepalive_gone _ hq (recorded_comment lk hw)]
        simp [Call.isStart]
      · rw [keepalive_failed _ hq (recorded_comment lk hw)]
        simp [Call.isStart]
  | record link => rw [link]

end Ledger

/-- The start of a recorded link adds the call that starts the turn. -/
theorem recorded_start_calls {w w' : σ × List Call} {prompt : ByteArray} {opts : TurnOptions}
    {st : Started} (h : lk.recorded.start w prompt opts = (st, w')) : w' = (w'.1, w.2 ++ [.start]) := by
  rcases hs : lk.start w.1 prompt opts with ⟨st', v⟩
  rw [recorded_start lk hs] at h
  cases h
  rfl

/-- Over a whole run the ledger holds. -/
theorem run_ledger (link : σ) (messageId model : String) (prompt : ByteArray) (opts : TurnOptions) :
    Ledger (run lk.recorded (link, []) messageId model prompt opts).2 := by
  refine run_keep lk.recorded (fun h hs => h.ledger hs) (fun a st w hst ha => ?_)
    (Ledger.initial link)
  exact ha.call (c := .start) rfl rfl rfl (by rw [recorded_start_calls lk hst]) rfl rfl rfl

/-- A run starts the turn at most once. -/
theorem run_starts (link : σ) (messageId model : String) (prompt : ByteArray) (opts : TurnOptions) :
    (run lk.recorded (link, []) messageId model prompt opts).2.link.2.countP Call.isStart ≤ 1 := by
  have keeps : ∀ {a b}, Moves lk.recorded a b →
      b.link.2.countP Call.isStart = a.link.2.countP Call.isStart := fun {a _} h =>
    h.keep (P := fun c => c.link.2.countP Call.isStart = a.link.2.countP Call.isStart)
      (fun hm hb => hm.starts.trans hb) rfl
  rcases run_moves lk.recorded (link, []) messageId model prompt opts with h | ⟨a, st, w, ha, hst, hrest⟩
  · simp [keeps h]
  · rw [keeps hrest, recorded_start_calls lk hst]
    simp [keeps ha, Call.isStart]

end Session

end TurnRelay.Stream
