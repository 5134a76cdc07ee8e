import TurnRelay.Proofs.Admission.SingleFlight
import TurnRelay.Http.Concurrent

/-!
# One session at a time

Requests handled at once (`Handling`) share the queue's slot, and each body calls the provider
only while its task holds the slot. A body reads its channel until it is closed, which happens
only once the provider's process has exited, and it ends only then. So, over every interleaving
of requests, queue steps, provider behaviours and body steps:

* a session is open only while its body runs, its task holding the slot; no two sessions are
  open at once, and no two processes run at once;
* a body ends only once its channel is closed and drained, as the gateway's answer over all
  that the channel gave;
* whatever the provider gives, the calls can all return by their own steps alone.

The invariant (`Handling.Sound`) adds to the queue's (`Callers.Sound`) how each body's turn
fits its call: a channel open only while the body runs, a turn over once the body ended, and
what the provider gave each body standing to where its turn is. Progress follows the queue's
own (`Callers.Sound.can_return`): each body ending of the queue's run is the body's turn
taken to its end (`bodyMoves`), then its ending.
-/

namespace TurnRelay.Admission

namespace Callers

/-! ## What a step of the queue keeps -/

section Frame

variable {s s' : Callers} {a : Act}

theorem mem_lifeOf_of_history {evs : List Event} (hh : s'.history = s.history ++ evs) {u : Nat}
    {w : Happening} : w ∈ s'.lifeOf u ↔ w ∈ s.lifeOf u ∨ ⟨u, w⟩ ∈ evs := by
  rw [lifeOf_of_history hh, List.mem_append, List.mem_filterMap]
  simp only [Option.ite_none_right_eq_some, Option.some.injEq]
  constructor
  · rintro (h | ⟨⟨u', w'⟩, hev, rfl, rfl⟩)
    · exact .inl h
    · exact .inr hev
  · rintro (h | h)
    · exact .inl h
    · exact .inr ⟨_, h, rfl, rfl⟩

theorem what_of_mem_grantOf {before after : Queue Nat} {ev : Event}
    (h : ev ∈ grantOf before after) : ev.what = .granted := by
  unfold grantOf at h
  split at h <;> simp_all

/-- Every step only adds to the history, and only a body ending adds an end. -/
theorem step_history (h : s.step a = some s') :
    ∃ evs, s'.history = s.history ++ evs ∧ ∀ u e, ⟨u, .ended e⟩ ∈ evs → a = .finish u e := by
  cases a with
  | join =>
    obtain ⟨-, -, hh⟩ := step_join h
    exact ⟨_, hh, fun u e he => by simpa using what_of_mem_grantOf he⟩
  | cancel t =>
    obtain ⟨-, ⟨-, rfl⟩ | ⟨-, rfl⟩⟩ := step_cancel h
    · exact ⟨[], by simp, by simp⟩
    · exact ⟨_, rfl, by simp⟩
  | wake t =>
    obtain ⟨-, -, rfl⟩ := step_wake h
    exact ⟨_, rfl, by simp⟩
  | notice t =>
    obtain ⟨-, -, rfl⟩ := step_notice h
    exact ⟨[], by simp [moveTo], by simp⟩
  | withdraw t =>
    obtain ⟨-, ⟨-, -, hh, -⟩ | ⟨-, rfl⟩⟩ := step_withdraw h
    · exact ⟨_, hh, by simp⟩
    · exact ⟨_, rfl, by simp⟩
  | finish t e =>
    obtain ⟨-, rfl⟩ := step_finish h
    exact ⟨_, rfl, by simp⟩
  | release t =>
    obtain ⟨_, -, -, -, hh⟩ := step_release h
    exact ⟨_, hh, fun u e he => by simpa using what_of_mem_grantOf he⟩

/-- Only a body ending adds an end to its task's life. -/
theorem ended_of_step (h : s.step a = some s') {u : Nat} {e : TaskEnd}
    (he : .ended e ∈ s'.lifeOf u) : .ended e ∈ s.lifeOf u ∨ a = .finish u e := by
  obtain ⟨evs, hh, hend⟩ := step_history h
  rcases (mem_lifeOf_of_history hh).1 he with he | he
  · exact .inl he
  · exact .inr (hend u e he)

/-- A step keeps running every body other than the one it ends. -/
theorem running_of_step (h : s.step a = some s') {u : Nat} (ha : ∀ e, a ≠ .finish u e)
    (hu : s.stages[u]? = some .running) : s'.stages[u]? = some .running := by
  -- a step moves at most one call: one that is not running, or the one whose body it ends
  have moved : ∀ {t : Nat} {x : Stage}, t ≠ u → s'.stages = s.stages.set t x →
      s'.stages[u]? = some .running := by
    intro t x htu hst
    rw [hst, List.getElem?_set_ne htu]
    exact hu
  have other : ∀ {t : Nat} {x : Stage}, s.stages[t]? = some x → x ≠ .running → t ≠ u := by
    rintro t x hx hne rfl
    exact hne (Option.some.inj (hx.symm.trans hu))
  cases a with
  | join =>
    obtain ⟨hst, -, -⟩ := step_join h
    rw [hst, List.getElem?_append_left (lt_length_of_stage hu)]
    exact hu
  | cancel t =>
    obtain ⟨-, ⟨-, rfl⟩ | ⟨-, rfl⟩⟩ := step_cancel h
    · exact hu
    · exact hu
  | wake t =>
    obtain ⟨hst, -, rfl⟩ := step_wake h
    exact moved (other hst (by simp)) rfl
  | notice t =>
    obtain ⟨hst, -, rfl⟩ := step_notice h
    exact moved (other hst (by simp)) rfl
  | withdraw t =>
    obtain ⟨hst, ⟨-, hst', -, -⟩ | ⟨-, rfl⟩⟩ := step_withdraw h
    · exact moved (other hst (by simp)) hst'
    · exact moved (other hst (by simp)) rfl
  | finish t e =>
    obtain ⟨-, rfl⟩ := step_finish h
    exact moved (fun htu => ha e (by rw [htu])) rfl
  | release t =>
    obtain ⟨e, hst, hst', -, -⟩ := step_release h
    exact moved (other hst (by simp)) hst'

/-- Only a new call changes how many calls there are. -/
theorem length_of_step (h : s.step a = some s') (ha : a ≠ .join) :
    s'.stages.length = s.stages.length := by
  cases a with
  | join => exact absurd rfl ha
  | cancel t =>
    obtain ⟨-, ⟨-, rfl⟩ | ⟨-, rfl⟩⟩ := step_cancel h
    · rfl
    · rfl
  | wake t =>
    obtain ⟨-, -, rfl⟩ := step_wake h
    exact List.length_set
  | notice t =>
    obtain ⟨-, -, rfl⟩ := step_notice h
    exact List.length_set
  | withdraw t =>
    obtain ⟨-, ⟨-, hst, -, -⟩ | ⟨-, rfl⟩⟩ := step_withdraw h
    · rw [hst, List.length_set]
    · exact List.length_set
  | finish t e =>
    obtain ⟨-, rfl⟩ := step_finish h
    exact List.length_set
  | release t =>
    obtain ⟨e, -, hst, -, -⟩ := step_release h
    rw [hst, List.length_set]

end Frame

namespace Sound

variable {s : Callers}

/-- A running body has not ended. -/
theorem not_ended_of_running (hs : Sound s) {t : Nat} (h : s.stages[t]? = some .running)
    (e : TaskEnd) : .ended e ∉ s.lifeOf t := by
  intro he
  have hc : .ended e ∈ course (s.lifeOf t) := (mem_course (by simp) _).2 he
  rw [(hs.fits t _ h).1] at hc
  simp at hc

end Sound

end Callers

end TurnRelay.Admission

namespace TurnRelay.Http

open TurnRelay.Admission TurnRelay.Assistant

namespace Handling

/-! ## What each step of the handling does -/

section Steps

variable {g g' : Handling} {t : Nat}

@[simp] theorem calls_setTurn (g : Handling) (t : Nat) (turn : Turn) :
    (g.setTurn t turn).calls = g.calls := rfl

@[simp] theorem bodies_setTurn (g : Handling) (t : Nat) (turn : Turn) :
    (g.setTurn t turn).bodies = g.bodies := rfl

@[simp] theorem turns_setTurn (g : Handling) (t : Nat) (turn : Turn) :
    (g.setTurn t turn).turns = g.turns.set t turn := rfl

@[simp] theorem starts_setTurn (g : Handling) (t : Nat) (turn : Turn) :
    (g.setTurn t turn).starts = g.starts := rfl

/- The lemmas of a step below read their move's branch off the body of `Handling.step` (`delta`,
then `dsimp only` or `simp` to take the branch): the equation lemmas of the whole eight-way match
are costly to build, and these lemmas would all build them at once. -/

theorem step_join {b : Body} (h : g.step (.join b) = some g') :
    ∃ c, g.calls.step .join = some c ∧
      g' = { g with calls := c, bodies := g.bodies ++ [b], turns := g.turns ++ [.before] } := by
  delta Handling.step at h
  simp only [Option.map_eq_some_iff] at h
  obtain ⟨c, hc, rfl⟩ := h
  exact ⟨c, hc, rfl⟩

theorem step_queue {a : Act} (h : g.step (.queue a) = some g') :
    a ≠ .join ∧ (∀ t e, a ≠ .finish t e) ∧
      ∃ c, g.calls.step a = some c ∧ g' = { g with calls := c } := by
  delta Handling.step at h
  cases a with
  | join => simp at h
  | finish t e => simp at h
  | _ =>
    simp only [Option.map_eq_some_iff] at h
    obtain ⟨c, hc, rfl⟩ := h
    exact ⟨by simp, by simp, c, hc, rfl⟩

theorem step_skip (h : g.step (.skip t) = some g') :
    ∃ b e, g.calls.stages[t]? = some .running ∧ g.bodies[t]? = some b ∧ b.unstarted = some e ∧
      g.turns[t]? = some .before ∧ g' = g.setTurn t (.over e) := by
  delta Handling.step at h
  dsimp only at h
  split at h
  · rename_i e ending hst hb ht
    exact ⟨_, e, hst, hb, rfl, ht, (Option.some.inj h).symm⟩
  · cases h

theorem step_start {started : Started} (h : g.step (.start t started) = some g') :
    ∃ b, g.calls.stages[t]? = some .running ∧ g.bodies[t]? = some b ∧ b.unstarted = none ∧
      g.turns[t]? = some .before ∧
      g' = { g.setTurn t (b.turnOf started) with starts := g.starts ++ [(t, started)] } := by
  delta Handling.step at h
  dsimp only at h
  split at h
  · rename_i b hst hb ht
    split at h
    · exact ⟨b, hst, hb, Option.isNone_iff_eq_none.1 ‹_›, ht, (Option.some.inj h).symm⟩
    · cases h
  · cases h

theorem step_take (h : g.step (.take t) = some g') :
    ∃ read item rest alive, g.turns[t]? = some (.reading read (item :: rest) alive) ∧
      g' = g.setTurn t (.reading (read ++ [item]) rest alive) := by
  delta Handling.step at h
  dsimp only at h
  split at h
  · rename_i read item rest alive ht
    exact ⟨read, item, rest, alive, ht, (Option.some.inj h).symm⟩
  · cases h

theorem step_exit (h : g.step (.exit t) = some g') :
    ∃ read rest, g.turns[t]? = some (.reading read rest true) ∧
      g' = g.setTurn t (.reading read rest false) := by
  delta Handling.step at h
  dsimp only at h
  split at h
  · rename_i read rest ht
    exact ⟨read, rest, ht, (Option.some.inj h).symm⟩
  · cases h

theorem step_close (h : g.step (.close t) = some g') :
    ∃ read b, g.turns[t]? = some (.reading read [] false) ∧ g.bodies[t]? = some b ∧
      g' = g.setTurn t (.over (b.ending (.items read))) := by
  delta Handling.step at h
  dsimp only at h
  split at h
  · rename_i read b ht hb
    exact ⟨read, b, ht, hb, (Option.some.inj h).symm⟩
  · cases h

theorem step_finish (h : g.step (.finish t) = some g') :
    ∃ e c, g.turns[t]? = some (.over e) ∧ g.calls.step (.finish t e) = some c ∧
      g' = { g with calls := c } := by
  delta Handling.step at h
  dsimp only at h
  split at h
  · rename_i e ht
    simp only [Option.map_eq_some_iff] at h
    obtain ⟨c, hc, rfl⟩ := h
    exact ⟨e, c, ht, hc, rfl⟩
  · cases h

theorem queue_enabled {a : Act} {c : Callers} (hc : g.calls.step a = some c) (hj : a ≠ .join)
    (hf : ∀ t e, a ≠ .finish t e) : g.step (.queue a) = some { g with calls := c } := by
  delta Handling.step
  cases a with
  | join => exact absurd rfl hj
  | finish t e => exact absurd rfl (hf t e)
  | _ => simp [hc]

theorem skip_enabled {b : Body} {e : TaskEnd} (hrun : g.calls.stages[t]? = some .running)
    (hb : g.bodies[t]? = some b) (hu : b.unstarted = some e) (ht : g.turns[t]? = some .before) :
    g.step (.skip t) = some (g.setTurn t (.over e)) := by
  obtain ⟨unstarted, ending⟩ := b
  subst hu
  delta Handling.step
  simp [hrun, hb, ht]

theorem start_enabled {b : Body} (hrun : g.calls.stages[t]? = some .running)
    (hb : g.bodies[t]? = some b) (hu : b.unstarted = none) (ht : g.turns[t]? = some .before)
    (started : Started) :
    g.step (.start t started) =
      some { g.setTurn t (b.turnOf started) with starts := g.starts ++ [(t, started)] } := by
  delta Handling.step
  simp [hrun, hb, ht, hu]

theorem steps_nil (g : Handling) : g.steps [] = some g := rfl

theorem steps_cons (g : Handling) (m : Move) (ms : List Move) :
    g.steps (m :: ms) = (g.step m).bind fun g' => g'.steps ms := rfl

end Steps

end Handling

/-! ## How a body's turn stands to what the provider gave it -/

/-- What the provider gave body `b`, against where its turn is: a channel of `rs` that has given
the body `read` and still holds `rest`, or a turn over as the body's end over all it gave. -/
def Body.Gave (b : Body) : Started → Turn → Prop
  | .items rs, .reading read rest _ => read ++ rest = rs
  | started, .over e => e = b.ending started
  | _, _ => False

namespace Body.Gave

variable {b : Body} {started : Started} {read rest : List Item} {alive : Bool}

@[simp] theorem items_reading {rs : List Item} :
    b.Gave (.items rs) (.reading read rest alive) ↔ read ++ rest = rs := Iff.rfl

@[simp] theorem ended {e : TaskEnd} : b.Gave started (.over e) ↔ e = b.ending started := by
  cases started <;> exact Iff.rfl

theorem not_before : ¬b.Gave started .before := by
  intro h
  cases started <;> exact h

theorem turnOf (b : Body) (started : Started) : b.Gave started (b.turnOf started) := by
  cases started <;> simp [Body.turnOf]

/-- A turn reading a channel is one whose provider gave items. -/
theorem of_reading (h : b.Gave started (.reading read rest alive)) :
    ∃ rs, started = .items rs ∧ read ++ rest = rs := by
  cases started with
  | items rs => exact ⟨rs, rfl, h⟩
  | failed _ | panicked _ => nomatch h

theorem take {item : Item} (h : b.Gave started (.reading read (item :: rest) alive)) :
    b.Gave started (.reading (read ++ [item]) rest alive) := by
  obtain ⟨rs, rfl, hrs⟩ := of_reading h
  simpa using hrs

theorem exit (h : b.Gave started (.reading read rest true)) :
    b.Gave started (.reading read rest false) := by
  obtain ⟨rs, rfl, hrs⟩ := of_reading h
  exact hrs

/-- A drained channel: the body's end is over all the channel gave. -/
theorem close (h : b.Gave started (.reading read [] false)) :
    b.Gave started (.over (b.ending (.items read))) := by
  obtain ⟨rs, rfl, hrs⟩ := of_reading h
  rw [List.append_nil] at hrs
  rw [ended, hrs]

end Body.Gave

namespace Handling

/-! ## The invariant -/

/-- What every reachable state of the handling satisfies. -/
structure Sound (g : Handling) : Prop where
  /-- The queue's calls are sound. -/
  calls : g.calls.Sound
  /-- Each call has its body. -/
  bodies : g.bodies.length = g.calls.stages.length
  /-- Each call has its body's turn. -/
  turns : g.turns.length = g.calls.stages.length
  /-- A channel is open only while its body runs. -/
  reading : ∀ (t : Nat) (read rest : List Item) (alive : Bool),
    g.turns[t]? = some (.reading read rest alive) → g.calls.stages[t]? = some .running
  /-- A body ends only as its turn is over. -/
  ended : ∀ (t : Nat) (e : TaskEnd), .ended e ∈ g.calls.lifeOf t → g.turns[t]? = some (.over e)
  /-- The turn of each body that called the provider stands to what the provider gave. -/
  gave : ∀ (t : Nat) (started : Started), (t, started) ∈ g.starts →
    ∃ b turn, g.bodies[t]? = some b ∧ g.turns[t]? = some turn ∧ b.Gave started turn

theorem sound_initial : Sound {} where
  calls := Callers.sound_initial
  bodies := rfl
  turns := rfl
  reading _ _ _ _ h := by simp at h
  ended _ _ h := by simp [Callers.lifeOf] at h
  gave _ _ h := by simp at h

namespace Sound

variable {g g' : Handling} {t : Nat}

/-- A body's step: the turn of a running body changes, and what the provider gave it still
stands to the new turn. -/
theorem retune (hg : g.Sound) {old new : Turn} (hold : g.turns[t]? = some old)
    (hrun : g.calls.stages[t]? = some .running)
    (hgave : ∀ b started, g.bodies[t]? = some b → b.Gave started old → b.Gave started new) :
    (g.setTurn t new).Sound where
  calls := hg.calls
  bodies := hg.bodies
  turns := by simp [hg.turns]
  reading u read rest alive hu := by
    by_cases htu : t = u
    · subst htu
      exact hrun
    · rw [turns_setTurn, List.getElem?_set_ne htu] at hu
      exact hg.reading u read rest alive hu
  ended u e he := by
    by_cases htu : t = u
    · subst htu
      exact absurd he (hg.calls.not_ended_of_running hrun e)
    · rw [turns_setTurn, List.getElem?_set_ne htu]
      exact hg.ended u e he
  gave u started hu := by
    obtain ⟨b, turn, hb, hturn, hbt⟩ := hg.gave u started hu
    by_cases htu : t = u
    · subst htu
      obtain rfl : old = turn := Option.some.inj (hold.symm.trans hturn)
      refine ⟨b, new, hb, ?_, hgave b started hb hbt⟩
      exact List.getElem?_set_self (List.getElem?_eq_some_iff.1 hold).1
    · refine ⟨b, turn, hb, ?_, hbt⟩
      rw [turns_setTurn, List.getElem?_set_ne htu]
      exact hturn

/-- What the provider gave a body is recorded. -/
theorem record (hg : g.Sound) {b : Body} {turn : Turn} {started : Started}
    (hb : g.bodies[t]? = some b) (ht : g.turns[t]? = some turn) (hbt : b.Gave started turn) :
    { g with starts := g.starts ++ [(t, started)] }.Sound where
  calls := hg.calls
  bodies := hg.bodies
  turns := hg.turns
  reading := hg.reading
  ended := hg.ended
  gave u started' hu := by
    rcases List.mem_append.1 hu with hu | hu
    · exact hg.gave u started' hu
    · obtain ⟨rfl, rfl⟩ := Prod.mk.inj (List.mem_singleton.1 hu)
      exact ⟨b, turn, hb, ht, hbt⟩

/-- A step of the queue other than a new call, which ends a body only as its turn is over. -/
theorem calls_step (hg : g.Sound) {a : Act} {c : Callers} (hc : g.calls.step a = some c)
    (ha : a ≠ .join) (hover : ∀ u e, a = .finish u e → g.turns[u]? = some (.over e)) :
    { g with calls := c }.Sound where
  calls := hg.calls.step hc
  bodies := hg.bodies.trans (Callers.length_of_step hc ha).symm
  turns := hg.turns.trans (Callers.length_of_step hc ha).symm
  reading u read rest alive hu := by
    refine Callers.running_of_step hc (fun e hfin => ?_) (hg.reading u read rest alive hu)
    cases (hover u e hfin).symm.trans hu
  ended u e he := by
    rcases Callers.ended_of_step hc he with he | hfin
    · exact hg.ended u e he
    · exact hover u e hfin
  gave := hg.gave

theorem queue (hg : g.Sound) {a : Act} (h : g.step (.queue a) = some g') : g'.Sound := by
  obtain ⟨hj, hf, c, hc, rfl⟩ := step_queue h
  exact hg.calls_step hc hj fun u e hfin => absurd hfin (hf u e)

theorem finish (hg : g.Sound) (h : g.step (.finish t) = some g') : g'.Sound := by
  obtain ⟨e, c, ht, hc, rfl⟩ := step_finish h
  refine hg.calls_step hc (by simp) fun u e' hfin => ?_
  obtain ⟨rfl, rfl⟩ := Act.finish.inj hfin
  exact ht

theorem join (hg : g.Sound) {b : Body} (h : g.step (.join b) = some g') : g'.Sound := by
  obtain ⟨c, hc, rfl⟩ := step_join h
  obtain ⟨hst, -, -⟩ := Callers.step_join hc
  have grow : ∀ {α : Type} {l : List α} (x : α) {u : Nat} {y : α}, l[u]? = some y →
      (l ++ [x])[u]? = some y := by
    intro α l x u y hu
    rw [List.getElem?_append_left (List.getElem?_eq_some_iff.1 hu).1]
    exact hu
  -- the new call's turn is before, and the others' are as they were
  have old : ∀ {u : Nat} {turn : Turn}, (g.turns ++ [.before])[u]? = some turn →
      turn ≠ .before → g.turns[u]? = some turn := by
    intro u turn hu hne
    rw [List.getElem?_append] at hu
    split at hu
    · exact hu
    · simp only [List.getElem?_singleton, Option.ite_none_right_eq_some, Option.some.injEq] at hu
      exact absurd hu.2.symm hne
  exact {
    calls := hg.calls.step hc
    bodies := by simp [hst, hg.bodies]
    turns := by simp [hst, hg.turns]
    reading u read rest alive hu := by
      rw [hst]
      exact grow _ (hg.reading u read rest alive (old hu (by simp)))
    ended u e he := by
      rcases Callers.ended_of_step hc he with he | hfin
      · exact grow _ (hg.ended u e he)
      · cases hfin
    gave u started hu := by
      obtain ⟨b', turn, hb, ht, hbt⟩ := hg.gave u started hu
      exact ⟨b', turn, grow _ hb, grow _ ht, hbt⟩ }

theorem skip (hg : g.Sound) (h : g.step (.skip t) = some g') : g'.Sound := by
  obtain ⟨b, e, hrun, -, -, ht, rfl⟩ := step_skip h
  exact hg.retune ht hrun fun _ _ _ hbt => absurd hbt Body.Gave.not_before

theorem start (hg : g.Sound) {started : Started} (h : g.step (.start t started) = some g') :
    g'.Sound := by
  obtain ⟨b, hrun, hb, -, ht, rfl⟩ := step_start h
  have hturn : (g.setTurn t (b.turnOf started)).turns[t]? = some (b.turnOf started) :=
    List.getElem?_set_self (List.getElem?_eq_some_iff.1 ht).1
  exact (hg.retune ht hrun fun _ _ _ hbt => absurd hbt Body.Gave.not_before).record hb hturn
    (Body.Gave.turnOf b started)

theorem take (hg : g.Sound) (h : g.step (.take t) = some g') : g'.Sound := by
  obtain ⟨read, item, rest, alive, ht, rfl⟩ := step_take h
  exact hg.retune ht (hg.reading t _ _ _ ht) fun _ _ _ hbt => hbt.take

theorem exit (hg : g.Sound) (h : g.step (.exit t) = some g') : g'.Sound := by
  obtain ⟨read, rest, ht, rfl⟩ := step_exit h
  exact hg.retune ht (hg.reading t _ _ _ ht) fun _ _ _ hbt => hbt.exit

theorem close (hg : g.Sound) (h : g.step (.close t) = some g') : g'.Sound := by
  obtain ⟨read, b, ht, hb, rfl⟩ := step_close h
  refine hg.retune ht (hg.reading t _ _ _ ht) fun b' _ hb' hbt => ?_
  obtain rfl : b = b' := Option.some.inj (hb.symm.trans hb')
  exact hbt.close

/-- Every step keeps the handling sound. -/
theorem step (hg : g.Sound) {m : Move} (h : g.step m = some g') : g'.Sound := by
  cases m with
  | join b => exact hg.join h
  | queue a => exact hg.queue h
  | skip t => exact hg.skip h
  | start t started => exact hg.start h
  | take t => exact hg.take h
  | exit t => exact hg.exit h
  | close t => exact hg.close h
  | finish t => exact hg.finish h

/-- Every run keeps the handling sound. -/
theorem steps (hg : g.Sound) {moves : List Move} (h : g.steps moves = some g') : g'.Sound := by
  induction moves generalizing g with
  | nil =>
    simp only [Handling.steps_nil, Option.some.injEq] at h
    exact h ▸ hg
  | cons m rest ih =>
    simp only [Handling.steps_cons, Option.bind_eq_some_iff] at h
    obtain ⟨g₁, h₁, h₂⟩ := h
    exact ih (hg.step h₁) h₂

end Sound

/-! ## Every call can return -/

/-- A move a call makes by itself, the provider giving each body what `provider` says: no new
request arrives and no context is done. -/
def Move.Own (provider : Nat → Started) : Move → Prop
  | .join _ | .queue .join | .queue (.cancel _) => False
  | .start t started => started = provider t
  | _ => True

/-- How body `t` ends, the provider giving it what `provider` says: as it ends without calling
the provider, or over all the provider gives; over all its open channel holds; or as its turn
is over. -/
def endOf (g : Handling) (provider : Nat → Started) (t : Nat) : TaskEnd :=
  match g.turns[t]?, g.bodies[t]? with
  | some .before, some b => b.unstarted.getD (b.ending (provider t))
  | some (.reading read rest _), some b => b.ending (.items (read ++ rest))
  | some (.over e), _ => e
  | _, _ => .ok

/-- The moves that drain an open channel: read each result it holds, let the process exit, and
see the channel closed. -/
def drain (t : Nat) : Turn → List Move
  | .reading _ rest alive =>
    List.replicate rest.length (.take t) ++ (if alive then [.exit t] else []) ++ [.close t]
  | _ => []

/-- The moves that take body `t` to the end of its turn. -/
def bodyMoves (g : Handling) (provider : Nat → Started) (t : Nat) : List Move :=
  match g.turns[t]?, g.bodies[t]? with
  | some .before, some b =>
    match b.unstarted with
    | some _ => [.skip t]
    | none => .start t (provider t) :: drain t (b.turnOf (provider t))
  | some turn, _ => drain t turn
  | none, _ => []

section Drain

variable {g : Handling} {t : Nat} {b : Body}

@[simp] theorem setTurn_setTurn (g : Handling) (t : Nat) (x y : Turn) :
    (g.setTurn t x).setTurn t y = g.setTurn t y := by
  simp [setTurn, List.set_set]

theorem setTurn_self {turn : Turn} (ht : g.turns[t]? = some turn) : g.setTurn t turn = g := by
  obtain ⟨hlt, rfl⟩ := List.getElem?_eq_some_iff.1 ht
  simp [setTurn, List.set_getElem_self hlt]

theorem steps_append (g : Handling) (xs ys : List Move) :
    g.steps (xs ++ ys) = (g.steps xs).bind fun g' => g'.steps ys := by
  induction xs generalizing g with
  | nil => rfl
  | cons m xs ih =>
    simp only [List.cons_append, steps_cons]
    cases g.step m with
    | none => rfl
    | some g₁ => exact ih g₁

/-- Reading the results an open channel holds, one by one. -/
theorem steps_takes (ht : t < g.turns.length) (read rest : List Item) (alive : Bool)
    (ms : List Move) :
    (g.setTurn t (.reading read rest alive)).steps (List.replicate rest.length (.take t) ++ ms) =
      (g.setTurn t (.reading (read ++ rest) [] alive)).steps ms := by
  induction rest generalizing read with
  | nil => simp
  | cons item rest ih =>
    have hstep : (g.setTurn t (.reading read (item :: rest) alive)).step (.take t) =
        some (g.setTurn t (.reading (read ++ [item]) rest alive)) := by
      delta Handling.step
      simp [List.getElem?_set_self ht]
    rw [List.length_cons, List.replicate_succ, List.cons_append, steps_cons, hstep, Option.bind_some,
      ih]
    simp

/-- Draining a body's open channel ends its turn over all the channel held. -/
theorem steps_drain (hb : g.bodies[t]? = some b) (ht : t < g.turns.length)
    (read rest : List Item) (alive : Bool) :
    (g.setTurn t (.reading read rest alive)).steps (drain t (.reading read rest alive)) =
      some (g.setTurn t (.over (b.ending (.items (read ++ rest))))) := by
  rw [drain, List.append_assoc, steps_takes ht]
  -- the process exits if it still runs, and then the channel closes
  cases alive <;>
    simp only [Bool.false_eq_true, ↓reduceIte, List.cons_append, List.nil_append, steps_cons,
      steps_nil] <;>
    delta Handling.step <;> simp [List.getElem?_set_self ht, hb]

/-- A body whose provider was called takes its turn to the end as `endOf` says. -/
theorem steps_drain_of (provider : Nat → Started) (hb : g.bodies[t]? = some b) {turn : Turn}
    (ht : g.turns[t]? = some turn) (hturn : turn ≠ .before) :
    g.steps (drain t turn) = some (g.setTurn t (.over (g.endOf provider t))) := by
  have hlt : t < g.turns.length := (List.getElem?_eq_some_iff.1 ht).1
  rcases turn with _ | ⟨read, rest, alive⟩ | e
  · exact absurd rfl hturn
  · have hend : g.endOf provider t = b.ending (.items (read ++ rest)) := by simp [endOf, ht, hb]
    rw [hend, ← setTurn_self ht, steps_drain hb hlt, setTurn_setTurn]
  · have hend : g.endOf provider t = e := by simp [endOf, ht]
    rw [hend, setTurn_self ht]
    rfl

/-- A body that calls the provider and drains what it gave ends its turn over all it gave. -/
theorem steps_start (hrun : g.calls.stages[t]? = some .running) (hb : g.bodies[t]? = some b)
    (hu : b.unstarted = none) (ht : g.turns[t]? = some .before) (started : Started) :
    g.steps (.start t started :: drain t (b.turnOf started)) =
      some { g.setTurn t (.over (b.ending started)) with
        starts := g.starts ++ [(t, started)] } := by
  have hlt : t < g.turns.length := (List.getElem?_eq_some_iff.1 ht).1
  rw [steps_cons, start_enabled hrun hb hu ht, Option.bind_some]
  cases started with
  | items rs =>
    -- the channel opens with all it will give, and the body drains it
    exact (steps_drain (g := { g with starts := g.starts ++ [(t, .items rs)] }) hb hlt [] rs
      true).trans (by simp [setTurn])
  | _ => rfl

theorem own_drain (provider : Nat → Started) (t : Nat) (turn : Turn) :
    ∀ m ∈ drain t turn, m.Own provider := by
  intro m hm
  cases turn with
  | reading read rest alive =>
    simp only [drain, List.mem_append, List.mem_replicate, List.mem_singleton] at hm
    rcases hm with (⟨-, rfl⟩ | hm) | rfl
    · trivial
    · cases alive <;> simp_all [Move.Own]
    · trivial
  | _ => simp [drain] at hm

end Drain

namespace Sound

variable {g : Handling} {t : Nat}

/-- A running body can take its turn to the end by its own moves, the provider giving what
`provider` says: only its turn changes, and it ends over as `endOf` said. -/
theorem run_body (hg : g.Sound) (provider : Nat → Started)
    (hrun : g.calls.stages[t]? = some .running) :
    (∀ m ∈ g.bodyMoves provider t, m.Own provider) ∧
      ∃ g₁, g.steps (g.bodyMoves provider t) = some g₁ ∧ g₁.calls = g.calls ∧
        g₁.bodies = g.bodies ∧ g₁.turns = g.turns.set t (.over (g.endOf provider t)) := by
  have hlt := Callers.lt_length_of_stage hrun
  obtain ⟨b, hb⟩ : ∃ b, g.bodies[t]? = some b :=
    ⟨_, List.getElem?_eq_getElem (hg.bodies ▸ hlt)⟩
  obtain ⟨turn, ht⟩ : ∃ turn, g.turns[t]? = some turn :=
    ⟨_, List.getElem?_eq_getElem (hg.turns ▸ hlt)⟩
  by_cases hbefore : turn = .before
  · subst hbefore
    cases hu : b.unstarted with
    | some e =>
      -- the body ends without calling the provider
      have hmoves : g.bodyMoves provider t = [.skip t] := by simp [bodyMoves, ht, hb, hu]
      have hend : g.endOf provider t = e := by simp [endOf, ht, hb, hu]
      rw [hmoves, hend]
      refine ⟨by simp [Move.Own], g.setTurn t (.over e), ?_, rfl, rfl, rfl⟩
      simp [Handling.steps_cons, Handling.steps_nil, skip_enabled hrun hb hu ht]
    | none =>
      -- the body calls the provider, then drains what it gave
      have hmoves : g.bodyMoves provider t =
          .start t (provider t) :: drain t (b.turnOf (provider t)) := by
        simp [bodyMoves, ht, hb, hu]
      have hend : g.endOf provider t = b.ending (provider t) := by simp [endOf, ht, hb, hu]
      rw [hmoves, hend]
      refine ⟨?_, _, steps_start hrun hb hu ht (provider t), rfl, rfl, rfl⟩
      simp only [List.mem_cons, forall_eq_or_imp]
      exact ⟨rfl, own_drain provider t _⟩
  · rw [show g.bodyMoves provider t = drain t turn by
      cases turn <;> simp_all [bodyMoves]]
    exact ⟨own_drain provider t turn, _, steps_drain_of provider hb ht hbefore, rfl, rfl, rfl⟩

end Sound

section Lift

variable {g : Handling} {t : Nat}

/-- The end a body's turn is taken to stays as `endOf` says. -/
theorem endOf_of_over {g₁ : Handling} (provider : Nat → Started) (hlt : t < g.turns.length)
    (hb : g₁.bodies = g.bodies) (ht : g₁.turns = g.turns.set t (.over (g.endOf provider t))) :
    g₁.endOf provider = g.endOf provider := by
  funext u
  by_cases htu : t = u
  · subst htu
    rw [endOf, ht, List.getElem?_set_self hlt]
  · simp only [endOf, ht, hb, List.getElem?_set_ne htu]

/-- One step of the queue, made by the calls' own moves: a body ending is the body's turn taken
to its end and then its ending; any other step is a move as it is. The bodies' ends stay as
`endOf` says. -/
theorem Sound.lift_step (hg : g.Sound) (provider : Nat → Started) {a : Act} {c : Callers}
    (ha : a.Own (g.endOf provider)) (hc : g.calls.step a = some c) :
    ∃ ms g₁, (∀ m ∈ ms, m.Own provider) ∧ g.steps ms = some g₁ ∧ g₁.calls = c ∧
      g₁.endOf provider = g.endOf provider := by
  by_cases hfin : ∃ t e, a = .finish t e
  · -- the body runs its turn to the end, then ends as the queue's step says
    obtain ⟨t, e, rfl⟩ := hfin
    obtain ⟨hrun, -⟩ := Callers.step_finish hc
    have hlt : t < g.turns.length := hg.turns ▸ Callers.lt_length_of_stage hrun
    obtain ⟨hown, g₁, hg₁, hc₁, hb₁, ht₁⟩ := hg.run_body provider hrun
    have hover : g₁.turns[t]? = some (.over e) := by
      rw [ht₁, List.getElem?_set_self hlt, ← ha]
    have hstep : g₁.step (.finish t) = some { g₁ with calls := c } := by
      delta Handling.step
      simp [hover, hc₁, hc]
    refine ⟨g.bodyMoves provider t ++ [.finish t], { g₁ with calls := c }, ?_, ?_, rfl,
      endOf_of_over provider hlt hb₁ ht₁⟩
    · intro m hm
      rcases List.mem_append.1 hm with hm | hm
      · exact hown m hm
      · rw [List.mem_singleton.1 hm]
        trivial
    · rw [steps_append, hg₁, Option.bind_some, Handling.steps_cons, hstep, Option.bind_some]
      rfl
  · -- every other step of the queue is a move of the calls' own
    push Not at hfin
    have hj : a ≠ .join := by
      rintro rfl
      exact ha
    refine ⟨[.queue a], { g with calls := c }, ?_,
      by simp [Handling.steps_cons, Handling.steps_nil, queue_enabled hc hj hfin], rfl, rfl⟩
    simp only [List.mem_singleton, forall_eq]
    cases a <;> simp_all [Act.Own, Move.Own]

/-- The calls' moves follow the queue's steps, one step at a time. -/
theorem Sound.lift (hg : g.Sound) (provider : Nat → Started) {more : List Act} {c : Callers}
    (hmore : ∀ a ∈ more, a.Own (g.endOf provider)) (hc : g.calls.steps more = some c) :
    ∃ moves g', (∀ m ∈ moves, m.Own provider) ∧ g.steps moves = some g' ∧ g'.calls = c := by
  induction more generalizing g with
  | nil =>
    simp only [Callers.steps_nil, Option.some.injEq] at hc
    exact ⟨[], g, by simp, rfl, hc⟩
  | cons a more ih =>
    simp only [Callers.steps_cons, Option.bind_eq_some_iff] at hc
    obtain ⟨c₁, h₁, h₂⟩ := hc
    simp only [List.mem_cons, forall_eq_or_imp] at hmore
    obtain ⟨ms₁, g₁, hown₁, hg₁, rfl, hend₁⟩ := hg.lift_step provider hmore.1 h₁
    obtain ⟨ms, g', hms, hg', rfl⟩ := ih (hg.steps hg₁) (hend₁ ▸ hmore.2) h₂
    refine ⟨ms₁ ++ ms, g', ?_, by rw [steps_append, hg₁, Option.bind_some, hg'], rfl⟩
    intro m hm
    rcases List.mem_append.1 hm with hm | hm
    · exact hown₁ m hm
    · exact hms m hm

namespace Sound

/-- Whatever the provider gives, the calls can all return by their own moves. -/
theorem can_return (hg : g.Sound) (provider : Nat → Started) :
    ∃ moves g', (∀ m ∈ moves, m.Own provider) ∧ g.steps moves = some g' ∧
      ∀ st ∈ g'.calls.stages, ∃ r, st = .returned r := by
  obtain ⟨more, c, hmore, hc, hdone⟩ := hg.calls.can_return (g.endOf provider)
  obtain ⟨moves, g', hown, hg', rfl⟩ := hg.lift provider hmore hc
  exact ⟨moves, g', hown, hg', hdone⟩

/-- An open channel's body runs, and its task holds the slot. -/
theorem holds_of_reading (hg : g.Sound) {read rest : List Item} {alive : Bool}
    (ht : g.turns[t]? = some (.reading read rest alive)) :
    g.calls.stages[t]? = some .running ∧ g.calls.queue.running = some t :=
  ⟨hg.reading t read rest alive ht, (hg.calls.fits t _ (hg.reading t read rest alive ht)).2⟩

end Sound

end Lift

end Handling

/-! ## One session at a time -/

/-- Requests handled at once, over any interleaving of their steps and whatever the provider
gives: a channel is open only while its body runs with the slot, so no two sessions overlap
and no two processes run at once; a body ends only as its turn is over, as its end over all
that its channel gave; and the calls can always all return by their own moves. -/
theorem sessions_never_overlap (moves : List Handling.Move) (g : Handling)
    (h : ({} : Handling).steps moves = some g) :
    (∀ (t : Nat) (read rest : List Item) (alive : Bool),
      g.turns[t]? = some (.reading read rest alive) →
        g.calls.stages[t]? = some .running ∧ g.calls.queue.running = some t) ∧
    (∀ t u : Nat, (∃ read rest alive, g.turns[t]? = some (.reading read rest alive)) →
      (∃ read rest alive, g.turns[u]? = some (.reading read rest alive)) → t = u) ∧
    (∀ t u : Nat, (∃ read rest, g.turns[t]? = some (.reading read rest true)) →
      (∃ read rest, g.turns[u]? = some (.reading read rest true)) → t = u) ∧
    (∀ (t : Nat) (e : TaskEnd), .ended e ∈ g.calls.lifeOf t →
      g.turns[t]? = some (.over e) ∧
        ∀ rs : List Item, (t, .items rs) ∈ g.starts →
          ∃ b, g.bodies[t]? = some b ∧ e = b.ending (.items rs)) ∧
    (∀ provider : Nat → Started, ∃ more g', (∀ m ∈ more, m.Own provider) ∧
      g.steps more = some g' ∧ ∀ st ∈ g'.calls.stages, ∃ r, st = .returned r) := by
  have hg : g.Sound := Handling.sound_initial.steps h
  -- an open channel's task holds the slot, which one task holds at a time
  have single : ∀ t u : Nat, (∃ read rest alive, g.turns[t]? = some (.reading read rest alive)) →
      (∃ read rest alive, g.turns[u]? = some (.reading read rest alive)) → t = u := by
    rintro t u ⟨_, _, _, ht⟩ ⟨_, _, _, hu⟩
    exact Option.some.inj ((hg.holds_of_reading ht).2.symm.trans (hg.holds_of_reading hu).2)
  refine ⟨fun t _ _ _ ht => hg.holds_of_reading ht, single, ?_, ?_, hg.can_return⟩
  · rintro t u ⟨read, rest, ht⟩ ⟨read', rest', hu⟩
    exact single t u ⟨read, rest, true, ht⟩ ⟨read', rest', true, hu⟩
  · intro t e he
    refine ⟨hg.ended t e he, fun rs hs => ?_⟩
    obtain ⟨b, turn, hb, ht, hbt⟩ := hg.gave t _ hs
    obtain rfl : Turn.over e = turn := Option.some.inj ((hg.ended t e he).symm.trans ht)
    exact ⟨b, hb, hbt⟩

/-- Two requests answered in one reply each: the first reads one failed result, the second's
provider cannot start. -/
def twoReplies : List Handling.Move :=
  [.join (Body.reply "msg_1" "sonnet"), .join (Body.reply "msg_2" "sonnet"), .queue (.wake 0),
    .start 0 (.items [.failure (.plain "boom")]), .take 0, .exit 0, .close 0, .finish 0,
    .queue (.release 0), .queue (.wake 1), .start 1 (.failed (.plain "no binary")), .finish 1,
    .queue (.release 1)]

theorem two_replies_one_session_at_a_time :
    let g := (({} : Handling).steps twoReplies).getD {}
    ({} : Handling).steps twoReplies = some g ∧
    (∀ (t : Nat) (read rest : List Item) (alive : Bool),
      g.turns[t]? = some (.reading read rest alive) →
        g.calls.stages[t]? = some .running ∧ g.calls.queue.running = some t) ∧
    (∀ t u : Nat, (∃ read rest alive, g.turns[t]? = some (.reading read rest alive)) →
      (∃ read rest alive, g.turns[u]? = some (.reading read rest alive)) → t = u) ∧
    (∀ t u : Nat, (∃ read rest, g.turns[t]? = some (.reading read rest true)) →
      (∃ read rest, g.turns[u]? = some (.reading read rest true)) → t = u) ∧
    (∀ (t : Nat) (e : TaskEnd), .ended e ∈ g.calls.lifeOf t →
      g.turns[t]? = some (.over e) ∧
        ∀ rs : List Item, (t, .items rs) ∈ g.starts →
          ∃ b, g.bodies[t]? = some b ∧ e = b.ending (.items rs)) ∧
    (∀ provider : Nat → Started, ∃ more g', (∀ m ∈ more, m.Own provider) ∧
      g.steps more = some g' ∧ ∀ st ∈ g'.calls.stages, ∃ r, st = .returned r) :=
  ⟨rfl, sessions_never_overlap twoReplies _ rfl⟩

end TurnRelay.Http
