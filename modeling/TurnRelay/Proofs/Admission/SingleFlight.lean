import Mathlib
import TurnRelay.Admission.Callers

/-!
# One task at a time, in the order they came

Calls share the queue's slot (`Callers`). Whatever the interleaving of their steps, the contexts
done and the ends of the bodies:

* at most one body runs at a time, and only while its task holds the slot;
* the tasks are granted the slot in the order they joined, skipping those withdrawn;
* a call that returned either ran its body once and returned the error it ended with, or saw its
  context done while its task was not yet granted, withdrew the task and returned the context's
  error, its body never run;
* whatever the bodies end as, the calls can all return by their own steps alone.

Each holds because every reachable state is `Sound`: the grants followed by the waiting tasks
are the tasks that joined and did not withdraw, in order; the slot is free only when no task
waits; and the life of each task fits its call's stage (`Stage.Fits`). Every step keeps this
(`Sound.step`), a step that one call takes alone through `Sound.touch`.
-/

namespace TurnRelay.Admission

/-! ## The queue's operations -/

namespace Queue

variable {τ : Type}

/- Once the fields a lemma reads are known, the queue's operations compute: these lemmas read the
bodies directly (`rfl` on the queue's fields, or the guard of `abandon`), not through equation
lemmas. -/

theorem enqueue_fst_of_running {q : Queue τ} {r : τ} (h : q.running = some r) (t : τ) :
    (q.enqueue t).1 = { q with waiting := q.waiting ++ [t] } := by
  obtain ⟨waiting, running⟩ := q
  dsimp only at h
  subst h
  rfl

theorem enqueue_fst_of_idle {q : Queue τ} (h : q.running = none) (hw : q.waiting = []) (t : τ) :
    (q.enqueue t).1 = { waiting := [], running := some t } := by
  obtain ⟨waiting, running⟩ := q
  dsimp only at h hw
  subst h hw
  rfl

theorem free_fst_of_nil {q : Queue τ} (hw : q.waiting = []) :
    q.free.1 = { waiting := [], running := none } := by
  obtain ⟨waiting, running⟩ := q
  dsimp only at hw
  subst hw
  rfl

theorem free_fst_of_cons {q : Queue τ} {g : τ} {rest : List τ} (hw : q.waiting = g :: rest) :
    q.free.1 = { waiting := rest, running := some g } := by
  obtain ⟨waiting, running⟩ := q
  dsimp only at hw
  subst hw
  rfl

variable [DecidableEq τ]

theorem abandon_of_mem {q : Queue τ} {t : τ} (h : t ∈ q.waiting) :
    q.abandon t =
      some ({ q with waiting := q.waiting.erase t }, [.cancelled (q.waiting.erase t).length]) := by
  show (if t ∈ q.waiting then _ else none) = _
  rw [if_pos h]

theorem abandon_of_not_mem {q : Queue τ} {t : τ} (h : t ∉ q.waiting) : q.abandon t = none := by
  show (if t ∈ q.waiting then _ else none) = none
  rw [if_neg h]

end Queue

/-! ## The life of a task -/

/-- A task's life with its call's context set apart: what the queue and the body did. -/
def course (life : List Happening) : List Happening := life.filter (· != .cancelled)

@[simp] theorem course_nil : course [] = [] := rfl

@[simp] theorem course_append (a b : List Happening) : course (a ++ b) = course a ++ course b :=
  List.filter_append a b

@[simp] theorem course_cons (w : Happening) (life : List Happening) :
    course (w :: life) = if w = .cancelled then course life else w :: course life := by
  by_cases h : w = .cancelled <;> simp [course, h]

theorem mem_course {w : Happening} (hw : w ≠ .cancelled) (life : List Happening) :
    w ∈ course life ↔ w ∈ life := by
  simp [course, hw]

/-- A life with nothing but its context done once is that alone. -/
theorem eq_cancelled_of_course_nil {life : List Happening} (h : course life = [])
    (hmem : .cancelled ∈ life) (once : life.count .cancelled ≤ 1) : life = [.cancelled] := by
  have all : ∀ w ∈ life, w = .cancelled := by
    intro w hw
    by_contra hne
    have : w ∈ course life := (mem_course hne life).2 hw
    simp [h] at this
  have hrep : life = List.replicate life.length .cancelled := List.eq_replicate_iff.2 ⟨rfl, all⟩
  have hcount : life.count .cancelled = life.length :=
    List.count_eq_length.2 fun w hw => (all w hw).symm
  have hlen : life.length = 1 := by
    have : 0 < life.count .cancelled := List.count_pos_iff.2 hmem
    omega
  rw [hrep, hlen]
  rfl

/-- While a call waits, its task has not run: it has been granted the slot, which it then holds,
or nothing has happened to it yet. -/
def Waits (life : List Happening) (holds : Prop) : Prop :=
  (course life = [] ∧ ¬holds) ∨ (course life = [.granted] ∧ holds)

/-- The life a task has at each stage of its call, given whether it holds the slot: while the
call waits, nothing or the grant; while the body runs and until the slot is released, the grant
and one run of the body; once returned, either the grant and one run of the body whose end gave
the error returned, or the context done and the task withdrawn, and nothing else. -/
def Stage.Fits (life : List Happening) (holds : Prop) : Stage → Prop
  | .waiting => Waits life holds
  | .withdrawing => .cancelled ∈ life ∧ Waits life holds
  | .running => course life = [.granted, .began] ∧ holds
  | .releasing e => course life = [.granted, .began, .ended e] ∧ holds
  | .returned r => ¬holds ∧
      ((∃ e, course life = [.granted, .began, .ended e] ∧ r = e.error) ∨
        (life = [.cancelled, .withdrew] ∧ r = some canceledMessage))

namespace Waits

variable {life : List Happening} {holds : Prop}

theorem of_granted (h : Waits life holds) (hg : .granted ∈ life) :
    course life = [.granted] ∧ holds := by
  rcases h with ⟨hc, _⟩ | h
  · have : .granted ∈ course life := (mem_course (by decide) life).2 hg
    simp [hc] at this
  · exact h

theorem of_not_granted (h : Waits life holds) (hg : .granted ∉ life) :
    course life = [] ∧ ¬holds := by
  rcases h with h | ⟨hc, _⟩
  · exact h
  · have : .granted ∈ course life := by simp [hc]
    exact absurd ((mem_course (by decide) life).1 this) hg

end Waits

namespace Stage

variable {life : List Happening} {holds : Prop}

theorem Fits.congr {st : Stage} {life' : List Happening} {holds' : Prop} (h : st.Fits life holds)
    (hl : life' = life) (hh : holds' ↔ holds) : st.Fits life' holds' := by
  subst hl
  rwa [propext hh]

/-- Only a call that withdrew its task has a withdrawal in its task's life. -/
theorem Fits.withdrew_mem {st : Stage} (h : st.Fits life holds) (hw : .withdrew ∈ life) :
    ∃ r, st = .returned r ∧ life = [.cancelled, .withdrew] := by
  have hc : .withdrew ∈ course life := (mem_course (by decide) life).2 hw
  cases st with
  | waiting => rcases h with ⟨h, _⟩ | ⟨h, _⟩ <;> simp [h] at hc
  | withdrawing => rcases h.2 with ⟨h, _⟩ | ⟨h, _⟩ <;> simp [h] at hc
  | running => simp [h.1] at hc
  | releasing e => simp [h.1] at hc
  | returned r =>
    rcases h.2 with ⟨e, h, _⟩ | ⟨h, _⟩
    · simp [h] at hc
    · exact ⟨r, rfl, h⟩

/-- A task never granted the slot has a call that waits, or one that withdrew it. -/
theorem Fits.granted_mem {st : Stage} (h : st.Fits life holds) (hg : .granted ∉ life) :
    (st = .waiting ∨ st = .withdrawing) ∧ course life = [] ∧ ¬holds ∨
      ∃ r, st = .returned r ∧ life = [.cancelled, .withdrew] := by
  have hc : .granted ∉ course life := by rwa [mem_course (by decide) life]
  cases st with
  | waiting => rcases h with h | ⟨h, _⟩
               · exact .inl ⟨.inl rfl, h⟩
               · simp [h] at hc
  | withdrawing => rcases h.2 with h | ⟨h, _⟩
                   · exact .inl ⟨.inr rfl, h⟩
                   · simp [h] at hc
  | running => simp [h.1] at hc
  | releasing e => simp [h.1] at hc
  | returned r =>
    rcases h.2 with ⟨e, h, _⟩ | ⟨h, _⟩
    · simp [h] at hc
    · exact .inr ⟨r, rfl, h⟩

/-- A context done adds nothing to what the queue and the body did. -/
theorem Fits.cancel {st : Stage} (h : st.Fits life holds) (hc : .cancelled ∉ life) :
    st.Fits (life ++ [.cancelled]) holds := by
  cases st with
  | waiting => simpa [Stage.Fits, Waits] using h
  | withdrawing => exact absurd h.1 hc
  | running => simpa [Stage.Fits] using h
  | releasing e => simpa [Stage.Fits] using h
  | returned r =>
    refine ⟨h.1, ?_⟩
    rcases h.2 with ⟨e, he, hr⟩ | ⟨hl, _⟩
    · exact .inl ⟨e, by simpa using he, hr⟩
    · exact absurd (by simp [hl]) hc

end Stage

namespace Callers

/-! ## What the history says of each task -/

section History

variable {s s' : Callers} {evs : List Event}

theorem lifeOf_of_history (hh : s'.history = s.history ++ evs) (u : Nat) :
    s'.lifeOf u =
      s.lifeOf u ++ evs.filterMap fun ev => if ev.task = u then some ev.what else none := by
  simp [lifeOf, hh, List.filterMap_append]

theorem grants_of_history (hh : s'.history = s.history ++ evs) :
    s'.grants =
      s.grants ++ evs.filterMap fun ev => if ev.what = .granted then some ev.task else none := by
  simp [grants, hh, List.filterMap_append]

/-- A task is granted the slot exactly when its life says so. -/
theorem mem_grants_iff (s : Callers) (t : Nat) : t ∈ s.grants ↔ .granted ∈ s.lifeOf t := by
  simp only [grants, lifeOf, List.mem_filterMap, Option.ite_none_right_eq_some, Option.some.injEq]
  constructor
  · rintro ⟨ev, hev, hw, rfl⟩
    exact ⟨ev, hev, rfl, hw⟩
  · rintro ⟨ev, hev, rfl, hw⟩
    exact ⟨ev, hev, hw, rfl⟩

/-- A task the history does not name has nothing in its life. -/
theorem lifeOf_eq_nil (s : Callers) {t : Nat} (h : ∀ ev ∈ s.history, ev.task ≠ t) :
    s.lifeOf t = [] := by
  simp only [lifeOf, List.filterMap_eq_nil_iff]
  intro ev hev
  simp [h ev hev]

/-- The lives after events `w` of task `t` were added to the history. -/
theorem lifeOf_of_events {t : Nat} {w : List Happening}
    (hh : s'.history = s.history ++ w.map (⟨t, ·⟩)) (u : Nat) :
    s'.lifeOf u = s.lifeOf u ++ if t = u then w else [] := by
  rw [lifeOf_of_history hh]
  by_cases htu : t = u <;> simp [htu, List.filterMap_map]

@[simp] theorem lifeOf_note (s : Callers) (t u : Nat) (w : Happening) :
    (s.note t w).lifeOf u = s.lifeOf u ++ if t = u then [w] else [] := by
  by_cases h : t = u <;> simp [lifeOf, note, h]

@[simp] theorem lifeOf_moveTo (s : Callers) (t u : Nat) (st : Stage) :
    (s.moveTo t st).lifeOf u = s.lifeOf u := rfl

@[simp] theorem lifeOf_tell (s : Callers) (signals : List Signal) (u : Nat) :
    (s.tell signals).lifeOf u = s.lifeOf u := rfl

end History

/-! ## What each step does -/

section Steps

variable {s s' : Callers} {t : Nat}

/- The lemmas of a step read their action's branch off the body of `Callers.step` (`delta`, then
`dsimp only` or `simp`), so that none of them builds the equation lemmas of the whole match. -/

theorem step_join (h : s.step .join = some s') :
    s'.stages = s.stages ++ [.waiting] ∧ s'.queue = (s.queue.enqueue s.stages.length).1 ∧
      s'.history = s.history ++ grantOf s.queue (s.queue.enqueue s.stages.length).1 := by
  rcases hq : s.queue.enqueue s.stages.length with ⟨q, signals⟩
  delta Callers.step at h
  simp only [hq, Option.some.injEq] at h
  subst h
  exact ⟨rfl, rfl, rfl⟩

theorem step_cancel (h : s.step (.cancel t) = some s') :
    t < s.stages.length ∧
      (.cancelled ∈ s.lifeOf t ∧ s' = s ∨ .cancelled ∉ s.lifeOf t ∧ s' = s.note t .cancelled) := by
  delta Callers.step at h
  dsimp only at h
  split at h
  · rename_i ht
    split at h
    · exact ⟨ht, .inl ⟨‹_›, (Option.some.inj h).symm⟩⟩
    · exact ⟨ht, .inr ⟨‹_›, (Option.some.inj h).symm⟩⟩
  · cases h

theorem step_wake (h : s.step (.wake t) = some s') :
    s.stages[t]? = some .waiting ∧ .granted ∈ s.lifeOf t ∧
      s' = (s.moveTo t .running).note t .began := by
  delta Callers.step at h
  dsimp only at h
  split at h
  · exact ⟨‹_ ∧ _›.1, ‹_ ∧ _›.2, (Option.some.inj h).symm⟩
  · cases h

theorem step_notice (h : s.step (.notice t) = some s') :
    s.stages[t]? = some .waiting ∧ .cancelled ∈ s.lifeOf t ∧ s' = s.moveTo t .withdrawing := by
  delta Callers.step at h
  dsimp only at h
  split at h
  · exact ⟨‹_ ∧ _›.1, ‹_ ∧ _›.2, (Option.some.inj h).symm⟩
  · cases h

theorem step_withdraw (h : s.step (.withdraw t) = some s') :
    s.stages[t]? = some .withdrawing ∧
      (t ∈ s.queue.waiting ∧ s'.stages = s.stages.set t (.returned (some canceledMessage)) ∧
          s'.history = s.history ++ [⟨t, .withdrew⟩] ∧
          s'.queue = { s.queue with waiting := s.queue.waiting.erase t } ∨
        t ∉ s.queue.waiting ∧ s' = (s.moveTo t .running).note t .began) := by
  delta Callers.step at h
  dsimp only at h
  split at h
  · rename_i hst
    refine ⟨hst, ?_⟩
    by_cases hw : t ∈ s.queue.waiting
    · simp only [Queue.abandon_of_mem hw, Option.some.injEq] at h
      subst h
      exact .inl ⟨hw, rfl, rfl, rfl⟩
    · simp only [Queue.abandon_of_not_mem hw, Option.some.injEq] at h
      exact .inr ⟨hw, h.symm⟩
  · cases h

theorem step_finish {e : TaskEnd} (h : s.step (.finish t e) = some s') :
    s.stages[t]? = some .running ∧
      s' = ((s.moveTo t (.releasing e)).note t (.ended e)).tell [.finished e.error] := by
  delta Callers.step at h
  dsimp only at h
  split at h
  · exact ⟨‹_›, (Option.some.inj h).symm⟩
  · cases h

theorem step_release (h : s.step (.release t) = some s') :
    ∃ e, s.stages[t]? = some (.releasing e) ∧ s'.stages = s.stages.set t (.returned e.error) ∧
      s'.queue = s.queue.free.1 ∧
      s'.history = s.history ++ grantOf { s.queue with running := none } s.queue.free.1 := by
  delta Callers.step at h
  dsimp only at h
  split at h
  · rename_i e hst
    rcases hq : s.queue.free with ⟨q, signals⟩
    simp only [hq, Option.some.injEq] at h
    subst h
    exact ⟨e, hst, rfl, rfl, rfl⟩
  · cases h

theorem steps_nil (s : Callers) : s.steps [] = some s := rfl

theorem steps_cons (s : Callers) (a : Act) (acts : List Act) :
    s.steps (a :: acts) = (s.step a).bind fun s' => s'.steps acts := rfl

end Steps

theorem lt_length_of_stage {s : Callers} {t : Nat} {st : Stage} (h : s.stages[t]? = some st) :
    t < s.stages.length :=
  (List.getElem?_eq_some_iff.1 h).1

/-- The stages after a step that moved call `t` to `x`. -/
theorem stage_of_set {s s' : Callers} {t : Nat} {x : Stage} (hst : s'.stages = s.stages.set t x)
    (ht : t < s.stages.length) {u : Nat} {st : Stage} (hu : s'.stages[u]? = some st) :
    u = t ∧ st = x ∨ u ≠ t ∧ s.stages[u]? = some st := by
  rw [hst, List.getElem?_set] at hu
  by_cases htu : t = u
  · subst htu
    simp only [ht, if_true, Option.some.injEq] at hu
    exact .inl ⟨rfl, hu.symm⟩
  · simp only [htu, if_false] at hu
    exact .inr ⟨Ne.symm htu, hu⟩

/-- The stages after a new call joined. -/
theorem stage_of_join {s s' : Callers} (hst : s'.stages = s.stages ++ [.waiting]) {u : Nat}
    {st : Stage} (hu : s'.stages[u]? = some st) :
    u < s.stages.length ∧ s.stages[u]? = some st ∨ u = s.stages.length ∧ st = .waiting := by
  rw [hst, List.getElem?_append] at hu
  split at hu
  · exact .inl ⟨‹_›, hu⟩
  · simp only [List.getElem?_singleton, Option.ite_none_right_eq_some, Option.some.injEq] at hu
    exact .inr ⟨by omega, hu.2.symm⟩

/-- The numbers below `n + 1` that a test keeps: those below `n` that an agreeing test keeps,
and `n` when kept. -/
theorem filter_range_succ_of_agree {p q : Nat → Bool} {n : Nat} (hpq : ∀ u < n, q u = p u)
    (hn : q n = true) : (List.range (n + 1)).filter q = (List.range n).filter p ++ [n] := by
  rw [List.range_succ, List.filter_append,
    List.filter_congr fun u hu => hpq u (List.mem_range.1 hu)]
  simp [hn]

/-! ## The invariant -/

/-- What every reachable state satisfies. -/
structure Sound (s : Callers) : Prop where
  /-- The tasks granted the slot, and then those waiting, are the tasks that joined and did not
  withdraw, in the order they joined. -/
  order : s.grants ++ s.queue.waiting =
    (List.range s.stages.length).filter fun t => .withdrew ∉ s.lifeOf t
  /-- The slot is free only when no task waits. -/
  idle : s.queue.running = none → s.queue.waiting = []
  /-- The slot is held by a task that joined. -/
  holder : ∀ t, s.queue.running = some t → t < s.stages.length
  /-- The history names only tasks that joined. -/
  known : ∀ ev ∈ s.history, ev.task < s.stages.length
  /-- A call's context is done once. -/
  once : ∀ t, (s.lifeOf t).count .cancelled ≤ 1
  /-- The life of each task fits its call's stage. -/
  fits : ∀ t (st : Stage), s.stages[t]? = some st → st.Fits (s.lifeOf t) (s.queue.running = some t)

theorem sound_initial : Sound {} where
  order := rfl
  idle _ := rfl
  holder _ h := by simp at h
  known _ h := by simp at h
  once _ := by simp [lifeOf]
  fits _ _ h := by simp at h

namespace Sound

variable {s s' : Callers}

theorem nodup (hs : Sound s) : (s.grants ++ s.queue.waiting).Nodup := by
  rw [hs.order]
  exact List.nodup_range.filter _

theorem mem_order (hs : Sound s) {t : Nat} :
    t ∈ s.grants ++ s.queue.waiting ↔ t < s.stages.length ∧ .withdrew ∉ s.lifeOf t := by
  rw [hs.order]
  simp

/-- A task that waits in the queue has not been granted the slot. -/
theorem not_granted_of_waiting (hs : Sound s) {t : Nat} (h : t ∈ s.queue.waiting) :
    .granted ∉ s.lifeOf t := by
  rw [← mem_grants_iff]
  exact fun hg => (List.nodup_append.1 hs.nodup).2.2 t hg t h rfl

/-- A task not granted the slot, whose call has not returned from withdrawing it, waits in the
queue. -/
theorem waiting_of_not_granted (hs : Sound s) {t : Nat} {st : Stage} (hst : s.stages[t]? = some st)
    (hw : .withdrew ∉ s.lifeOf t) (hg : .granted ∉ s.lifeOf t) : t ∈ s.queue.waiting := by
  have hmem := hs.mem_order.2 ⟨lt_length_of_stage hst, hw⟩
  rcases List.mem_append.1 hmem with h | h
  · exact absurd ((mem_grants_iff s t).1 h) hg
  · exact h

/-- The tasks that wait in the queue have calls that wait, and have nothing in their lives. -/
theorem stage_of_waiting (hs : Sound s) {t : Nat} (h : t ∈ s.queue.waiting) :
    ∃ st, s.stages[t]? = some st ∧ (st = .waiting ∨ st = .withdrawing) ∧
      course (s.lifeOf t) = [] ∧ s.queue.running ≠ some t := by
  obtain ⟨hlt, hw⟩ := hs.mem_order.1 (List.mem_append_right _ h)
  have hst := List.getElem?_eq_getElem hlt
  rcases (hs.fits t _ hst).granted_mem (hs.not_granted_of_waiting h) with
    ⟨hst', hc, hh⟩ | ⟨_, -, hl⟩
  · exact ⟨_, hst, hst', hc, hh⟩
  · exact absurd (by simp [hl]) hw

/-- Events of a task that joined keep the history naming only tasks that joined. -/
theorem known_of_events (hs : Sound s) {t : Nat} {w : List Happening}
    (hh : s'.history = s.history ++ w.map (⟨t, ·⟩)) (ht : t < s'.stages.length)
    (hlen : s.stages.length ≤ s'.stages.length) :
    ∀ ev ∈ s'.history, ev.task < s'.stages.length := by
  intro ev hev
  rw [hh, List.mem_append] at hev
  rcases hev with hev | hev
  · exact Nat.lt_of_lt_of_le (hs.known ev hev) hlen
  · obtain ⟨_, _, rfl⟩ := List.mem_map.1 hev
    exact ht

/-- Events with no context done in them keep each context done at most once. -/
theorem once_of_events (hs : Sound s) {t : Nat} {w : List Happening}
    (hh : s'.history = s.history ++ w.map (⟨t, ·⟩)) (hw : .cancelled ∉ w) (u : Nat) :
    (s'.lifeOf u).count .cancelled ≤ 1 := by
  rw [lifeOf_of_events hh, List.count_append]
  split
  · simpa [List.count_eq_zero.2 hw] using hs.once u
  · simpa using hs.once u

/-- A step that one call takes alone: it moves the call to `st`, adds `w` to its task's life,
with no grant and no withdrawal in it, and leaves the queue as it is. The state stays sound
when the call's new stage fits its task's new life. -/
theorem touch (hs : Sound s) {t : Nat} {st : Stage} {w : List Happening}
    (ht : t < s.stages.length) (hq : s'.queue = s.queue) (hst : s'.stages = s.stages.set t st)
    (hh : s'.history = s.history ++ w.map (⟨t, ·⟩)) (hg : .granted ∉ w) (hw : .withdrew ∉ w)
    (honce : (s'.lifeOf t).count .cancelled ≤ 1)
    (hfits : st.Fits (s'.lifeOf t) (s.queue.running = some t)) : Sound s' := by
  have life := lifeOf_of_events hh
  have same : ∀ u, u ≠ t → s'.lifeOf u = s.lifeOf u := fun u hu => by
    simp [life, Ne.symm hu]
  have hlen : s'.stages.length = s.stages.length := by rw [hst, List.length_set]
  have hgrants : s'.grants = s.grants := by
    rw [grants_of_history hh, List.filterMap_map, List.filterMap_eq_nil_iff.2, List.append_nil]
    intro x hx
    simp only [Function.comp_apply, ite_eq_right_iff, reduceCtorEq, imp_false]
    exact fun h => hg (h ▸ hx)
  refine ⟨?_, ?_, ?_, hs.known_of_events hh (by rw [hlen]; exact ht) hlen.ge, ?_, ?_⟩
  · rw [hgrants, hq, hlen, hs.order]
    refine List.filter_congr fun u _ => ?_
    by_cases htu : t = u <;> simp [life, htu, hw]
  · rw [hq]
    exact hs.idle
  · intro u hu
    rw [hlen]
    exact hs.holder u (hq ▸ hu)
  · intro u
    by_cases hu : u = t
    · subst hu
      exact honce
    · rw [same u hu]
      exact hs.once u
  · intro u st' hu
    rw [hq]
    rw [hst, List.getElem?_set] at hu
    by_cases htu : t = u
    · subst htu
      simp only [ht, if_true, Option.some.injEq] at hu
      exact hu ▸ hfits
    · simp only [htu, if_false] at hu
      rw [same u (Ne.symm htu)]
      exact hs.fits u st' hu

/-! ### The steps a call takes alone -/

theorem cancel (hs : Sound s) (h : s.step (.cancel t) = some s') : Sound s' := by
  obtain ⟨ht, ⟨-, rfl⟩ | ⟨hc, rfl⟩⟩ := step_cancel h
  · exact hs
  · have hst := List.getElem?_eq_getElem ht
    refine hs.touch (w := [.cancelled]) ht rfl (List.set_getElem_self ht).symm rfl
      (by simp) (by simp) ?_ ?_
    · simp [List.count_eq_zero.2 hc]
    · simpa using (hs.fits t _ hst).cancel hc

theorem wake (hs : Sound s) (h : s.step (.wake t) = some s') : Sound s' := by
  obtain ⟨hst, hg, rfl⟩ := step_wake h
  have ⟨hc, hholds⟩ := Waits.of_granted (hs.fits t _ hst) hg
  refine hs.touch (w := [.began]) (lt_length_of_stage hst) rfl rfl rfl
    (by simp) (by simp) (by simpa using hs.once t) ?_
  simp [Stage.Fits, hc, hholds]

theorem notice (hs : Sound s) (h : s.step (.notice t) = some s') : Sound s' := by
  obtain ⟨hst, hc, rfl⟩ := step_notice h
  exact hs.touch (w := []) (lt_length_of_stage hst) rfl rfl (by simp [moveTo])
    (by simp) (by simp) (by simpa using hs.once t) ⟨hc, hs.fits t _ hst⟩

theorem finish (hs : Sound s) {e : TaskEnd} (h : s.step (.finish t e) = some s') : Sound s' := by
  obtain ⟨hst, rfl⟩ := step_finish h
  have ⟨hc, hholds⟩ := hs.fits t _ hst
  refine hs.touch (w := [.ended e]) (lt_length_of_stage hst) rfl rfl rfl
    (by simp) (by simp) (by simpa using hs.once t) ?_
  simp [Stage.Fits, hc, hholds]

/-- A call that tries to withdraw a task granted in the meantime runs it. -/
theorem withdraw_late (hs : Sound s) (hst : s.stages[t]? = some .withdrawing)
    (hw : t ∉ s.queue.waiting) : Sound ((s.moveTo t .running).note t .began) := by
  have old := hs.fits t _ hst
  -- not withdrawn and not waiting, the task is among those granted
  have hnot : .withdrew ∉ s.lifeOf t := fun hw' => by
    obtain ⟨_, hr, _⟩ := old.withdrew_mem hw'
    cases hr
  have hg : .granted ∈ s.lifeOf t := by
    by_contra hg
    exact hw (hs.waiting_of_not_granted hst hnot hg)
  have ⟨hc, hholds⟩ := Waits.of_granted old.2 hg
  refine hs.touch (w := [.began]) (lt_length_of_stage hst) rfl rfl rfl
    (by simp) (by simp) (by simpa using hs.once t) ?_
  simp [Stage.Fits, hc, hholds]

/-! ### The critical sections -/

/-- A new call joins: its task joins the back of the queue, and is granted the slot at once when
the slot is free, which it is only when nothing waits. -/
theorem join (hs : Sound s) (h : s.step .join = some s') : Sound s' := by
  obtain ⟨hst, hq, hh⟩ := step_join h
  have fresh : s.lifeOf s.stages.length = [] :=
    s.lifeOf_eq_nil fun ev hev => (hs.known ev hev).ne
  have hlen : s'.stages.length = s.stages.length + 1 := by simp [hst]
  have hnew : s.stages.length < s'.stages.length := by omega
  cases hr : s.queue.running with
  | some r =>
    -- the slot is held: the task waits at the back, and nothing is granted
    rw [Queue.enqueue_fst_of_running hr] at hq hh
    have hh' : s'.history = s.history ++ [] := by simpa [grantOf, hr] using hh
    have life : ∀ u, s'.lifeOf u = s.lifeOf u := fun u => by simp [lifeOf_of_history hh']
    have hr' : s'.queue.running = some r := by rw [hq]; exact hr
    refine ⟨?_, ?_, ?_, hs.known_of_events (w := []) hh' hnew (by omega),
      hs.once_of_events (t := s.stages.length) (w := []) hh' (by simp), ?_⟩
    · rw [hlen, filter_range_succ_of_agree (p := fun u => decide (.withdrew ∉ s.lifeOf u))
        (fun u _ => by simp [life]) (by simp [life, fresh]), ← hs.order,
        grants_of_history hh', hq]
      simp
    · intro h'
      rw [hr'] at h'
      cases h'
    · intro u hu
      rw [hr', Option.some.injEq] at hu
      subst hu
      rw [hlen]
      exact Nat.lt_succ_of_lt (hs.holder _ hr)
    · intro u st hu
      rw [life, hr']
      rcases stage_of_join hst hu with ⟨_, hu⟩ | ⟨rfl, rfl⟩
      · exact (hs.fits u st hu).congr rfl (by rw [hr])
      · -- the new call waits behind the task holding the slot, with nothing in its life
        have hne : r ≠ s.stages.length := (hs.holder r hr).ne
        exact .inl ⟨by simp [fresh], by simpa using hne⟩
  | none =>
    -- the slot is free, so nothing waits: the task is granted it at once
    have hw := hs.idle hr
    rw [Queue.enqueue_fst_of_idle hr hw] at hq hh
    have hh' : s'.history = s.history ++ [⟨s.stages.length, .granted⟩] := by
      simpa [grantOf, hr] using hh
    have life := lifeOf_of_events (w := [.granted]) hh'
    have hr' : s'.queue.running = some s.stages.length := by rw [hq]
    refine ⟨?_, ?_, ?_, hs.known_of_events (w := [.granted]) hh' hnew (by omega),
      hs.once_of_events (w := [.granted]) hh' (by simp), ?_⟩
    · rw [hlen, filter_range_succ_of_agree (p := fun u => decide (.withdrew ∉ s.lifeOf u))
        (fun u hu => by simp [life, hu.ne']) (by simp [life, fresh]), ← hs.order,
        grants_of_history hh', hq, hw]
      simp
    · intro h'
      rw [hr'] at h'
      cases h'
    · intro u hu
      rw [hr', Option.some.injEq] at hu
      subst hu
      exact hnew
    · intro u st hu
      rw [hr']
      rcases stage_of_join hst hu with ⟨hlt, hu⟩ | ⟨rfl, rfl⟩
      · have hne : s.stages.length ≠ u := hlt.ne'
        rw [life, if_neg hne, List.append_nil]
        exact (hs.fits u st hu).congr rfl (by rw [hr]; simp [hne])
      · exact .inr ⟨by simp [life, fresh], rfl⟩

/-- A call withdraws a task that still waits: the task leaves the queue, and the call returns
the context's error. -/
theorem withdraw_early (hs : Sound s) (hst : s.stages[t]? = some .withdrawing)
    (hw : t ∈ s.queue.waiting)
    (hst' : s'.stages = s.stages.set t (.returned (some canceledMessage)))
    (hh : s'.history = s.history ++ [⟨t, .withdrew⟩])
    (hq : s'.queue = { s.queue with waiting := s.queue.waiting.erase t }) : Sound s' := by
  have ht := lt_length_of_stage hst
  have hg := hs.not_granted_of_waiting hw
  have old := hs.fits t _ hst
  have ⟨hc, hholds⟩ := Waits.of_not_granted old.2 hg
  -- its context was done, once, and nothing else happened to it
  have alone : s.lifeOf t = [.cancelled] := eq_cancelled_of_course_nil hc old.1 (hs.once t)
  have life := lifeOf_of_events (w := [.withdrew]) hh
  have hgrants : s'.grants = s.grants := by simp [grants_of_history hh]
  have hlen : s'.stages.length = s.stages.length := by rw [hst', List.length_set]
  have hr : s'.queue.running = s.queue.running := by rw [hq]
  refine ⟨?_, ?_, ?_, hs.known_of_events (w := [.withdrew]) hh (by rw [hlen]; exact ht) hlen.ge,
    hs.once_of_events (w := [.withdrew]) hh (by simp), ?_⟩
  · -- the task leaves the queue and the tasks not withdrawn alike
    have hng : t ∉ s.grants := fun h => hg ((mem_grants_iff s t).1 h)
    calc s'.grants ++ s'.queue.waiting = (s.grants ++ s.queue.waiting).erase t := by
          rw [hgrants, hq, List.erase_append_right _ hng]
      _ = ((List.range s.stages.length).filter fun u => .withdrew ∉ s.lifeOf u).filter
            (· != t) := by
          rw [hs.order]
          exact (List.nodup_range.filter _).erase_eq_filter t
      _ = _ := by
          rw [List.filter_filter, hlen]
          refine List.filter_congr fun u _ => ?_
          by_cases htu : t = u
          · subst htu
            simp [life]
          · simp [life, htu, Ne.symm htu]
  · intro h
    rw [hr] at h
    exact absurd hw (by rw [hs.idle h]; simp)
  · intro u hu
    rw [hlen]
    exact hs.holder u (hr ▸ hu)
  · intro u st hu
    rw [hr]
    rcases stage_of_set hst' ht hu with ⟨rfl, rfl⟩ | ⟨hne, hu⟩
    · exact ⟨hholds, .inr ⟨by simp [life, alone], rfl⟩⟩
    · rw [life, if_neg (Ne.symm hne), List.append_nil]
      exact hs.fits u st hu

/-- A call releases the slot after its body ended: it returns the error the body ended with,
and the slot passes to the first waiting task, if any. -/
theorem release (hs : Sound s) (h : s.step (.release t) = some s') : Sound s' := by
  obtain ⟨e, hst, hst', hq, hh⟩ := step_release h
  have ht := lt_length_of_stage hst
  have ⟨hc, hholds⟩ := hs.fits t _ hst
  have hlen : s'.stages.length = s.stages.length := by rw [hst', List.length_set]
  cases hw : s.queue.waiting with
  | nil =>
    -- nothing waits: the slot is left free
    rw [Queue.free_fst_of_nil hw] at hq hh
    have hh' : s'.history = s.history ++ [] := by simpa [grantOf] using hh
    have life : ∀ u, s'.lifeOf u = s.lifeOf u := fun u => by simp [lifeOf_of_history hh']
    refine ⟨?_, ?_, ?_, hs.known_of_events (w := []) hh' (by rw [hlen]; exact ht) hlen.ge,
      hs.once_of_events (t := t) (w := []) hh' (by simp), ?_⟩
    · simp only [grants_of_history hh', hq, hlen, life, List.filterMap_nil, List.append_nil]
      rw [← hs.order, hw, List.append_nil]
    · intro _
      rw [hq]
    · intro u hu
      simp [hq] at hu
    · intro u st hu
      rw [life, hq]
      rcases stage_of_set hst' ht hu with ⟨rfl, rfl⟩ | ⟨hne, hu⟩
      · exact ⟨by simp, .inl ⟨e, hc, rfl⟩⟩
      · exact (hs.fits u st hu).congr rfl (by rw [hholds]; simp [Ne.symm hne])
  | cons g rest =>
    -- the first waiting task is granted the slot
    rw [Queue.free_fst_of_cons hw] at hq hh
    have hh' : s'.history = s.history ++ [⟨g, .granted⟩] := by simpa [grantOf] using hh
    have hgw : g ∈ s.queue.waiting := by simp [hw]
    obtain ⟨stg, hstg, hkind, hcg, hholdsg⟩ := hs.stage_of_waiting hgw
    have hgt : g ≠ t := fun h => hholdsg (h ▸ hholds)
    have life := lifeOf_of_events (w := [.granted]) hh'
    have hr' : s'.queue.running = some g := by rw [hq]
    have hglt : g < s'.stages.length := by
      rw [hlen]
      exact (hs.mem_order.1 (List.mem_append_right _ hgw)).1
    refine ⟨?_, ?_, ?_, hs.known_of_events (w := [.granted]) hh' hglt hlen.ge,
      hs.once_of_events (w := [.granted]) hh' (by simp), ?_⟩
    · have same : ((List.range s.stages.length).filter fun u => .withdrew ∉ s'.lifeOf u) =
          (List.range s.stages.length).filter fun u => .withdrew ∉ s.lifeOf u :=
        List.filter_congr fun u _ => by by_cases hgu : g = u <;> simp [life, hgu]
      rw [hlen, same, ← hs.order, hw, grants_of_history hh', hq]
      simp
    · intro h'
      rw [hr'] at h'
      cases h'
    · intro u hu
      rw [hr', Option.some.injEq] at hu
      subst hu
      exact hglt
    · intro u st hu
      rw [hr']
      rcases stage_of_set hst' ht hu with ⟨rfl, rfl⟩ | ⟨hne, hu⟩
      · -- the call that released returns the error its body ended with
        rw [life, if_neg hgt, List.append_nil]
        exact ⟨by simpa using hgt, .inl ⟨e, hc, rfl⟩⟩
      · by_cases hgu : g = u
        · -- the task granted the slot: its call still waits, now with the grant
          subst hgu
          rw [hstg, Option.some.injEq] at hu
          subst hu
          rw [life, if_pos rfl]
          have old := hs.fits g stg hstg
          rcases hkind with rfl | rfl
          · exact .inr ⟨by simp [hcg], rfl⟩
          · exact ⟨by simp [old.1], .inr ⟨by simp [hcg], rfl⟩⟩
        · rw [life, if_neg hgu, List.append_nil]
          exact (hs.fits u st hu).congr rfl (by rw [hholds]; simp [hgu, Ne.symm hne])

/-- Every step keeps the state sound. -/
theorem step (hs : Sound s) {a : Act} (h : s.step a = some s') : Sound s' := by
  cases a with
  | join => exact hs.join h
  | cancel t => exact hs.cancel h
  | wake t => exact hs.wake h
  | notice t => exact hs.notice h
  | withdraw t =>
    obtain ⟨hst, ⟨hw, hst', hh, hq⟩ | ⟨hw, rfl⟩⟩ := step_withdraw h
    · exact hs.withdraw_early hst hw hst' hh hq
    · exact hs.withdraw_late hst hw
  | finish t e => exact hs.finish h
  | release t => exact hs.release h

/-- Every run keeps the state sound. -/
theorem steps (hs : Sound s) {acts : List Act} (h : s.steps acts = some s') : Sound s' := by
  induction acts generalizing s with
  | nil =>
    simp only [Callers.steps_nil, Option.some.injEq] at h
    exact h ▸ hs
  | cons a rest ih =>
    simp only [Callers.steps_cons, Option.bind_eq_some_iff] at h
    obtain ⟨s₁, h₁, h₂⟩ := h
    exact ih (hs.step h₁) h₂

end Sound

end Callers

/-! ## Every call can return -/

/-- The most steps a call still takes before it returns. -/
def Stage.rank : Stage → Nat
  | .waiting => 4
  | .withdrawing => 3
  | .running => 2
  | .releasing _ => 1
  | .returned _ => 0

/-- A step a call takes by itself, its body ending as `ends` says: no new call joins, and no
context is done. -/
def Act.Own (ends : Nat → TaskEnd) : Act → Prop
  | .join | .cancel _ => False
  | .finish t e => e = ends t
  | _ => True

namespace Callers

/-- The most steps the calls still take, all together, before they have all returned. -/
def pending (s : Callers) : Nat := (s.stages.map Stage.rank).sum

theorem sum_rank_set_lt : ∀ {l : List Stage} {t : Nat} {x y : Stage}, l[t]? = some x →
    y.rank < x.rank → ((l.set t y).map Stage.rank).sum < (l.map Stage.rank).sum
  | _ :: _, 0, _, _, h, hr => by
    simp only [List.getElem?_cons_zero, Option.some.injEq] at h
    subst h
    simp only [List.set_cons_zero, List.map_cons, List.sum_cons]
    omega
  | _ :: _, _ + 1, _, _, h, hr => by
    simp only [List.getElem?_cons_succ] at h
    simp only [List.set_cons_succ, List.map_cons, List.sum_cons]
    have := sum_rank_set_lt h hr
    omega

/-- A call's own step brings it closer to returning. -/
theorem pending_lt {s s' : Callers} {ends : Nat → TaskEnd} {a : Act} (ha : a.Own ends)
    (h : s.step a = some s') : s'.pending < s.pending := by
  have moved : ∃ t x y, s.stages[t]? = some x ∧ s'.stages = s.stages.set t y ∧
      y.rank < x.rank := by
    cases a with
    | join => exact ha.elim
    | cancel t => exact ha.elim
    | wake t =>
      obtain ⟨hst, -, rfl⟩ := step_wake h
      exact ⟨t, _, _, hst, rfl, by simp [Stage.rank]⟩
    | notice t =>
      obtain ⟨hst, -, rfl⟩ := step_notice h
      exact ⟨t, _, _, hst, rfl, by simp [Stage.rank]⟩
    | withdraw t =>
      obtain ⟨hst, ⟨-, hst', -⟩ | ⟨-, rfl⟩⟩ := step_withdraw h
      · exact ⟨t, _, _, hst, hst', by simp [Stage.rank]⟩
      · exact ⟨t, _, _, hst, rfl, by simp [Stage.rank]⟩
    | finish t e =>
      obtain ⟨hst, rfl⟩ := step_finish h
      exact ⟨t, _, _, hst, rfl, by simp [Stage.rank]⟩
    | release t =>
      obtain ⟨e, hst, hst', -⟩ := step_release h
      exact ⟨t, _, _, hst, hst', by simp [Stage.rank]⟩
  obtain ⟨t, x, y, hx, hst, hr⟩ := moved
  unfold pending
  rw [hst]
  exact sum_rank_set_lt hx hr

section Enabled

variable {s : Callers} {t : Nat}

theorem wake_enabled (hst : s.stages[t]? = some .waiting) (hg : .granted ∈ s.lifeOf t) :
    s.step (.wake t) = some ((s.moveTo t .running).note t .began) := by
  delta Callers.step
  simp [hst, hg]

theorem withdraw_enabled (hst : s.stages[t]? = some .withdrawing) :
    (s.step (.withdraw t)).isSome := by
  delta Callers.step
  simp only [hst, if_true]
  rcases s.queue.abandon t with _ | ⟨q, signals⟩ <;> rfl

theorem finish_enabled (hst : s.stages[t]? = some .running) (e : TaskEnd) :
    s.step (.finish t e) =
      some (((s.moveTo t (.releasing e)).note t (.ended e)).tell [.finished e.error]) := by
  delta Callers.step
  simp [hst]

theorem release_enabled {e : TaskEnd} (hst : s.stages[t]? = some (.releasing e)) :
    (s.step (.release t)).isSome := by
  delta Callers.step
  simp only [hst]
  rcases s.queue.free with ⟨q, signals⟩
  rfl

end Enabled

namespace Sound

variable {s : Callers}

/-- The call whose task holds the slot can take a step. -/
theorem holder_can_step (hs : Sound s) (ends : Nat → TaskEnd) {r : Nat}
    (hr : s.queue.running = some r) : ∃ a s', a.Own ends ∧ s.step a = some s' := by
  obtain ⟨st, hst⟩ : ∃ st, s.stages[r]? = some st :=
    ⟨_, List.getElem?_eq_getElem (hs.holder r hr)⟩
  have fits := hs.fits r st hst
  cases st with
  | waiting =>
    have hg : .granted ∈ s.lifeOf r := by
      rcases fits with ⟨-, h⟩ | ⟨hc, -⟩
      · exact absurd hr h
      · exact (mem_course (by decide) _).1 (by simp [hc])
    exact ⟨.wake r, _, trivial, wake_enabled hst hg⟩
  | withdrawing =>
    obtain ⟨s', h⟩ := Option.isSome_iff_exists.1 (withdraw_enabled hst)
    exact ⟨.withdraw r, s', trivial, h⟩
  | running => exact ⟨.finish r (ends r), _, rfl, finish_enabled hst (ends r)⟩
  | releasing e =>
    obtain ⟨s', h⟩ := Option.isSome_iff_exists.1 (release_enabled hst)
    exact ⟨.release r, s', trivial, h⟩
  | returned x => exact absurd hr fits.1

/-- While a call has not returned, some call can take a step of its own. -/
theorem can_step (hs : Sound s) (ends : Nat → TaskEnd) {t : Nat} {st : Stage}
    (hst : s.stages[t]? = some st) (hne : ∀ r, st ≠ .returned r) :
    ∃ a s', a.Own ends ∧ s.step a = some s' := by
  have fits := hs.fits t st hst
  by_cases hwd : st = .withdrawing
  · subst hwd
    obtain ⟨s', h⟩ := Option.isSome_iff_exists.1 (withdraw_enabled hst)
    exact ⟨.withdraw t, s', trivial, h⟩
  · -- any other call that has not returned holds the slot or waits for it, so it is held
    obtain ⟨r, hr⟩ : ∃ r, s.queue.running = some r := by
      cases st with
      | waiting =>
        rcases fits with ⟨hc, -⟩ | ⟨-, h⟩
        · have hg : .granted ∉ s.lifeOf t := fun hg => by
            simpa [hc] using (mem_course (by decide) _).2 hg
          have hnot : .withdrew ∉ s.lifeOf t := fun hw => by
            simpa [hc] using (mem_course (by decide) _).2 hw
          have hw := hs.waiting_of_not_granted hst hnot hg
          cases hr : s.queue.running with
          | none => simp [hs.idle hr] at hw
          | some r => exact ⟨r, rfl⟩
        · exact ⟨t, h⟩
      | withdrawing => exact absurd rfl hwd
      | running => exact ⟨t, fits.2⟩
      | releasing e => exact ⟨t, fits.2⟩
      | returned r => exact absurd rfl (hne r)
    exact hs.holder_can_step ends hr

/-- Whatever the bodies end as, the calls can all return by their own steps alone. -/
theorem can_return (hs : Sound s) (ends : Nat → TaskEnd) :
    ∃ more s', (∀ a ∈ more, a.Own ends) ∧ s.steps more = some s' ∧
      ∀ st ∈ s'.stages, ∃ r, st = .returned r := by
  -- by induction on the most steps the calls still take
  obtain ⟨n, hn⟩ : ∃ n, s.pending = n := ⟨_, rfl⟩
  induction n using Nat.strong_induction_on generalizing s with
  | _ n ih =>
    by_cases hall : ∀ st ∈ s.stages, ∃ r, st = .returned r
    · exact ⟨[], s, by simp, rfl, hall⟩
    · push Not at hall
      obtain ⟨st, hmem, hne⟩ := hall
      obtain ⟨t, hst⟩ := List.getElem?_of_mem hmem
      obtain ⟨a, s₁, ha, h₁⟩ := hs.can_step ends hst hne
      obtain ⟨more, s', hmore, h', hdone⟩ := ih _ (hn ▸ pending_lt ha h₁) (hs.step h₁) rfl
      refine ⟨a :: more, s', ?_, ?_, hdone⟩
      · simp only [List.mem_cons, forall_eq_or_imp]
        exact ⟨ha, hmore⟩
      · simp [Callers.steps_cons, h₁, h']

end Sound

end Callers

/-! ## The queue over every interleaving -/

/-- Calls sharing the queue, over every interleaving of their steps, of their contexts being
done and of their bodies ending: at most one body runs at a time; the tasks granted the slot,
and then those waiting, are the tasks that joined, in the order they joined, skipping those
withdrawn; a call that returned either had its task granted, its body begun once and ended, and
returned the error the body ended with (an abort reported as such), or had its context done and
then withdrew its task, never granted, and returned the context's error with its body never
begun; and whatever the bodies end as, the calls can all return by their own steps alone. -/
theorem queue_serves_one_at_a_time_in_order (acts : List Act) (s : Callers)
    (h : ({} : Callers).steps acts = some s) :
    (∀ t u : Nat, s.stages[t]? = some .running → s.stages[u]? = some .running → t = u) ∧
    s.grants ++ s.queue.waiting =
      (List.range s.stages.length).filter (fun t => .withdrew ∉ s.lifeOf t) ∧
    (∀ (t : Nat) (r : Option String), s.stages[t]? = some (.returned r) →
      (∃ e, course (s.lifeOf t) = [.granted, .began, .ended e] ∧ r = e.error) ∨
        (s.lifeOf t = [.cancelled, .withdrew] ∧ r = some canceledMessage)) ∧
    (∀ ends : Nat → TaskEnd, ∃ more s', (∀ a ∈ more, a.Own ends) ∧ s.steps more = some s' ∧
      ∀ st ∈ s'.stages, ∃ r, st = .returned r) := by
  have hs : Callers.Sound s := Callers.sound_initial.steps h
  refine ⟨fun t u ht hu => ?_, hs.order, fun t r ht => (hs.fits t _ ht).2, hs.can_return⟩
  -- a running body's task holds the slot, and the slot is held by one task
  exact Option.some.inj ((hs.fits t _ ht).2.symm.trans (hs.fits u _ hu).2)

/-- Three calls: the first is granted the slot at once and its body aborts; the second's context
is done while it waits, and it withdraws; the third is granted the slot when the first releases
it, sees its context done at the same time, and runs all the same. -/
def raceActs : List Act :=
  [.join, .join, .join, .cancel 1, .notice 1, .withdraw 1, .wake 0, .finish 0 (.panicked "boom"),
    .release 0, .cancel 2, .notice 2, .withdraw 2, .finish 2 .ok, .release 2]

theorem race_served_in_order :
    let s := (({} : Callers).steps raceActs).getD {}
    ({} : Callers).steps raceActs = some s ∧
    ((∀ t u : Nat, s.stages[t]? = some .running → s.stages[u]? = some .running → t = u) ∧
      s.grants ++ s.queue.waiting =
        (List.range s.stages.length).filter (fun t => .withdrew ∉ s.lifeOf t) ∧
      (∀ (t : Nat) (r : Option String), s.stages[t]? = some (.returned r) →
        (∃ e, course (s.lifeOf t) = [.granted, .began, .ended e] ∧ r = e.error) ∨
          (s.lifeOf t = [.cancelled, .withdrew] ∧ r = some canceledMessage)) ∧
      (∀ ends : Nat → TaskEnd, ∃ more s', (∀ a ∈ more, a.Own ends) ∧ s.steps more = some s' ∧
        ∀ st ∈ s'.stages, ∃ r, st = .returned r)) :=
  ⟨rfl, queue_serves_one_at_a_time_in_order raceActs _ rfl⟩

end TurnRelay.Admission
