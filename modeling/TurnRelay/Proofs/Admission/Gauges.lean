import Mathlib
import TurnRelay.Proofs.Admission.SingleFlight
import TurnRelay.Telemetry.Metrics

/-!
# What the queue's observer is told

The queue tells its observer of every transition: a task joined, with the number now waiting; a
task was granted the slot, with the number still waiting; a task's body ended; a waiting task was
withdrawn, with the number still waiting. Whatever the interleaving of the calls on the queue
(`Callers`), what the observer was told adds up to the queue as it stands:

* the tasks that joined are those granted the slot, those withdrawn and those waiting;
* the tasks granted the slot are those whose bodies ended and the one being served, if any: the
  task that holds the slot, unless its body has ended and its call is about to release it;
* the last depth told is the number waiting, and the last start or end told says whether a task
  is being served.

The observer hears that a body ended outside the queue's lock, before the slot is released. So
the grants less the ends count the tasks holding the slot only once no call is between those two
steps (`Callers.Settled`). With the service's metrics as the observer, the depth gauge is the
number waiting, and, once settled, the running gauge is the number running.

Each step of the calls changes the queue, as the observer sees it, in one of a few ways (`Heard`,
`Callers.Sound.heard`), and each of them keeps the accounts (`Accounted.heard`).
-/

namespace TurnRelay.Admission

open TurnRelay.Telemetry

/-! ## Reading the signals -/

/-- The kinds of signal. -/
inductive Signal.Kind where
  | enqueued
  | started
  | finished
  | cancelled
  deriving DecidableEq

/-- The kind of a signal. -/
@[simp] def Signal.kind : Signal → Signal.Kind
  | .enqueued _ => .enqueued
  | .started _ => .started
  | .finished _ => .finished
  | .cancelled _ => .cancelled

/-- The number of waiting tasks a signal reports, for the three that report one. -/
@[simp] def Signal.depth? : Signal → Option Nat
  | .enqueued d | .started d | .cancelled d => some d
  | .finished _ => none

/-- The number of running tasks a signal implies: one once a task started, none once its body
ended. -/
@[simp] def Signal.running? : Signal → Option Nat
  | .started _ => some 1
  | .finished _ => some 0
  | _ => none

/-- The number of signals of kind `k`. -/
def tally (signals : List Signal) (k : Signal.Kind) : Nat := signals.countP (·.kind = k)

@[simp] theorem tally_nil (k : Signal.Kind) : tally [] k = 0 := rfl

@[simp] theorem tally_cons (sig : Signal) (signals : List Signal) (k : Signal.Kind) :
    tally (sig :: signals) k = tally signals k + if sig.kind = k then 1 else 0 := by
  simp only [tally, List.countP_cons, decide_eq_true_eq]

@[simp] theorem tally_append (l m : List Signal) (k : Signal.Kind) :
    tally (l ++ m) k = tally l k + tally m k :=
  List.countP_append

/-- The last value `f` reads off the signals, if any of them gives one. -/
def lastOf (f : Signal → Option Nat) (signals : List Signal) : Option Nat :=
  signals.foldl (fun last sig => (f sig).or last) none

section LastOf

variable (f : Signal → Option Nat)

theorem foldl_or (signals : List Signal) (init : Option Nat) :
    signals.foldl (fun last sig => (f sig).or last) init = (lastOf f signals).or init := by
  induction signals generalizing init with
  | nil => rfl
  | cons sig rest ih =>
    -- both sides read `rest` last: fold it over the two starting values
    simp only [lastOf, List.foldl_cons, Option.or_none]
    rw [ih, ih (f sig), Option.or_assoc]

@[simp] theorem lastOf_nil : lastOf f [] = none := rfl

@[simp] theorem lastOf_append (l m : List Signal) :
    lastOf f (l ++ m) = (lastOf f m).or (lastOf f l) := by
  rw [lastOf, List.foldl_append, foldl_or]
  rfl

@[simp] theorem lastOf_cons (sig : Signal) (signals : List Signal) :
    lastOf f (sig :: signals) = (lastOf f signals).or (f sig) := by
  rw [← List.singleton_append, lastOf_append]
  simp [lastOf]

end LastOf

/-- A gauge that each signal either sets or leaves alone ends as the last value the signals set
it to. -/
theorem observeAll_gauge (gauge : Metrics → Nat) (f : Signal → Option Nat)
    (hset : ∀ m sig, gauge (m.observe sig) = (f sig).getD (gauge m)) (m : Metrics)
    (signals : List Signal) :
    gauge (m.observeAll signals) = (lastOf f signals).getD (gauge m) := by
  induction signals generalizing m with
  | nil => rfl
  | cons sig rest ih =>
    rw [Metrics.observeAll, List.foldl_cons, ← Metrics.observeAll, ih, hset, lastOf_cons]
    cases lastOf f rest <;> rfl

theorem observeAll_queueDepth (m : Metrics) (signals : List Signal) :
    (m.observeAll signals).queueDepth = (lastOf Signal.depth? signals).getD m.queueDepth :=
  observeAll_gauge Metrics.queueDepth Signal.depth? (fun _ sig => by cases sig <;> rfl) m signals

theorem observeAll_queueRunning (m : Metrics) (signals : List Signal) :
    (m.observeAll signals).queueRunning = (lastOf Signal.running? signals).getD m.queueRunning :=
  observeAll_gauge Metrics.queueRunning Signal.running? (fun _ sig => by cases sig <;> rfl) m
    signals

/-! ## The accounts -/

/-- How one step changes the queue as its observer sees it: from `n` tasks waiting and `k` being
served to `n'` waiting and `k'` served, with the signals it raises. -/
inductive Heard : Nat → Nat → List Signal → Nat → Nat → Prop where
  /-- Nothing the observer sees changes. -/
  | quiet (n k : Nat) : Heard n k [] n k
  /-- A task joins behind a held slot. -/
  | queued (n k : Nat) : Heard n k [.enqueued (n + 1)] (n + 1) k
  /-- A task joins while the slot is free, and is granted it at once. -/
  | grantedOnJoin : Heard 0 0 [.enqueued 1, .started 0] 0 1
  /-- A waiting task is withdrawn. -/
  | withdrawn (n k : Nat) : Heard (n + 1) k [.cancelled n] n k
  /-- The body of the task being served ends. -/
  | ended (n : Nat) (error : Option String) : Heard n 1 [.finished error] n 0
  /-- The slot passes to the first waiting task. -/
  | handedOver (n : Nat) : Heard (n + 1) 0 [.started n] n 1

/-- The signals add up to a queue with `n` tasks waiting and `k` being served. -/
structure Accounted (signals : List Signal) (n k : Nat) : Prop where
  /-- Every task that joined was granted the slot, was withdrawn, or waits. -/
  joined : tally signals .enqueued = tally signals .started + tally signals .cancelled + n
  /-- Every task granted the slot had its body end, or is being served. -/
  granted : tally signals .started = tally signals .finished + k
  /-- The last depth told is the number waiting. -/
  depth : (lastOf Signal.depth? signals).getD 0 = n
  /-- The last start or end told says whether a task is being served. -/
  running : (lastOf Signal.running? signals).getD 0 = k

theorem Accounted.nil : Accounted [] 0 0 := ⟨rfl, rfl, rfl, rfl⟩

/-- Each way a step can change the queue keeps the accounts. -/
theorem Accounted.heard {signals new : List Signal} {n k n' k' : Nat}
    (ha : Accounted signals n k) (h : Heard n k new n' k') : Accounted (signals ++ new) n' k' := by
  have ⟨hj, hg, hd, hr⟩ := ha
  cases h with
  | quiet => simpa using ha
  | queued n k => exact ⟨by simp; omega, by simpa using hg, by simp, by simpa using hr⟩
  | grantedOnJoin => exact ⟨by simp; omega, by simp; omega, by simp, by simp⟩
  | withdrawn n k => exact ⟨by simp; omega, by simpa using hg, by simp, by simpa using hr⟩
  | ended n error => exact ⟨by simpa using hj, by simp; omega, by simpa using hd, by simp⟩
  | handedOver n => exact ⟨by simp; omega, by simp; omega, by simp, by simp⟩

/-! ## The queue's operations, with their signals -/

namespace Queue

variable {τ : Type}

theorem enqueue_snd_of_running {q : Queue τ} {r : τ} (h : q.running = some r) (t : τ) :
    (q.enqueue t).2 = [.enqueued (q.waiting.length + 1)] := by
  obtain ⟨waiting, running⟩ := q
  dsimp only at h
  subst h
  show [Signal.enqueued (waiting ++ [t]).length] = _
  rw [List.length_append, List.length_singleton]

theorem enqueue_snd_of_idle {q : Queue τ} (h : q.running = none) (hw : q.waiting = []) (t : τ) :
    (q.enqueue t).2 = [.enqueued 1, .started 0] := by
  obtain ⟨waiting, running⟩ := q
  dsimp only at h hw
  subst h hw
  rfl

theorem free_snd_of_nil {q : Queue τ} (hw : q.waiting = []) : q.free.2 = [] := by
  obtain ⟨waiting, running⟩ := q
  dsimp only at hw
  subst hw
  rfl

theorem free_snd_of_cons {q : Queue τ} {g : τ} {rest : List τ} (hw : q.waiting = g :: rest) :
    q.free.2 = [.started rest.length] := by
  obtain ⟨waiting, running⟩ := q
  dsimp only at hw
  subst hw
  rfl

end Queue

/-! ## The task being served -/

/-- Whether a call is between its body's end and its release of the slot. -/
def Stage.isReleasing : Stage → Bool
  | .releasing _ => true
  | _ => false

namespace Callers

/-- The number of tasks being served: the task holding the slot, unless its body has ended.
One or none. -/
def serving (s : Callers) : Nat :=
  match s.queue.running with
  | some t => if s.stages[t]?.any Stage.isReleasing then 0 else 1
  | none => 0

/-- No call is between its body's end and its release of the slot. -/
def Settled (s : Callers) : Prop := ∀ (t : Nat) (e : TaskEnd), s.stages[t]? ≠ some (.releasing e)

variable {s s' : Callers} {t : Nat}

theorem serving_of_free (hr : s.queue.running = none) : s.serving = 0 := by
  simp [serving, hr]

theorem serving_of_holder {st : Stage} (hr : s.queue.running = some t)
    (hst : s.stages[t]? = some st) : s.serving = if st.isReleasing then 0 else 1 := by
  simp [serving, hr, hst]

/-- The task being served depends only on the slot's holder and its call's stage. -/
theorem serving_eq_of_holder (hr : s'.queue.running = s.queue.running)
    (hst : ∀ r, s.queue.running = some r → s'.stages[r]?.any Stage.isReleasing =
      s.stages[r]?.any Stage.isReleasing) : s'.serving = s.serving := by
  unfold serving
  rw [hr]
  cases h : s.queue.running with
  | none => rfl
  | some r => simp only [hst r h]

/-- A step that leaves the slot's holder alone, and moves call `t` between two stages alike in
whether the body has ended, leaves the task being served alone. -/
theorem serving_eq_of_set {old st : Stage} (hr : s'.queue.running = s.queue.running)
    (hst : s'.stages = s.stages.set t st) (hold : s.stages[t]? = some old)
    (hsame : st.isReleasing = old.isReleasing) : s'.serving = s.serving := by
  refine serving_eq_of_holder hr fun r _ => ?_
  rw [hst]
  by_cases htr : t = r
  · subst htr
    simp [List.getElem?_set_self (lt_length_of_stage hold), hold, hsame]
  · simp [List.getElem?_set_ne htr]

/-- Once settled, the task being served is the task holding the slot. -/
theorem serving_of_settled (h : s.Settled) : s.serving = s.queue.pending := by
  unfold serving Queue.pending
  cases hr : s.queue.running with
  | none => rfl
  | some t =>
    have hnot : s.stages[t]?.any Stage.isReleasing = false := by
      cases hst : s.stages[t]? with
      | none => rfl
      | some st =>
        cases st with
        | releasing e => exact absurd hst (h t e)
        | _ => rfl
    simp [hnot]

/-! ## What each step tells the observer -/

theorem signals_of_join (h : s.step .join = some s') :
    s'.signals = s.signals ++ (s.queue.enqueue s.stages.length).2 := by
  rcases hq : s.queue.enqueue s.stages.length with ⟨q, signals⟩
  simp only [step, hq, Option.some.injEq] at h
  subst h
  rfl

theorem signals_of_withdraw_early (h : s.step (.withdraw t) = some s')
    (hw : t ∈ s.queue.waiting) :
    s'.signals = s.signals ++ [.cancelled (s.queue.waiting.erase t).length] := by
  simp only [step] at h
  split at h
  · simp only [Queue.abandon_of_mem hw, Option.some.injEq] at h
    subst h
    rfl
  · cases h

theorem signals_of_release (h : s.step (.release t) = some s') :
    s'.signals = s.signals ++ s.queue.free.2 := by
  simp only [step] at h
  split at h
  · rcases hq : s.queue.free with ⟨q, signals⟩
    simp only [hq, Option.some.injEq] at h
    subst h
    rfl
  · cases h

namespace Sound

/-- The waiting tasks are those neither granted the slot nor withdrawn, in the order they
joined. -/
theorem waiting_eq_filter (hs : Sound s) :
    s.queue.waiting = (List.range s.stages.length).filter
      (fun t => .granted ∉ s.lifeOf t ∧ .withdrew ∉ s.lifeOf t) := by
  -- keep, on both sides of `order`, the tasks not granted the slot
  have h := congrArg (List.filter fun t => decide (.granted ∉ s.lifeOf t)) hs.order
  have hgrants : s.grants.filter (fun t => decide (.granted ∉ s.lifeOf t)) = [] :=
    List.filter_eq_nil_iff.2 fun t ht => by simpa using (mem_grants_iff s t).1 ht
  have hwaiting : s.queue.waiting.filter (fun t => decide (.granted ∉ s.lifeOf t)) =
      s.queue.waiting :=
    List.filter_eq_self.2 fun t ht => by simpa using hs.not_granted_of_waiting ht
  rw [List.filter_append, hgrants, hwaiting, List.nil_append, List.filter_filter] at h
  rw [h]
  refine List.filter_congr fun t _ => ?_
  simp

/-- A call's own step that keeps the queue and moves it between two stages alike in whether the
body has ended is not heard. -/
theorem quiet_of_set {old st : Stage} (hq : s'.queue = s.queue) (hsig : s'.signals = s.signals)
    (hst : s'.stages = s.stages.set t st) (hold : s.stages[t]? = some old)
    (hsame : st.isReleasing = old.isReleasing) :
    ∃ new, s'.signals = s.signals ++ new ∧
      Heard s.queue.size s.serving new s'.queue.size s'.serving := by
  refine ⟨[], by simp [hsig], ?_⟩
  rw [serving_eq_of_set (by rw [hq]) hst hold hsame, hq]
  exact .quiet _ _

/-- A new call joins: its task waits behind a held slot, or is granted a free one at once. -/
theorem heard_join (hs : Sound s) (h : s.step .join = some s') :
    ∃ new, s'.signals = s.signals ++ new ∧
      Heard s.queue.size s.serving new s'.queue.size s'.serving := by
  obtain ⟨hst, hq, -⟩ := step_join h
  refine ⟨_, signals_of_join h, ?_⟩
  cases hr : s.queue.running with
  | some r =>
    rw [Queue.enqueue_fst_of_running hr] at hq
    -- the holder joined earlier, so its call's stage is as it was
    have hserve : s'.serving = s.serving := serving_eq_of_holder (by rw [hq]) fun r' hr' => by
      rw [hst, List.getElem?_append_left (hs.holder r' hr')]
    have hsize' : s'.queue.size = s.queue.size + 1 := by simp [Queue.size, hq]
    rw [Queue.enqueue_snd_of_running hr, hserve, hsize']
    exact .queued _ _
  | none =>
    have hw := hs.idle hr
    rw [Queue.enqueue_fst_of_idle hr hw] at hq
    have hnew : s'.stages[s.stages.length]? = some .waiting := by simp [hst]
    have hsize : s.queue.size = 0 := by simp [Queue.size, hw]
    have hsize' : s'.queue.size = 0 := by simp [Queue.size, hq]
    rw [Queue.enqueue_snd_of_idle hr hw, hsize, hsize', serving_of_free hr,
      serving_of_holder (by rw [hq]) hnew]
    exact .grantedOnJoin

/-- A call that withdraws its task while it still waits takes it out of the queue. -/
theorem heard_withdraw_early (h : s.step (.withdraw t) = some s')
    (hst : s.stages[t]? = some .withdrawing) (hw : t ∈ s.queue.waiting)
    (hst' : s'.stages = s.stages.set t (.returned (some canceledMessage)))
    (hq : s'.queue = { s.queue with waiting := s.queue.waiting.erase t }) :
    ∃ new, s'.signals = s.signals ++ new ∧
      Heard s.queue.size s.serving new s'.queue.size s'.serving := by
  refine ⟨_, signals_of_withdraw_early h hw, ?_⟩
  have hlen : s.queue.size = (s.queue.waiting.erase t).length + 1 := by
    rw [Queue.size, List.length_erase_of_mem hw]
    have := List.length_pos_of_mem hw
    omega
  have hsize' : s'.queue.size = (s.queue.waiting.erase t).length := by rw [hq]; rfl
  rw [serving_eq_of_set (by rw [hq]) hst' hst rfl, hlen, hsize']
  exact .withdrawn _ _

/-- The body of the task holding the slot ends. -/
theorem heard_finish (hs : Sound s) {e : TaskEnd} (h : s.step (.finish t e) = some s') :
    ∃ new, s'.signals = s.signals ++ new ∧
      Heard s.queue.size s.serving new s'.queue.size s'.serving := by
  obtain ⟨hst, hs'⟩ := step_finish h
  -- a running body's task holds the slot, and is served until its body ends
  have hholds : s.queue.running = some t := (hs.fits t _ hst).2
  have hholds' : s'.queue.running = some t := by rw [hs']; exact hholds
  have hst' : s'.stages[t]? = some (.releasing e) := by
    simp [hs', moveTo, note, tell, List.getElem?_set_self (lt_length_of_stage hst)]
  have hserve : s.serving = 1 := by rw [serving_of_holder hholds hst]; rfl
  have hserve' : s'.serving = 0 := by rw [serving_of_holder hholds' hst']; rfl
  have hsize' : s'.queue.size = s.queue.size := by rw [hs']; rfl
  refine ⟨[.finished e.error], by rw [hs']; rfl, ?_⟩
  rw [hserve, hserve', hsize']
  exact .ended _ _

/-- The call whose body ended releases the slot, which passes to the first waiting task. -/
theorem heard_release (hs : Sound s) (h : s.step (.release t) = some s') :
    ∃ new, s'.signals = s.signals ++ new ∧
      Heard s.queue.size s.serving new s'.queue.size s'.serving := by
  obtain ⟨e, hst, hst', hq, -⟩ := step_release h
  refine ⟨_, signals_of_release h, ?_⟩
  -- the releasing call's task holds the slot, and is no longer served
  have hserve : s.serving = 0 := serving_of_holder (hs.fits t _ hst).2 hst
  cases hw : s.queue.waiting with
  | nil =>
    rw [Queue.free_fst_of_nil hw] at hq
    have hsize : s.queue.size = 0 := by simp [Queue.size, hw]
    have hsize' : s'.queue.size = 0 := by simp [Queue.size, hq]
    rw [Queue.free_snd_of_nil hw, hserve, serving_of_free (by rw [hq]), hsize, hsize']
    exact .quiet _ _
  | cons g rest =>
    rw [Queue.free_fst_of_cons hw] at hq
    obtain ⟨stg, hstg, hkind, -, hne⟩ := hs.stage_of_waiting (by simp [hw] : g ∈ s.queue.waiting)
    have hgt : g ≠ t := fun hgt => hne (hgt ▸ (hs.fits t _ hst).2)
    have hstg' : s'.stages[g]? = some stg := by
      rw [hst', List.getElem?_set_ne (Ne.symm hgt), hstg]
    have hnot : stg.isReleasing = false := by rcases hkind with rfl | rfl <;> rfl
    have hsize : s.queue.size = rest.length + 1 := by simp [Queue.size, hw]
    have hsize' : s'.queue.size = rest.length := by simp [Queue.size, hq]
    rw [Queue.free_snd_of_cons hw, hserve, serving_of_holder (by rw [hq]) hstg', hnot, hsize,
      hsize']
    exact .handedOver _

/-- Every step changes the queue, as its observer sees it, in one of the ways `Heard` lists. -/
theorem heard (hs : Sound s) {a : Act} (h : s.step a = some s') :
    ∃ new, s'.signals = s.signals ++ new ∧
      Heard s.queue.size s.serving new s'.queue.size s'.serving := by
  cases a with
  | join => exact hs.heard_join h
  | cancel t =>
    obtain ⟨ht, ⟨-, rfl⟩ | ⟨-, rfl⟩⟩ := step_cancel h
    · exact ⟨[], by simp, .quiet _ _⟩
    · exact ⟨[], by simp [note], .quiet _ _⟩
  | wake t =>
    obtain ⟨hst, -, rfl⟩ := step_wake h
    exact quiet_of_set rfl rfl rfl hst rfl
  | notice t =>
    obtain ⟨hst, -, rfl⟩ := step_notice h
    exact quiet_of_set rfl rfl rfl hst rfl
  | withdraw t =>
    obtain ⟨hst, ⟨hw, hst', -, hq⟩ | ⟨-, rfl⟩⟩ := step_withdraw h
    · exact heard_withdraw_early h hst hw hst' hq
    · exact quiet_of_set rfl rfl rfl hst rfl
  | finish t e => exact hs.heard_finish h
  | release t => exact hs.heard_release h

end Sound

/-- A run from a sound state whose observer's accounts add up keeps both. -/
theorem Sound.accounted_steps (hs : Sound s) (ha : Accounted s.signals s.queue.size s.serving)
    {acts : List Act} (h : s.steps acts = some s') :
    Sound s' ∧ Accounted s'.signals s'.queue.size s'.serving := by
  induction acts generalizing s with
  | nil =>
    simp only [Callers.steps_nil, Option.some.injEq] at h
    exact h ▸ ⟨hs, ha⟩
  | cons a rest ih =>
    simp only [Callers.steps_cons, Option.bind_eq_some_iff] at h
    obtain ⟨s₁, h₁, h₂⟩ := h
    obtain ⟨new, hsig, heard⟩ := hs.heard h₁
    exact ih (hs.step h₁) (hsig ▸ ha.heard heard) h₂

/-- Every state reached from the empty queue is sound, and what its observer was told adds up. -/
theorem accounted_of_steps {acts : List Act} (h : ({} : Callers).steps acts = some s) :
    Sound s ∧ Accounted s.signals s.queue.size s.serving :=
  sound_initial.accounted_steps Accounted.nil h

end Callers

/-! ## The queue over every interleaving -/

/-- In every state reached by calls sharing the queue: the slot is free only when no task
waits; the waiting tasks are those neither granted the slot nor withdrawn, each once, in the
order they joined; the tasks that joined were granted the slot, withdrawn, or wait; at most one
task runs, and once no call is between its body's end and its release of the slot, the grants
less the ends count it; the depth last told is the number waiting. With the service's metrics as
the observer, the depth gauge is the number waiting, and once settled the running gauge is the
number running. -/
theorem queue_observer_totals_add_up (acts : List Act) (s : Callers)
    (h : ({} : Callers).steps acts = some s) :
    (s.queue.running = none → s.queue.waiting = []) ∧
    s.queue.waiting = (List.range s.stages.length).filter
      (fun t => .granted ∉ s.lifeOf t ∧ .withdrew ∉ s.lifeOf t) ∧
    tally s.signals .enqueued = tally s.signals .started + tally s.signals .cancelled + s.queue.size ∧
    s.queue.pending ≤ 1 ∧
    (s.Settled → tally s.signals .started = tally s.signals .finished + s.queue.pending) ∧
    (∀ d, lastOf Signal.depth? s.signals = some d → d = s.queue.size) ∧
    (({} : Metrics).observeAll s.signals).queueDepth = s.queue.size ∧
    (s.Settled → (({} : Metrics).observeAll s.signals).queueRunning = s.queue.pending) := by
  obtain ⟨hs, ha⟩ := Callers.accounted_of_steps h
  refine ⟨hs.idle, hs.waiting_eq_filter, ha.joined, ?_, fun hset => ?_, fun d hd => ?_, ?_,
    fun hset => ?_⟩
  · unfold Queue.pending
    split <;> omega
  · rw [← Callers.serving_of_settled hset]
    exact ha.granted
  · simpa [hd] using ha.depth
  · rw [observeAll_queueDepth]
    exact ha.depth
  · rw [observeAll_queueRunning, ← Callers.serving_of_settled hset]
    exact ha.running

/-- Four calls: the first is granted the slot at once; the third's context is done while it
waits, and it withdraws; the first's body fails, and its call hands the slot to the second while
the fourth still waits. -/
def handOverActs : List Act :=
  [.join, .join, .join, .join, .cancel 2, .notice 2, .withdraw 2, .wake 0,
    .finish 0 (.failed "boom"), .release 0]

theorem hand_over_observer_totals_add_up :
    let s := (({} : Callers).steps handOverActs).getD {}
    ({} : Callers).steps handOverActs = some s ∧
    ((s.queue.running = none → s.queue.waiting = []) ∧
      s.queue.waiting = (List.range s.stages.length).filter
        (fun t => .granted ∉ s.lifeOf t ∧ .withdrew ∉ s.lifeOf t) ∧
      tally s.signals .enqueued =
        tally s.signals .started + tally s.signals .cancelled + s.queue.size ∧
      s.queue.pending ≤ 1 ∧
      (s.Settled → tally s.signals .started = tally s.signals .finished + s.queue.pending) ∧
      (∀ d, lastOf Signal.depth? s.signals = some d → d = s.queue.size) ∧
      (({} : Metrics).observeAll s.signals).queueDepth = s.queue.size ∧
      (s.Settled → (({} : Metrics).observeAll s.signals).queueRunning = s.queue.pending)) :=
  ⟨rfl, queue_observer_totals_add_up handOverActs _ rfl⟩

end TurnRelay.Admission
