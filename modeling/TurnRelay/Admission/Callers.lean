import TurnRelay.Admission.Queue

/-!
# Calls that share the queue

A call that queues a task appends it and dispatches the slot in one critical section, and then
blocks until the task is granted the slot or the call's context is done. A call that sees its
context done first tries to withdraw the task, in a second critical section: that succeeds only
while the task still waits, and the call then returns the context's error; a task granted in the
meantime is run all the same. A call whose task holds the slot runs the body to its end (the
body returns, maybe with an error, or aborts), tells the queue's observer how it ended, outside
the lock, and then, in a third critical section, releases the slot and dispatches it again.

Many calls run at once. `Callers` is the queue with every call made on it, and `step` takes one
of them one atomic step further: a critical section, a context being done, a blocked call waking,
or a body ending. An interleaving of such steps is a list of them (`steps`).

The history records what happened to each task, in order: its call's context done, its grant of
the slot, its body beginning and ending, its withdrawal.

## Main definitions

* `Happening`, `Event`, `Stage`, `Act`, `Callers`.
* `Callers.step`, `Callers.steps`.
* `Callers.lifeOf`, `Callers.grants`: the history of one task, and the order of the grants.
-/

namespace TurnRelay.Admission

/-- What happens to a queued task and to the call that queued it. -/
inductive Happening where
  /-- The call's context is done. -/
  | cancelled
  /-- The task is granted the slot. -/
  | granted
  /-- The task's body begins. -/
  | began
  /-- The task's body ends as `e`. -/
  | ended (e : TaskEnd)
  /-- The task leaves the queue without having run. -/
  | withdrew
  deriving DecidableEq

/-- A happening of the task with ticket `task`. -/
structure Event where
  task : Nat
  what : Happening
  deriving DecidableEq

/-- Where a call that queued a task is. -/
inductive Stage where
  /-- Blocked until its task is granted the slot or its context is done. -/
  | waiting
  /-- It saw its context done, and is about to withdraw its task. -/
  | withdrawing
  /-- The task's body runs. -/
  | running
  /-- The body ended as `e`; the call is about to release the slot. -/
  | releasing (e : TaskEnd)
  /-- The call returned `error`. -/
  | returned (error : Option String)
  deriving DecidableEq

/-- One atomic step of one call, or of the context of one. -/
inductive Act where
  /-- A new call appends its task and dispatches the slot. -/
  | join
  /-- Call `t`'s context is done. -/
  | cancel (t : Nat)
  /-- Call `t`, blocked, sees its task granted the slot, and its body begins. -/
  | wake (t : Nat)
  /-- Call `t`, blocked, sees its context done. -/
  | notice (t : Nat)
  /-- Call `t` tries to withdraw its task. -/
  | withdraw (t : Nat)
  /-- Call `t`'s body ends as `e`, and the observer is told. -/
  | finish (t : Nat) (e : TaskEnd)
  /-- Call `t` releases the slot and dispatches it. -/
  | release (t : Nat)
  deriving DecidableEq

/-- The queue with every call made on it. Call `t` is the `t`-th to join, and its task has the
ticket `t`. -/
structure Callers where
  queue : Queue Nat := {}
  /-- Each call's stage, by ticket. -/
  stages : List Stage := []
  /-- What happened to the tasks, in order. -/
  history : List Event := []
  /-- What the queue's observer was told, in order. -/
  signals : List Signal := []

namespace Callers

/-- What happened to task `t`, in order. -/
def lifeOf (s : Callers) (t : Nat) : List Happening :=
  s.history.filterMap fun ev => if ev.task = t then some ev.what else none

/-- The tickets granted the slot, in order. -/
def grants (s : Callers) : List Nat :=
  s.history.filterMap fun ev => if ev.what = .granted then some ev.task else none

/-- Records that `what` happened to task `t`. -/
def note (s : Callers) (t : Nat) (what : Happening) : Callers :=
  { s with history := s.history ++ [⟨t, what⟩] }

/-- Tells the queue's observer `signals`. -/
def tell (s : Callers) (signals : List Signal) : Callers :=
  { s with signals := s.signals ++ signals }

/-- Moves call `t` to `stage`. -/
def moveTo (s : Callers) (t : Nat) (stage : Stage) : Callers :=
  { s with stages := s.stages.set t stage }

/-- The grant made by an operation that found the slot as `before` and left it as `after`: a
free slot that is held afterwards was granted. -/
def grantOf (before after : Queue Nat) : List Event :=
  match before.running, after.running with
  | none, some t => [⟨t, .granted⟩]
  | _, _ => []

/-- Takes one atomic step; none when it cannot be taken. -/
def step (s : Callers) : Act → Option Callers
  | .join =>
    let (q, signals) := s.queue.enqueue s.stages.length
    some
      { queue := q
        stages := s.stages ++ [.waiting]
        history := s.history ++ grantOf s.queue q
        signals := s.signals ++ signals }
  | .cancel t =>
    if t < s.stages.length then
      -- a context is done once; cancelling it again does nothing
      if .cancelled ∈ s.lifeOf t then some s else some (s.note t .cancelled)
    else none
  | .wake t =>
    if s.stages[t]? = some .waiting ∧ .granted ∈ s.lifeOf t then
      some ((s.moveTo t .running).note t .began)
    else none
  | .notice t =>
    if s.stages[t]? = some .waiting ∧ .cancelled ∈ s.lifeOf t then
      some (s.moveTo t .withdrawing)
    else none
  | .withdraw t =>
    if s.stages[t]? = some .withdrawing then
      match s.queue.abandon t with
      | some (q, signals) =>
        let s' := (s.moveTo t (.returned (some canceledMessage))).note t .withdrew
        some { s' with queue := q, signals := s.signals ++ signals }
      -- granted while the call was about to withdraw: the task is run all the same
      | none => some ((s.moveTo t .running).note t .began)
    else none
  | .finish t e =>
    if s.stages[t]? = some .running then
      -- the observer hears of the end outside the lock, before the slot is released
      some (((s.moveTo t (.releasing e)).note t (.ended e)).tell [.finished e.error])
    else none
  | .release t =>
    match s.stages[t]? with
    | some (.releasing e) =>
      let (q, signals) := s.queue.free
      let s' := s.moveTo t (.returned e.error)
      some
        { s' with
          queue := q
          history := s.history ++ grantOf { s.queue with running := none } q
          signals := s.signals ++ signals }
    | _ => none

/-- Takes the steps in order; none when one of them cannot be taken. -/
def steps (s : Callers) : List Act → Option Callers
  | [] => some s
  | a :: rest => (s.step a).bind fun s' => s'.steps rest

end Callers

end TurnRelay.Admission
