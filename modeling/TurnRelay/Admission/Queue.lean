/-!
# The turn queue

Only one assistant turn may run at a time, so requests queue for a single slot. Tasks are
granted the slot in the order they joined; a task whose caller gives up while it waits leaves
the queue without running; a task that has the slot runs to its end, whatever happens to its
caller, and then hands the slot to the next one.

Each transition tells an observer about it: a task joined (with the number now waiting), a task
started (with the number still waiting), a task finished (with its error), a waiting task was
withdrawn (with the number still waiting).

## Main definitions

* `Queue` with `enqueue`, `abandon`, `free` and `release`; each returns the signals it raised.
* `TaskEnd` and `TaskEnd.error`: how a task's body ended, and what its caller is told.
-/

namespace TurnRelay.Admission

/-- A notification to the queue's observer. -/
inductive Signal where
  | enqueued (depth : Nat)
  | started (depth : Nat)
  | finished (error : Option String)
  | cancelled (depth : Nat)
  deriving Inhabited, DecidableEq, Repr

/-- The queue over tasks named by tickets `τ`: the waiting tasks in order, and the task that
holds the slot. -/
structure Queue (τ : Type) where
  waiting : List τ := []
  running : Option τ := none
  deriving Inhabited

/-- How a task's body ended. -/
inductive TaskEnd where
  | ok
  | failed (message : String)
  | panicked (message : String)
  deriving Inhabited, DecidableEq

/-- What the caller of a task whose body aborted with `m` is told. -/
def abortReport (m : String) : String := "queued task panicked: " ++ m

/-- The error the caller of a task is told: none for success; an abort of the body is caught
and reported. -/
def TaskEnd.error : TaskEnd → Option String
  | .ok => none
  | .failed m => some m
  | .panicked m => some (abortReport m)

/-- What a caller who gave up while waiting is told. -/
def canceledMessage : String := "context canceled"

namespace Queue

variable {τ : Type}

/-- The number of tasks waiting. -/
def size (q : Queue τ) : Nat := q.waiting.length

/-- The number of tasks running: one or none. -/
def pending (q : Queue τ) : Nat := if q.running.isSome then 1 else 0

/-- Grants the slot to the first waiting task if it is free. -/
def dispatch (q : Queue τ) : Queue τ × List Signal :=
  match q.running, q.waiting with
  | none, t :: rest => ({ waiting := rest, running := some t }, [.started rest.length])
  | _, _ => (q, [])

/-- A task joins at the back, and is granted the slot at once if it is free. -/
def enqueue (q : Queue τ) (t : τ) : Queue τ × List Signal :=
  let joined := { q with waiting := q.waiting ++ [t] }
  let (q', signals) := dispatch joined
  (q', .enqueued joined.waiting.length :: signals)

/-- A waiting task is withdrawn; none when it is not waiting, because it has been granted the
slot already. -/
def abandon [DecidableEq τ] (q : Queue τ) (t : τ) : Option (Queue τ × List Signal) :=
  if t ∈ q.waiting then
    let rest := q.waiting.erase t
    some ({ q with waiting := rest }, [.cancelled rest.length])
  else none

/-- The slot is given up and passes to the next waiting task. -/
def free (q : Queue τ) : Queue τ × List Signal := dispatch { q with running := none }

/-- The running task ended as `e`: the observer is told, and then the slot is freed. -/
def release (q : Queue τ) (e : TaskEnd) : Queue τ × List Signal :=
  let (q', signals) := q.free
  (q', .finished e.error :: signals)

end Queue

end TurnRelay.Admission
