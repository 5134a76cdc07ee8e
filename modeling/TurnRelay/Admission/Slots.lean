/-!
# Per-client slots

A client may have only so many requests queued or running at once. Each client has a count of
its outstanding requests; a request is admitted when the count is below the limit, and its slot
is given back when it leaves. A count never goes below zero and a client whose count returns to
zero is forgotten.

## Main definitions

* `Slots`, `Slots.acquire`, `Slots.release`, `Slots.pending`.
* `Decision.remaining`: the slots a request is told its client has left.
-/

namespace TurnRelay.Admission

/-- The outstanding-request counts of the clients that have any. -/
structure Slots where
  counts : List (String × Int) := []
  deriving Inhabited

/-- The outcome of asking for a slot: whether it was granted, and the client's count after. -/
structure Decision where
  admitted : Bool
  pending : Int
  deriving Inhabited, DecidableEq

/-- How many slots a client has left after a decision, as its request is told; never below
zero. -/
def Decision.remaining (d : Decision) (limit : Int) : Int := max (limit - d.pending) 0

namespace Slots

/-- A client's count. -/
def pending (s : Slots) (client : String) : Int :=
  match s.counts.find? (·.1 == client) with
  | some (_, n) => n
  | none => 0

/-- The counts with `client`'s set to `n`. -/
def set (s : Slots) (client : String) (n : Int) : Slots :=
  if s.counts.any (·.1 == client) then
    ⟨s.counts.map fun (c, m) => if c == client then (c, n) else (c, m)⟩
  else ⟨s.counts ++ [(client, n)]⟩

/-- The counts without `client`. -/
def forget (s : Slots) (client : String) : Slots := ⟨s.counts.filter (·.1 != client)⟩

/-- Asks for a slot for `client` under `limit`. -/
def acquire (s : Slots) (client : String) (limit : Int) : Decision × Slots :=
  let n := s.pending client
  if n ≥ limit then (⟨false, n⟩, s) else (⟨true, n + 1⟩, s.set client (n + 1))

/-- Gives a slot of `client` back. -/
def release (s : Slots) (client : String) : Slots :=
  let n := s.pending client
  if n > 1 then s.set client (n - 1) else s.forget client

end Slots

end TurnRelay.Admission
