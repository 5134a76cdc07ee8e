import TurnRelay.Admission.Slots

/-!
# Requests through admission control

Admission control stands before the message routes. A request first asks for one of its client's
slots, and is told the limit and how many slots its client has left. A request turned away is
answered at once and holds nothing. An admitted request is handled, and gives its slot back once
its handler is done, whether the handler returned or aborted, and whether or not its client is
still there.

Many requests are handled at once, and each slot operation is atomic. `Gate` is the slots with
every request that came through, and `Gate.step` takes one step: a request arrives and asks for a
slot, or the handler of an admitted request ends and its slot is given back. The operations made
on the slots are recorded, each with the request that made it.

## Main definitions

* `Exit`, `Pass`, `Entry`, `SlotCall`, `Gate`, `Gate.Move`.
* `Gate.arrived`, `Gate.left`: what the two moves do to the record.
* `Gate.step`, `Gate.steps`.
-/

namespace TurnRelay.Admission

/-- How the handler of an admitted request ended. -/
inductive Exit where
  | returned
  | aborted
  deriving DecidableEq

/-- Where a request is. -/
inductive Pass where
  /-- Turned away, holding nothing. -/
  | rejected
  /-- Admitted; its handler runs. -/
  | handling
  /-- Admitted, and its handler ended as `how`. -/
  | done (how : Exit)
  deriving DecidableEq

/-- A request that came through: its client, the decision on it, the slots it was told its
client has left, and where it is. -/
structure Entry where
  client : String
  decision : Decision
  remaining : Int
  pass : Pass

/-- An operation on the slots. -/
inductive SlotCall where
  | acquire (client : String)
  | release (client : String)
  deriving DecidableEq

/-- The slots with every request that came through, in order of arrival. -/
structure Gate where
  slots : Slots := {}
  entries : List Entry := []
  /-- The operations made on the slots, in order, each with the number of the request that made
  it. -/
  calls : List (Nat × SlotCall) := []

/-- One atomic step. -/
inductive Gate.Move where
  /-- A request from `client` arrives and asks for a slot. -/
  | arrive (client : String)
  /-- The handler of request `i` ends as `how`, and the request's slot is given back. -/
  | leave (i : Nat) (how : Exit)

namespace Gate

/-- The gate once a request from `client` was decided `d` under `limit`, the slots left as
`slots`: the request is in flight when admitted, turned away otherwise. -/
def arrived (g : Gate) (client : String) (d : Decision) (limit : Int) (slots : Slots) : Gate :=
  ⟨slots, g.entries ++ [⟨client, d, d.remaining limit, if d.admitted then .handling else .rejected⟩],
    g.calls ++ [(g.entries.length, .acquire client)]⟩

/-- The gate once the handler of request `i`, entered as `e`, ended as `how`, and the request's
slot was given back. -/
def left (g : Gate) (i : Nat) (e : Entry) (how : Exit) : Gate :=
  ⟨g.slots.release e.client, g.entries.set i { e with pass := .done how },
    g.calls ++ [(i, .release e.client)]⟩

/-- Takes one step under `limit`; none when it cannot be taken. -/
def step (limit : Int) (g : Gate) : Move → Option Gate
  | .arrive client =>
    let (d, slots) := g.slots.acquire client limit
    some (g.arrived client d limit slots)
  | .leave i how =>
    match g.entries[i]? with
    -- only an admitted request whose handler runs gives a slot back
    | some e => if e.pass = .handling then some (g.left i e how) else none
    | none => none

/-- Takes the steps in order; none when one of them cannot be taken. -/
def steps (limit : Int) (g : Gate) : List Move → Option Gate
  | [] => some g
  | m :: rest => (g.step limit m).bind fun g' => g'.steps limit rest

end Gate

end TurnRelay.Admission
