import Mathlib
import TurnRelay.Admission.Gate

/-!
# A client's count is its requests in flight

Each client's count of slots, kept in memory, is a map from clients to counts: a client has at
most one count, and a count is between one and the limit, since a client whose count would drop
to zero is forgotten. Whatever the interleaving of requests through admission control (`Gate`),
a client's count is the number of its requests that were admitted and whose handlers have not
ended, which is also its admitted requests less the slots it gave back. Every admitted request
gives its slot back exactly once, when its handler ends, however it ends; a request turned away
gives nothing back. A request is admitted exactly when fewer than the limit of its client's
requests are in flight, and is told how many slots are left after it.

The map's laws are `Slots.pending_set` and `Slots.pending_forget`. The invariant has two parts,
each kept by both moves: the slots against the requests in flight (`Gate.Counted`), and the
record of requests and slot operations (`Gate.Recorded`).
-/

namespace TurnRelay.Admission

/-! ## The slots as a map -/

namespace Slots

variable (s : Slots) (c c' : String)

/-- The clients the slots keep a count for. -/
def clients : List String := s.counts.map (·.1)

/-- A client's count is that of its first entry, zero without one. -/
theorem pending_eq : s.pending c = ((s.counts.find? (·.1 == c)).map (·.2)).getD 0 := by
  unfold pending
  split <;> rename_i hf <;> rw [hf] <;> rfl

/-- Setting a client's count changes that count alone. -/
theorem pending_set (n : Int) :
    (s.set c n).pending c' = if c' = c then n else s.pending c' := by
  rw [pending_eq, pending_eq]
  unfold set
  by_cases hany : s.counts.any (·.1 == c) = true
  · -- the count is replaced where it stands: keys do not move
    have hkeys : ((fun x : String × Int => x.1 == c') ∘
        fun (k, m) => if k == c then (k, n) else (k, m)) = (·.1 == c') := by
      funext ⟨k, m⟩
      by_cases hk : k = c <;> simp [hk]
    rw [if_pos hany, List.find?_map, hkeys]
    cases hf : s.counts.find? (·.1 == c') with
    | none =>
      by_cases hcc : c' = c
      · subst hcc
        obtain ⟨x, hx, hxc⟩ := List.any_eq_true.1 hany
        exact absurd hf (Option.isSome_iff_ne_none.1 (List.find?_isSome.2 ⟨x, hx, hxc⟩))
      · simp [hcc]
    | some p =>
      have hp : p.1 = c' := by simpa using List.find?_some hf
      by_cases hcc : c' = c <;> simp [hcc, hp]
  · -- the count is added at the end, after every other client
    rw [if_neg hany, List.find?_append]
    cases hf : s.counts.find? (·.1 == c') with
    | none =>
      by_cases hcc : c' = c
      · simp [hcc]
      · simp [hcc, Ne.symm hcc]
    | some p =>
      have hp : p.1 = c' := by simpa using List.find?_some hf
      have hcc : c' ≠ c := fun hcc => hany (List.any_eq_true.2
        ⟨p, List.mem_of_find?_eq_some hf, by simp [hp, hcc]⟩)
      simp [hcc]

/-- Forgetting a client drops its count to zero and leaves the others. -/
theorem pending_forget :
    (s.forget c).pending c' = if c' = c then 0 else s.pending c' := by
  rw [pending_eq, pending_eq]
  unfold forget
  rw [List.find?_filter]
  by_cases hcc : c' = c
  · subst hcc
    have hnone : s.counts.find? (fun x => decide ((x.1 != c') = true ∧ (x.1 == c') = true)) =
        none := List.find?_eq_none.2 fun x _ => by by_cases hx : x.1 = c' <;> simp [hx]
    rw [hnone]
    simp
  · have hsame : (fun x : String × Int => decide ((x.1 != c) = true ∧ (x.1 == c') = true)) =
        (·.1 == c') := by
      funext ⟨k, m⟩
      by_cases hk : k = c' <;> simp [hk, hcc]
    rw [hsame]
    simp [hcc]

/-- A client with a count has it in the map. -/
theorem mem_of_pending_ne_zero (h : s.pending c ≠ 0) : (c, s.pending c) ∈ s.counts := by
  rw [pending_eq] at h ⊢
  cases hf : s.counts.find? (·.1 == c) with
  | none => simp [hf] at h
  | some p =>
    have hp : p.1 = c := by simpa using List.find?_some hf
    obtain ⟨k, m⟩ := p
    simp only at hp
    subst hp
    simpa [hf] using List.mem_of_find?_eq_some hf

theorem mem_set {n : Int} {p : String × Int} (hp : p ∈ (s.set c n).counts) :
    p = (c, n) ∨ p ∈ s.counts := by
  unfold set at hp
  split at hp
  · obtain ⟨⟨k, m⟩, hmem, rfl⟩ := List.mem_map.1 hp
    by_cases hk : k = c
    · simp [hk]
    · simpa [hk] using hmem
  · rcases List.mem_append.1 hp with hp | hp
    · exact .inr hp
    · exact .inl (List.mem_singleton.1 hp)

theorem mem_forget {p : String × Int} (hp : p ∈ (s.forget c).counts) : p ∈ s.counts :=
  (List.mem_filter.1 hp).1

theorem clients_set (hs : s.clients.Nodup) (n : Int) : (s.set c n).clients.Nodup := by
  unfold set clients at *
  split
  · rw [List.map_map]
    convert hs using 2
    funext ⟨k, m⟩
    by_cases hk : k = c <;> simp [hk]
  · rename_i hany
    rw [List.map_append, List.nodup_append]
    refine ⟨hs, by simp, ?_⟩
    intro k hk k' hk'
    obtain ⟨p, hp, rfl⟩ := List.mem_map.1 hk
    simp only [List.map_cons, List.map_nil, List.mem_singleton] at hk'
    subst hk'
    exact fun hpc => hany (List.any_eq_true.2 ⟨p, hp, by simp [hpc]⟩)

theorem clients_forget (hs : s.clients.Nodup) : (s.forget c).clients.Nodup :=
  hs.sublist ((List.filter_sublist).map _)

/-- Asking for a slot admits exactly when the count is below the limit, and the decision carries
the count after the call. -/
theorem acquire_spec (limit : Int) :
    ((s.acquire c limit).1.admitted ↔ s.pending c < limit) ∧
      (s.acquire c limit).1.pending = (s.acquire c limit).2.pending c := by
  unfold acquire
  by_cases h : s.pending c ≥ limit
  · simp [h]
  · simp [h, pending_set]
    omega

theorem release_of_gt (h : 1 < s.pending c) : s.release c = s.set c (s.pending c - 1) := if_pos h

theorem release_of_le (h : ¬1 < s.pending c) : s.release c = s.forget c := if_neg h

theorem clients_release (hs : s.clients.Nodup) : (s.release c).clients.Nodup := by
  by_cases h : 1 < s.pending c
  · rw [s.release_of_gt c h]
    exact s.clients_set c hs _
  · rw [s.release_of_le c h]
    exact s.clients_forget c hs

/-- What the counts hold after a slot is given back: the client's count lowered by one, when it
had more than one, and the counts there were. -/
theorem mem_release {p : String × Int} (hp : p ∈ (s.release c).counts) :
    p = (c, s.pending c - 1) ∧ 1 < s.pending c ∨ p ∈ s.counts := by
  by_cases h : 1 < s.pending c
  · rw [s.release_of_gt c h] at hp
    rcases s.mem_set c hp with rfl | hp
    · exact .inl ⟨rfl, h⟩
    · exact .inr hp
  · rw [s.release_of_le c h] at hp
    exact .inr (s.mem_forget c hp)

/-- Giving a slot back lowers the count by one, never below zero, and leaves the others. -/
theorem pending_release :
    (s.release c).pending c' = if c' = c then max (s.pending c - 1) 0 else s.pending c' := by
  by_cases h : 1 < s.pending c
  · rw [s.release_of_gt c h, pending_set]
    split <;> omega
  · rw [s.release_of_le c h, pending_forget]
    split <;> omega

end Slots

/-! ## Requests through the gate -/

/-- Whether an operation gives a slot back. -/
def SlotCall.isRelease : SlotCall → Bool
  | .release _ => true
  | .acquire _ => false

namespace Gate

variable (g : Gate) (c : String)

/-- The requests from `c` whose handlers run: admitted, and not yet done. -/
def handling : Nat := g.entries.countP fun e => e.client = c ∧ e.pass = .handling

/-- The requests from `c` that were admitted. -/
def admitted : Nat := g.entries.countP fun e => e.client = c ∧ e.decision.admitted

/-- The slots requests from `c` gave back. -/
def released : Nat := g.calls.countP fun call => call.2 = .release c

/-- The slots request `i` gave back. -/
def releasesBy (i : Nat) : Nat := g.calls.countP fun call => call.1 = i ∧ call.2.isRelease

/-! ### The counts across the two moves -/

section Arrived

variable {g} {c} (c' : String) (d : Decision) (limit : Int) (slots : Slots)

theorem handling_arrived :
    (g.arrived c d limit slots).handling c' = g.handling c' + if c = c' ∧ d.admitted then 1 else 0 := by
  simp only [handling, arrived, List.countP_append]
  obtain ⟨yes, pending⟩ := d
  cases yes <;> by_cases hcc : c = c' <;> simp [hcc]

theorem admitted_arrived :
    (g.arrived c d limit slots).admitted c' = g.admitted c' + if c = c' ∧ d.admitted then 1 else 0 := by
  simp only [admitted, arrived, List.countP_append]
  obtain ⟨yes, pending⟩ := d
  cases yes <;> by_cases hcc : c = c' <;> simp [hcc]

theorem released_arrived : (g.arrived c d limit slots).released c' = g.released c' := by
  simp [released, arrived, List.countP_append]

theorem releasesBy_arrived (i : Nat) :
    (g.arrived c d limit slots).releasesBy i = g.releasesBy i := by
  simp [releasesBy, arrived, List.countP_append, SlotCall.isRelease]

end Arrived

section Left

variable {g} (c' : String) {i : Nat} {e : Entry} (how : Exit)

theorem handling_left (he : g.entries[i]? = some e) (hpass : e.pass = .handling) :
    (g.left i e how).handling c' = g.handling c' - if e.client = c' then 1 else 0 := by
  have ⟨hi, hget⟩ := List.getElem?_eq_some_iff.1 he
  simp only [handling, left]
  rw [List.countP_set hi, hget]
  by_cases hcc : e.client = c' <;> simp [hcc, hpass]

theorem admitted_left (he : g.entries[i]? = some e) :
    (g.left i e how).admitted c' = g.admitted c' := by
  have ⟨hi, hget⟩ := List.getElem?_eq_some_iff.1 he
  simp only [admitted, left]
  rw [List.countP_set hi, hget]
  -- the request keeps its client and its decision
  have hpos : e.client = c' ∧ e.decision.admitted = true →
      0 < g.entries.countP fun e => decide (e.client = c' ∧ e.decision.admitted = true) :=
    fun h => List.countP_pos_iff.2 ⟨e, List.mem_of_getElem? he, by simpa using h⟩
  by_cases hcc : e.client = c' ∧ e.decision.admitted = true
  · simp only [hcc, and_self, decide_true, if_true]
    have := hpos hcc
    omega
  · simp [hcc]

theorem released_left :
    (g.left i e how).released c' = g.released c' + if e.client = c' then 1 else 0 := by
  by_cases hcc : e.client = c' <;> simp [released, left, List.countP_append, hcc]

theorem releasesBy_left (j : Nat) :
    (g.left i e how).releasesBy j = g.releasesBy j + if i = j then 1 else 0 := by
  by_cases hij : i = j <;> simp [releasesBy, left, List.countP_append, hij, SlotCall.isRelease]

end Left

variable {g c} {g' : Gate} {limit : Int}

theorem step_arrive :
    g.step limit (.arrive c) =
      some (g.arrived c (g.slots.acquire c limit).1 limit (g.slots.acquire c limit).2) := rfl

theorem step_leave {i : Nat} {how : Exit} (h : g.step limit (.leave i how) = some g') :
    ∃ e, g.entries[i]? = some e ∧ e.pass = .handling ∧ g' = g.left i e how := by
  simp only [step] at h
  split at h
  · rename_i e he
    split at h
    · exact ⟨e, he, ‹_›, (Option.some.inj h).symm⟩
    · cases h
  · cases h

/-! ### The slots against the requests in flight -/

/-- The slots are a map from clients to counts between one and the limit, and each client's
count is its requests in flight. -/
structure Counted (limit : Int) (g : Gate) : Prop where
  /-- A client has at most one count. -/
  clients : g.slots.clients.Nodup
  /-- Every count is between one and the limit. -/
  bounded : ∀ p ∈ g.slots.counts, 1 ≤ p.2 ∧ p.2 ≤ limit
  /-- A client's count is the number of its requests in flight. -/
  tracks : ∀ c, g.slots.pending c = g.handling c

namespace Counted

theorem initial : Counted limit {} where
  clients := List.nodup_nil
  bounded _ h := by simp at h
  tracks _ := rfl

/-- A request arrives: it takes a slot when its client has fewer than the limit in flight, and
is turned away, changing nothing, otherwise. -/
theorem arrive (hc : Counted limit g) (h : g.step limit (.arrive c) = some g') :
    Counted limit g' := by
  rw [step_arrive, Option.some.injEq] at h
  subst h
  by_cases hin : g.slots.pending c < limit
  · have hd : (g.slots.acquire c limit).1 = ⟨true, g.slots.pending c + 1⟩ := by
      simp [Slots.acquire, not_le.2 hin]
    have hslots : (g.slots.acquire c limit).2 = g.slots.set c (g.slots.pending c + 1) := by
      simp [Slots.acquire, not_le.2 hin]
    have hnonneg : 0 ≤ g.slots.pending c := by rw [hc.tracks c]; omega
    rw [hd, hslots]
    refine ⟨g.slots.clients_set c hc.clients _, fun p hp => ?_, fun c' => ?_⟩
    · rcases Slots.mem_set _ _ hp with rfl | hp
      · exact ⟨by omega, by omega⟩
      · exact hc.bounded p hp
    · -- the new request is one more in flight for `c`
      rw [handling_arrived, arrived, Slots.pending_set, hc.tracks]
      by_cases hcc : c' = c
      · simp [hcc]
      · simp [hcc, Ne.symm hcc, hc.tracks c']
  · have hd : (g.slots.acquire c limit).1 = ⟨false, g.slots.pending c⟩ := by
      simp [Slots.acquire, not_lt.1 hin]
    have hslots : (g.slots.acquire c limit).2 = g.slots := by
      simp [Slots.acquire, not_lt.1 hin]
    rw [hd, hslots]
    refine ⟨hc.clients, hc.bounded, fun c' => ?_⟩
    rw [handling_arrived]
    simp [arrived, hc.tracks c']

/-- The handler of a request in flight ends: its client's count goes down by one, and the client
is forgotten once it has none left. -/
theorem leave {i : Nat} {how : Exit} (hc : Counted limit g)
    (h : g.step limit (.leave i how) = some g') : Counted limit g' := by
  obtain ⟨e, he, hpass, rfl⟩ := step_leave h
  -- the request was in flight, so its client's count is at least one
  have hpos : 0 < g.handling e.client :=
    List.countP_pos_iff.2 ⟨e, List.mem_of_getElem? he, by simp [hpass]⟩
  have hcount := hc.tracks e.client
  refine ⟨g.slots.clients_release e.client hc.clients, fun p hp => ?_, fun c' => ?_⟩
  · rcases g.slots.mem_release e.client hp with ⟨rfl, hgt⟩ | hp
    · -- the count left is below the count there was, which was within the limit
      have := hc.bounded _ (g.slots.mem_of_pending_ne_zero e.client (by omega))
      exact ⟨by simp only; omega, by simp only; omega⟩
    · exact hc.bounded p hp
  · rw [handling_left c' how he hpass, left, Slots.pending_release]
    by_cases hcc : c' = e.client
    · subst hcc
      simp only [if_true]
      omega
    · simp [hcc, Ne.symm hcc, hc.tracks c']

end Counted

/-! ### The record of requests and slot operations -/

/-- The record of requests and slot operations hangs together. -/
structure Recorded (g : Gate) : Prop where
  /-- A request is turned away exactly when the decision on it was no. -/
  decided : ∀ e ∈ g.entries, e.pass = .rejected ↔ e.decision.admitted = false
  /-- A client's admitted requests are those in flight and those that gave their slot back. -/
  accounts : ∀ c, g.admitted c = g.handling c + g.released c
  /-- A request gave its slot back once if its handler ended, and never otherwise. -/
  once : ∀ i e, g.entries[i]? = some e →
    g.releasesBy i = if e.pass = .rejected ∨ e.pass = .handling then 0 else 1
  /-- Every operation was made by a request that came through. -/
  known : ∀ call ∈ g.calls, call.1 < g.entries.length

namespace Recorded

theorem initial : Recorded {} where
  decided _ h := by simp at h
  accounts _ := rfl
  once _ _ h := by simp at h
  known _ h := by simp at h

/-- A request arrives, whatever the decision on it: it is in flight exactly when admitted, and
has given nothing back. -/
theorem arrive (hr : Recorded g) (h : g.step limit (.arrive c) = some g') : Recorded g' := by
  rw [step_arrive, Option.some.injEq] at h
  subst h
  generalize (g.slots.acquire c limit).1 = d
  generalize (g.slots.acquire c limit).2 = slots
  refine ⟨fun e he => ?_, fun c' => ?_, fun i e he => ?_, fun call hcall => ?_⟩
  · rcases List.mem_append.1 he with he | he
    · exact hr.decided e he
    · rw [List.mem_singleton.1 he]
      cases d.admitted <;> simp
  · rw [admitted_arrived, handling_arrived, released_arrived, hr.accounts]
    omega
  · rw [releasesBy_arrived]
    rw [arrived, List.getElem?_append] at he
    split at he
    · exact hr.once i e he
    · simp only [List.getElem?_singleton, Option.ite_none_right_eq_some, Option.some.injEq] at he
      obtain ⟨hi, rfl⟩ := he
      -- no operation was made by a request that had not come yet
      have hnone : g.releasesBy i = 0 :=
        List.countP_eq_zero.2 fun call hc => by
          have := hr.known call hc
          simp only [decide_eq_true_eq, not_and]
          omega
      rw [hnone]
      cases d.admitted <;> simp
  · rcases List.mem_append.1 hcall with hcall | hcall
    · have := hr.known call hcall
      simp only [arrived, List.length_append, List.length_singleton]
      omega
    · simp only [List.mem_singleton] at hcall
      simp [hcall, arrived]

/-- The handler of a request in flight ends: the request gives its slot back, once. -/
theorem leave {i : Nat} {how : Exit} (hr : Recorded g)
    (h : g.step limit (.leave i how) = some g') : Recorded g' := by
  obtain ⟨e, he, hpass, rfl⟩ := step_leave h
  have hi : i < g.entries.length := (List.getElem?_eq_some_iff.1 he).1
  -- a request in flight was admitted
  have hadm : e.decision.admitted = true := by
    have := hr.decided e (List.mem_of_getElem? he)
    simp only [hpass, reduceCtorEq, false_iff] at this
    simpa using this
  have hpos : 0 < g.handling e.client :=
    List.countP_pos_iff.2 ⟨e, List.mem_of_getElem? he, by simp [hpass]⟩
  refine ⟨fun e' he' => ?_, fun c' => ?_, fun j e' he' => ?_, fun call hcall => ?_⟩
  · rcases List.mem_or_eq_of_mem_set he' with he' | rfl
    · exact hr.decided e' he'
    · simp [hadm]
  · rw [admitted_left c' how he, handling_left c' how he hpass, released_left, hr.accounts]
    by_cases hcc : e.client = c'
    · subst hcc
      simp only [if_true]
      omega
    · simp [hcc]
  · rw [releasesBy_left]
    rw [left, List.getElem?_set] at he'
    by_cases hij : i = j
    · subst hij
      simp only [hi, if_true, Option.some.injEq] at he'
      subst he'
      simp [hr.once i e he, hpass]
    · simp only [hij, if_false] at he'
      simp [hr.once j e' he', hij]
  · rcases List.mem_append.1 hcall with hcall | hcall
    · simpa [left] using hr.known call hcall
    · simp only [List.mem_singleton] at hcall
      simp [hcall, hi, left]

end Recorded

/-- What every reachable state satisfies under `limit`. -/
structure Sound (limit : Int) (g : Gate) : Prop where
  counted : Counted limit g
  recorded : Recorded g

theorem Sound.step (hs : Sound limit g) {m : Move} (h : g.step limit m = some g') :
    Sound limit g' := by
  cases m with
  | arrive c => exact ⟨hs.counted.arrive h, hs.recorded.arrive h⟩
  | leave i how => exact ⟨hs.counted.leave h, hs.recorded.leave h⟩

theorem Sound.steps (hs : Sound limit g) {moves : List Move} (h : g.steps limit moves = some g') :
    Sound limit g' := by
  induction moves generalizing g with
  | nil =>
    simp only [Gate.steps, Option.some.injEq] at h
    exact h ▸ hs
  | cons m rest ih =>
    simp only [Gate.steps, Option.bind_eq_some_iff] at h
    obtain ⟨g₁, h₁, h₂⟩ := h
    exact ih (hs.step h₁) h₂

/-- Under a limit of at least zero, a client never has more requests in flight than the limit. -/
theorem Counted.handling_le (hc : Counted limit g) (hL : 0 ≤ limit) (c : String) :
    (g.handling c : Int) ≤ limit := by
  rw [← hc.tracks c]
  by_cases h0 : g.slots.pending c = 0
  · rw [h0]
    exact hL
  · exact (hc.bounded _ (g.slots.mem_of_pending_ne_zero c h0)).2

end Gate

/-! ## Admission control over every interleaving -/

/-- Requests through admission control under a limit of at least zero, over every interleaving
of arrivals and ends of handlers: the counts are a map from clients to counts between one and the
limit; a client's count is its admitted requests less the slots it gave back, which is the number
of its requests in flight, never more than the limit; a request turned away was decided no and
gave nothing back, and an admitted one gave its slot back exactly once if its handler ended,
returned or aborted, and not yet otherwise; the next request from any client is admitted exactly
when fewer than the limit of its client's requests are in flight, and both its decision and the
slots it is told are left count the requests in flight after it. Whatever the slots hold, asking
for a slot admits exactly when the count is below the limit and carries the count after the call,
and giving a slot back, matched or not, never makes a count negative. -/
theorem slot_counts_track_requests_in_flight (limit : Int) (hL : 0 ≤ limit)
    (moves : List Gate.Move) (g : Gate) (h : ({} : Gate).steps limit moves = some g) :
    g.slots.clients.Nodup ∧ (∀ p ∈ g.slots.counts, 1 ≤ p.2 ∧ p.2 ≤ limit) ∧
    (∀ c, g.slots.pending c = (g.admitted c : Int) - g.released c ∧
      g.slots.pending c = g.handling c ∧ (g.handling c : Int) ≤ limit) ∧
    (∀ i e, g.entries[i]? = some e →
      (e.pass = .rejected ↔ e.decision.admitted = false) ∧
      g.releasesBy i = if e.pass = .rejected ∨ e.pass = .handling then 0 else 1) ∧
    (∀ c, ∃ g' e, g.step limit (.arrive c) = some g' ∧ g'.entries = g.entries ++ [e] ∧
      e.client = c ∧ (e.decision.admitted ↔ (g.handling c : Int) < limit) ∧
      e.decision.pending = (g'.handling c : Int) ∧ e.remaining = max (limit - g'.handling c) 0) ∧
    (∀ (s : Slots) (c : String), ((s.acquire c limit).1.admitted ↔ s.pending c < limit) ∧
      (s.acquire c limit).1.pending = (s.acquire c limit).2.pending c) ∧
    (∀ (s : Slots) (c c' : String), 0 ≤ s.pending c' → 0 ≤ (s.release c).pending c') := by
  have ⟨hc, hr⟩ := Gate.Sound.steps ⟨Gate.Counted.initial, Gate.Recorded.initial⟩ h
  refine ⟨hc.clients, hc.bounded, fun c => ⟨?_, hc.tracks c, hc.handling_le hL c⟩,
    fun i e he => ⟨hr.decided e (List.mem_of_getElem? he), hr.once i e he⟩, fun c => ?_,
    fun s c => s.acquire_spec c limit, fun s c c' h0 => ?_⟩
  · rw [hc.tracks, hr.accounts]
    push_cast
    ring
  · -- the next request: its decision is read off the slots, which count the requests in flight
    have hstep : g.step limit (.arrive c) =
        some (g.arrived c (g.slots.acquire c limit).1 limit (g.slots.acquire c limit).2) :=
      Gate.step_arrive
    have hc' := hc.arrive hstep
    have ⟨hadm, hpend⟩ := g.slots.acquire_spec c limit
    refine ⟨_, _, hstep, rfl, rfl, ?_, ?_, ?_⟩
    · rw [hadm, hc.tracks]
    · rw [hpend, ← hc'.tracks]
      rfl
    · simp only [Decision.remaining, hpend, ← hc'.tracks]
      rfl
  · rw [Slots.pending_release]
    split <;> omega

/-- Three clients' requests under a limit of one: the first from `a` is admitted and returns;
the second from `a`, while the first is in flight, is turned away; the one from `b` is admitted
and aborts; a third from `a` is admitted once the first has left. -/
def admissionMoves : List Gate.Move :=
  [.arrive "a", .arrive "a", .arrive "b", .leave 0 .returned, .arrive "a", .leave 2 .aborted]

theorem one_slot_each_counts_requests_in_flight :
    let g := (({} : Gate).steps 1 admissionMoves).getD {}
    (0 : Int) ≤ 1 ∧ ({} : Gate).steps 1 admissionMoves = some g ∧
    (g.slots.clients.Nodup ∧ (∀ p ∈ g.slots.counts, 1 ≤ p.2 ∧ p.2 ≤ 1) ∧
      (∀ c, g.slots.pending c = (g.admitted c : Int) - g.released c ∧
        g.slots.pending c = g.handling c ∧ (g.handling c : Int) ≤ 1) ∧
      (∀ i e, g.entries[i]? = some e →
        (e.pass = .rejected ↔ e.decision.admitted = false) ∧
        g.releasesBy i = if e.pass = .rejected ∨ e.pass = .handling then 0 else 1) ∧
      (∀ c, ∃ g' e, g.step 1 (.arrive c) = some g' ∧ g'.entries = g.entries ++ [e] ∧
        e.client = c ∧ (e.decision.admitted ↔ (g.handling c : Int) < 1) ∧
        e.decision.pending = (g'.handling c : Int) ∧ e.remaining = max ((1 : Int) - g'.handling c) 0) ∧
      (∀ (s : Slots) (c : String), ((s.acquire c 1).1.admitted ↔ s.pending c < 1) ∧
        (s.acquire c 1).1.pending = (s.acquire c 1).2.pending c) ∧
      (∀ (s : Slots) (c c' : String), 0 ≤ s.pending c' → 0 ≤ (s.release c).pending c')) :=
  ⟨by decide, rfl, slot_counts_track_requests_in_flight 1 (by decide) admissionMoves _ rfl⟩

end TurnRelay.Admission
