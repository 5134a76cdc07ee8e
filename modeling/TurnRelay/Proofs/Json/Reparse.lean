import Mathlib
import TurnRelay.Proofs.Json.Lexemes

/-!
# Every part of a document reads alone

The reader hands back a tree with a span for every value. This module shows that the bytes of
any value in that tree, parsed on their own, give the same tree with its spans moved to the
start of the slice (`Node.shift`), and that each value lies inside its parent's bytes.

## Main results

* `bounds_of_fuel`: a value ends after it starts, inside the source, where its span ends.
* `parse_extract_of_value`: a value read at `i` up to `j` reads alone from `bs.extract i j`.
* `parse_readsAlone`: every value of an accepted document, at any depth, reads alone
  (`Node.ReadsAlone`).
* `Node.raw_shift`: a value moved with its slice keeps the bytes it had in the document.

The reading lemmas are one induction on the reader's fuel over values, elements and members
(`reads_of_fuel`); the fuel a slice's own parse gets, twice its length and a little more, is
always enough.
-/

namespace TurnRelay.Json

variable {bs : ByteArray} {a e : ℕ}

/-! ## Values -/

/-- A value the reader accepts ends after it starts, inside the source, where its span ends; so
do the arrays and objects that the elements and members it reads close. -/
theorem bounds_of_fuel (fuel : ℕ) :
    (∀ {depth i n j}, value bs fuel depth i = .ok (n, j) →
      i < j ∧ j ≤ bs.size ∧ n.span.stop = j) ∧
    (∀ {depth start i acc n k}, elements bs fuel depth start i acc = .ok (n, k) →
      i < k ∧ k ≤ bs.size ∧ n.span.stop = k) ∧
    (∀ {depth start i acc n k}, members bs fuel depth start i acc = .ok (n, k) →
      i < k ∧ k ≤ bs.size ∧ n.span.stop = k) := by
  induction fuel with
  | zero =>
    refine ⟨fun h => ?_, fun h => ?_, fun h => ?_⟩ <;> simp [value, elements, members] at h
  | succ fuel ih =>
    obtain ⟨ihv, ihe, ihm⟩ := ih
    refine ⟨@fun depth i n j h => ?_, @fun depth start i acc n k h => ?_,
      @fun depth start i acc n k h => ?_⟩
    · obtain ⟨hi, hread⟩ := value_succ_eq_ok.1 h
      have hinner := le_skipSpace bs (i + 1)
      cases hread with
      | emptyObject _ _ hs => exact ⟨by omega, by omega, rfl⟩
      | object _ _ _ _ hm =>
        obtain ⟨h1, h2, h3⟩ := ihm hm
        exact ⟨by omega, h2, h3⟩
      | emptyArray _ _ hs => exact ⟨by omega, by omega, rfl⟩
      | array _ _ _ _ he =>
        obtain ⟨h1, h2, h3⟩ := ihe he
        exact ⟨by omega, h2, h3⟩
      | string _ hs =>
        have := stringBody_bounds hs
        exact ⟨by omega, by omega, rfl⟩
      | trueWord _ hl | falseWord _ hl | nullWord _ hl =>
        obtain ⟨h1, h2⟩ := literal_bounds hl (by decide)
        exact ⟨h1, h2, rfl⟩
      | number _ hl =>
        obtain ⟨h1, h2⟩ := number_bounds hl
        exact ⟨h1, h2, rfl⟩
    · cases elements_succ_eq_ok.1 h with
      | @more v j _ _ hv _ _ hrest =>
        have := (ihv hv).1
        have := le_skipSpace bs j
        have := le_skipSpace bs (skipSpace bs j + 1)
        obtain ⟨h1, h2, h3⟩ := ihe hrest
        exact ⟨by omega, h2, h3⟩
      | @last v j hv hs _ =>
        have := (ihv hv).1
        have := le_skipSpace bs j
        exact ⟨by omega, by omega, rfl⟩
    · cases members_succ_eq_ok.1 h with
      | @more name j v kv _ _ _ _ hname _ _ hv _ _ hrest =>
        have := (stringBody_bounds hname).1
        have := (ihv hv).1
        have := le_skipSpace bs j
        have := le_skipSpace bs (skipSpace bs j + 1)
        have := le_skipSpace bs kv
        have := le_skipSpace bs (skipSpace bs kv + 1)
        obtain ⟨h1, h2, h3⟩ := ihm hrest
        exact ⟨by omega, h2, h3⟩
      | @last name j v kv _ _ hname _ _ hv hs _ =>
        have := (stringBody_bounds hname).1
        have := (ihv hv).1
        have := le_skipSpace bs j
        have := le_skipSpace bs (skipSpace bs j + 1)
        have := le_skipSpace bs kv
        exact ⟨by omega, by omega, rfl⟩

/-! ## Values read from a slice -/

/-- A span moved `o` bytes towards the start. -/
def Span.shift (o : ℕ) (s : Span) : Span := ⟨s.start - o, s.stop - o⟩

/-- A tree with every span moved `o` bytes towards the start: the tree the same value has in a
slice that starts `o` bytes into the document. -/
def Node.shift (o : ℕ) : Node → Node
  | .null s => .null (s.shift o)
  | .bool s b => .bool (s.shift o) b
  | .number s => .number (s.shift o)
  | .string s t => .string (s.shift o) t
  | .array s items => .array (s.shift o) (items.map (·.shift o))
  | .object s ms => .object (s.shift o) (ms.map fun m => (m.1, m.2.shift o))
decreasing_by
  · have := List.sizeOf_lt_of_mem ‹_›
    simp only [Node.array.sizeOf_spec]
    omega
  · have hm := List.sizeOf_lt_of_mem ‹_›
    have hsnd : sizeOf m.snd < sizeOf m := by
      obtain ⟨k, v⟩ := m
      simp only [Prod.mk.sizeOf_spec]
      omega
    simp only [Node.object.sizeOf_spec]
    omega

@[simp] theorem Node.shift_null (o : ℕ) (s : Span) : (Node.null s).shift o = .null (s.shift o) := by
  rw [Node.shift]

@[simp] theorem Node.shift_bool (o : ℕ) (s : Span) (b : Bool) :
    (Node.bool s b).shift o = .bool (s.shift o) b := by
  rw [Node.shift]

@[simp] theorem Node.shift_number (o : ℕ) (s : Span) :
    (Node.number s).shift o = .number (s.shift o) := by
  rw [Node.shift]

@[simp] theorem Node.shift_string (o : ℕ) (s : Span) (t : String) :
    (Node.string s t).shift o = .string (s.shift o) t := by
  rw [Node.shift]

/-- A member with its value's spans moved. -/
def Node.shiftMember (o : ℕ) (m : String × Node) : String × Node := (m.1, m.2.shift o)

theorem Node.shift_array (o : ℕ) (s : Span) (items : List Node) :
    (Node.array s items).shift o = .array (s.shift o) (items.map (·.shift o)) := by
  rw [Node.shift]

theorem Node.shift_object (o : ℕ) (s : Span) (ms : List (String × Node)) :
    (Node.object s ms).shift o = .object (s.shift o) (ms.map (Node.shiftMember o)) := by
  rw [Node.shift]
  rfl

/-- The values directly inside a value: an array's elements, an object's member values. -/
def Node.children : Node → List Node
  | .array _ items => items
  | .object _ ms => ms.map (·.2)
  | _ => []

theorem Node.span_shift (o : ℕ) (n : Node) : (n.shift o).span = n.span.shift o := by
  cases n <;> simp [Node.shift_array, Node.shift_object, Node.span]

theorem Node.kindName_shift (o : ℕ) (n : Node) : (n.shift o).kindName = n.kindName := by
  cases n <;> simp [Node.shift_array, Node.shift_object, Node.kindName]

theorem Node.children_shift (o : ℕ) (n : Node) :
    (n.shift o).children = n.children.map (·.shift o) := by
  cases n <;> simp [Node.shift_array, Node.shift_object, Node.children, Node.shiftMember]

/-- A value moved with its slice has the bytes it had in the document. -/
theorem Node.raw_shift {bs : ByteArray} {n : Node} {o e : ℕ} (ho : o ≤ n.span.start)
    (hn : n.span.start ≤ n.span.stop) (he : n.span.stop ≤ e) :
    (n.shift o).raw (bs.extract o e) = n.raw bs := by
  rw [Node.raw, Node.raw, Node.span_shift, Span.shift, ByteArray.extract_extract,
    show o + (n.span.start - o) = n.span.start by omega,
    show min (o + (n.span.stop - o)) e = n.span.stop by omega]

section Reads

variable (bs : ByteArray) (a e : ℕ)

/-- What the reader does with `fuel` on a value that lies in the slice from `a` to `e`: it reads
the same value from the slice, with any fuel that covers twice the value's length and at any
depth not greater. -/
def ValueReads (fuel : ℕ) : Prop :=
  ∀ {depth depth' i n j fuel'}, value bs fuel depth i = .ok (n, j) → a ≤ i → j ≤ e →
    depth' ≤ depth → 2 * (j - i) ≤ fuel' →
    value (bs.extract a e) fuel' depth' (i - a) = .ok (n.shift a, j - a)

/-- The same for the elements of an array opened at `start`. -/
def ElementsReads (fuel : ℕ) : Prop :=
  ∀ {depth depth' start i acc n k fuel'}, elements bs fuel depth start i acc = .ok (n, k) →
    a ≤ start → a ≤ i → k ≤ e → depth' ≤ depth → 2 * (k - i) ≤ fuel' →
    elements (bs.extract a e) fuel' depth' (start - a) (i - a) (acc.map (·.shift a)) =
      .ok (n.shift a, k - a)

/-- The same for the members of an object opened at `start`. -/
def MembersReads (fuel : ℕ) : Prop :=
  ∀ {depth depth' start i acc n k fuel'}, members bs fuel depth start i acc = .ok (n, k) →
    a ≤ start → a ≤ i → k ≤ e → depth' ≤ depth → 2 * (k - i) ≤ fuel' →
    members (bs.extract a e) fuel' depth' (start - a) (i - a) (acc.map (Node.shiftMember a)) =
      .ok (n.shift a, k - a)

end Reads

/-- White space after a byte at `p` ends in a slice where it ends in the document, when it ends
inside the slice. -/
theorem skipSpace_extract_after (he : e ≤ bs.size) {p : ℕ} (ha : a ≤ p)
    (hk : skipSpace bs (p + 1) < e) :
    skipSpace (bs.extract a e) (p - a + 1) = skipSpace bs (p + 1) - a := by
  rw [show p - a + 1 = p + 1 - a by omega]
  exact skipSpace_extract he (by omega) hk

theorem valueReads_succ (he : e ≤ bs.size) {fuel : ℕ} (ihe : ElementsReads bs a e fuel)
    (ihm : MembersReads bs a e fuel) : ValueReads bs a e (fuel + 1) := by
  intro depth depth' i n j fuel' h ha hj hd hf
  have hb := (bounds_of_fuel (fuel + 1)).1 h
  obtain ⟨g, rfl⟩ : ∃ g, fuel' = g + 1 := ⟨fuel' - 1, by omega⟩
  have hsz := size_extract_of_le (a := a) he
  refine value_succ_eq_ok.2 ⟨by omega, ?_⟩
  -- the slice has the value's first byte, and after a bracket the same first byte that is not
  -- white space
  have hlead : Utf8.byteAt (bs.extract a e) (i - a) = Utf8.byteAt bs i := byteAt_extract he ha (by omega)
  have hinner := le_skipSpace bs (i + 1)
  cases (value_succ_eq_ok.1 h).2 with
  | emptyObject hbyte hdep hs hc =>
    have hs' := skipSpace_extract_after he ha (show skipSpace bs (i + 1) < e by omega)
    rw [Node.shift_object, List.map_nil, Span.shift,
      show skipSpace bs (i + 1) + 1 - a = skipSpace (bs.extract a e) (i - a + 1) + 1 by omega]
    exact .emptyObject (hlead.trans hbyte) (by omega) (by omega)
      (by rw [hs', byteAt_extract he (by omega) (by omega), hc])
  | object hbyte hdep hs hc hm =>
    have hmb := (bounds_of_fuel fuel).2.2 hm
    have hs' := skipSpace_extract_after he ha (show skipSpace bs (i + 1) < e by omega)
    refine .object (hlead.trans hbyte) (by omega) (by omega)
      (by rw [hs', byteAt_extract he (by omega) (by omega)]; exact hc) ?_
    rw [hs', ← Array.map_empty (f := Node.shiftMember a)]
    exact ihm hm ha (by omega) hj (Nat.add_le_add_right hd 1) (by omega)
  | emptyArray hbyte hdep hs hc =>
    have hs' := skipSpace_extract_after he ha (show skipSpace bs (i + 1) < e by omega)
    rw [Node.shift_array, List.map_nil, Span.shift,
      show skipSpace bs (i + 1) + 1 - a = skipSpace (bs.extract a e) (i - a + 1) + 1 by omega]
    exact .emptyArray (hlead.trans hbyte) (by omega) (by omega)
      (by rw [hs', byteAt_extract he (by omega) (by omega), hc])
  | array hbyte hdep hs hc hel =>
    have hmb := (bounds_of_fuel fuel).2.1 hel
    have hs' := skipSpace_extract_after he ha (show skipSpace bs (i + 1) < e by omega)
    refine .array (hlead.trans hbyte) (by omega) (by omega)
      (by rw [hs', byteAt_extract he (by omega) (by omega)]; exact hc) ?_
    rw [hs', ← Array.map_empty (f := fun x : Node => x.shift a)]
    exact ihe hel ha (by omega) hj (Nat.add_le_add_right hd 1) (by omega)
  | string hbyte hs =>
    rw [Node.shift_string, Span.shift]
    exact .string (hlead.trans hbyte) (by
      rw [show i - a + 1 = i + 1 - a by omega]
      exact stringBody_extract he (by omega) hs hj)
  | trueWord hbyte hl =>
    rw [Node.shift_bool, Span.shift]
    exact .trueWord (hlead.trans hbyte) (literal_extract he ha hl hj)
  | falseWord hbyte hl =>
    rw [Node.shift_bool, Span.shift]
    exact .falseWord (hlead.trans hbyte) (literal_extract he ha hl hj)
  | nullWord hbyte hl =>
    rw [Node.shift_null, Span.shift]
    exact .nullWord (hlead.trans hbyte) (literal_extract he ha hl hj)
  | number hbyte hl =>
    rw [Node.shift_number, Span.shift]
    exact .number (by rw [hlead]; exact hbyte) (number_extract he ha hl hj)

theorem elementsReads_succ (he : e ≤ bs.size) {fuel : ℕ} (ihv : ValueReads bs a e fuel)
    (ihe : ElementsReads bs a e fuel) : ElementsReads bs a e (fuel + 1) := by
  intro depth depth' start i acc n k fuel' h hs ha hk hd hf
  have hb := (bounds_of_fuel (fuel + 1)).2.1 h
  obtain ⟨g, rfl⟩ : ∃ g, fuel' = g + 1 := ⟨fuel' - 1, by omega⟩
  have hsz := size_extract_of_le (a := a) he
  refine elements_succ_eq_ok.2 ?_
  cases elements_succ_eq_ok.1 h with
  | @more v jv _ _ hv hsep hc hrest =>
    -- a comma, and more elements after it
    have hvb := (bounds_of_fuel fuel).1 hv
    have hkk := le_skipSpace bs jv
    have hrb := (bounds_of_fuel fuel).2.1 hrest
    have hnext := le_skipSpace bs (skipSpace bs jv + 1)
    have hsep' := skipSpace_extract he (show a ≤ jv by omega) (show skipSpace bs jv < e by omega)
    refine .more (ihv hv ha (by omega) hd (by omega)) (by omega)
      (by rw [hsep', byteAt_extract he (by omega) (by omega), hc]) ?_
    rw [hsep', skipSpace_extract_after he (by omega) (by omega), ← Array.map_push]
    exact ihe hrest hs (by omega) hk hd (by omega)
  | @last v jv hv hsep hc =>
    -- the closing bracket
    have hvb := (bounds_of_fuel fuel).1 hv
    have hkk := le_skipSpace bs jv
    have hsep' := skipSpace_extract he (show a ≤ jv by omega) (show skipSpace bs jv < e by omega)
    have hnode : (Node.array ⟨start, skipSpace bs jv + 1⟩ (acc.push v).toList).shift a =
        .array ⟨start - a, skipSpace (bs.extract a e) (jv - a) + 1⟩
          ((acc.map (·.shift a)).push (v.shift a)).toList := by
      rw [Node.shift_array, Span.shift, hsep',
        show skipSpace bs jv + 1 - a = skipSpace bs jv - a + 1 by omega]
      simp
    rw [hnode, show skipSpace bs jv + 1 - a = skipSpace (bs.extract a e) (jv - a) + 1 by omega]
    exact .last (ihv hv ha (by omega) hd (by omega)) (by omega)
      (by rw [hsep', byteAt_extract he (by omega) (by omega), hc])

/-- A member's name, its colon and its value read the same in a slice that holds them. -/
theorem member_extract (he : e ≤ bs.size) {fuel depth depth' g i j k : ℕ} {name : String}
    {v : Node} (ihv : ValueReads bs a e fuel) (ha : a ≤ i)
    (hname : stringBody bs (i + 1) "" = .ok (name, j))
    (hv : value bs fuel depth (skipSpace bs (skipSpace bs j + 1)) = .ok (v, k)) (hk : k ≤ e)
    (hd : depth' ≤ depth) (hf : 2 * (k - i) ≤ g) :
    stringBody (bs.extract a e) (i - a + 1) "" = .ok (name, j - a) ∧
      skipSpace (bs.extract a e) (j - a) = skipSpace bs j - a ∧
      Utf8.byteAt (bs.extract a e) (skipSpace bs j - a) = Utf8.byteAt bs (skipSpace bs j) ∧
      value (bs.extract a e) g depth' (skipSpace (bs.extract a e) (skipSpace bs j - a + 1)) =
        .ok (v.shift a, k - a) := by
  have hnb := (stringBody_bounds hname).1
  have hvs := le_skipSpace bs (skipSpace bs j + 1)
  have hvb := (bounds_of_fuel fuel).1 hv
  have hj := le_skipSpace bs j
  refine ⟨?_, skipSpace_extract he (by omega) (by omega), byteAt_extract he (by omega) (by omega), ?_⟩
  · rw [show i - a + 1 = i + 1 - a by omega]
    exact stringBody_extract he (by omega) hname (by omega)
  · rw [skipSpace_extract_after he (by omega) (by omega)]
    exact ihv hv (by omega) (by omega) hd (by omega)

theorem membersReads_succ (he : e ≤ bs.size) {fuel : ℕ} (ihv : ValueReads bs a e fuel)
    (ihm : MembersReads bs a e fuel) : MembersReads bs a e (fuel + 1) := by
  intro depth depth' start i acc n k fuel' h hs ha hk hd hf
  have hb := (bounds_of_fuel (fuel + 1)).2.2 h
  obtain ⟨g, rfl⟩ : ∃ g, fuel' = g + 1 := ⟨fuel' - 1, by omega⟩
  have hsz := size_extract_of_le (a := a) he
  refine members_succ_eq_ok.2 ?_
  cases members_succ_eq_ok.1 h with
  | @more name jn v kv _ _ hi hq hname hcs hcolon hv hks hc hrest =>
    -- a comma, and more members after it
    have hvb := (bounds_of_fuel fuel).1 hv
    have hrb := (bounds_of_fuel fuel).2.2 hrest
    have hnb := (stringBody_bounds hname).1
    have hcolon_le := le_skipSpace bs jn
    have hvs := le_skipSpace bs (skipSpace bs jn + 1)
    have hnext := le_skipSpace bs (skipSpace bs kv + 1)
    have hkv := le_skipSpace bs kv
    obtain ⟨hname', hcs', hcolon', hv'⟩ :=
      member_extract he ihv ha hname hv (by omega) hd (show 2 * (kv - i) ≤ g by omega)
    have hks' := skipSpace_extract he (show a ≤ kv by omega) (show skipSpace bs kv < e by omega)
    refine .more (by omega) (by rw [byteAt_extract he ha (by omega)]; exact hq) hname'
      (by rw [hcs']; omega) (by rw [hcs', hcolon', hcolon]) (by rw [hcs']; exact hv')
      (by rw [hks']; omega)
      (by rw [hks', byteAt_extract he (by omega) (by omega), hc]) ?_
    have hpush : (acc.map (Node.shiftMember a)).push (name, v.shift a) =
        (acc.push (name, v)).map (Node.shiftMember a) := by
      rw [Array.map_push]
      rfl
    rw [hks', skipSpace_extract_after he (by omega) (by omega), hpush]
    exact ihm hrest hs (by omega) hk hd (by omega)
  | @last name jn v kv hi hq hname hcs hcolon hv hks hc =>
    -- the closing brace
    have hvb := (bounds_of_fuel fuel).1 hv
    have hnb := (stringBody_bounds hname).1
    have hcolon_le := le_skipSpace bs jn
    have hvs := le_skipSpace bs (skipSpace bs jn + 1)
    have hkv := le_skipSpace bs kv
    obtain ⟨hname', hcs', hcolon', hv'⟩ :=
      member_extract he ihv ha hname hv (by omega) hd (show 2 * (kv - i) ≤ g by omega)
    have hks' := skipSpace_extract he (show a ≤ kv by omega) (show skipSpace bs kv < e by omega)
    have hnode : (Node.object ⟨start, skipSpace bs kv + 1⟩ (acc.push (name, v)).toList).shift a =
        .object ⟨start - a, skipSpace (bs.extract a e) (kv - a) + 1⟩
          ((acc.map (Node.shiftMember a)).push (name, v.shift a)).toList := by
      rw [Node.shift_object, Span.shift, hks',
        show skipSpace bs kv + 1 - a = skipSpace bs kv - a + 1 by omega]
      simp [Node.shiftMember]
    rw [hnode, show skipSpace bs kv + 1 - a = skipSpace (bs.extract a e) (kv - a) + 1 by omega]
    exact .last (by omega) (by rw [byteAt_extract he ha (by omega)]; exact hq) hname'
      (by rw [hcs']; omega) (by rw [hcs', hcolon', hcolon]) (by rw [hcs']; exact hv')
      (by rw [hks']; omega)
      (by rw [hks', byteAt_extract he (by omega) (by omega), hc])

/-- The reader reads every value the same from a slice that holds it: by induction on the fuel,
the three readers together. -/
theorem reads_of_fuel (he : e ≤ bs.size) (fuel : ℕ) :
    ValueReads bs a e fuel ∧ ElementsReads bs a e fuel ∧ MembersReads bs a e fuel := by
  induction fuel with
  | zero =>
    refine ⟨fun h => ?_, fun h => ?_, fun h => ?_⟩ <;> simp [value, elements, members] at h
  | succ fuel ih =>
    obtain ⟨ihv, ihe, ihm⟩ := ih
    exact ⟨valueReads_succ he ihe ihm, elementsReads_succ he ihv ihe, membersReads_succ he ihv ihm⟩

/-- A value's own bytes, read as a document, give the same tree, moved to the start. -/
theorem parse_extract_of_value {fuel depth i j : ℕ} {n : Node}
    (h : value bs fuel depth i = .ok (n, j)) : parse (bs.extract i j) = .ok (n.shift i) := by
  obtain ⟨hij, hj, -⟩ := (bounds_of_fuel fuel).1 h
  have hsz := size_extract_of_le (a := i) hj
  obtain ⟨hstart, hn⟩ := (readFrom_of_fuel fuel).1 h
  -- the value's first byte starts it, so no white space comes before it
  have hlead : isSpace (Utf8.byteAt (bs.extract i j) 0) = false := by
    have := byteAt_extract hj (le_refl i) hij
    rw [Nat.sub_self] at this
    rw [this, ← hstart]
    exact isSpace_of_leadKind hn.leadKind
  have hread := (reads_of_fuel (a := i) hj fuel).1 h (le_refl i) (le_refl j) (Nat.zero_le depth)
    (show 2 * (j - i) ≤ 2 * (bs.extract i j).size + 4 by omega)
  rw [Nat.sub_self] at hread
  have hend : skipSpace (bs.extract i j) (j - i) = j - i := by
    rw [skipSpace, if_neg (by omega)]
  exact parse_eq_ok.2 ⟨j - i, by rw [skipSpace_of_not_space hlead]; exact hread, by rw [hend]; omega⟩

/-! ## Every part of a document reads alone -/

/-- A value lies in the source, reads from its own bytes as itself moved to the start, and so
does every value inside it, each lying inside its parent's bytes. -/
inductive Node.ReadsAlone (bs : ByteArray) : Node → Prop
  | intro {n : Node} : n.span.start < n.span.stop → n.span.stop ≤ bs.size →
      parse (n.raw bs) = .ok (n.shift n.span.start) →
      (∀ c ∈ n.children, n.span.start ≤ c.span.start ∧ c.span.stop ≤ n.span.stop) →
      (∀ c ∈ n.children, ReadsAlone bs c) → ReadsAlone bs n

namespace Node.ReadsAlone

variable {n c : Node}

theorem span_lt (h : n.ReadsAlone bs) : n.span.start < n.span.stop := by
  cases h with
  | intro hlt _ _ _ _ => exact hlt

theorem stop_le (h : n.ReadsAlone bs) : n.span.stop ≤ bs.size := by
  cases h with
  | intro _ hle _ _ _ => exact hle

theorem parse_raw (h : n.ReadsAlone bs) : parse (n.raw bs) = .ok (n.shift n.span.start) := by
  cases h with
  | intro _ _ hself _ _ => exact hself

theorem child (h : n.ReadsAlone bs) (hc : c ∈ n.children) :
    n.span.start ≤ c.span.start ∧ c.span.stop ≤ n.span.stop ∧ c.ReadsAlone bs := by
  cases h with
  | intro _ _ _ hinside hchildren => exact ⟨(hinside c hc).1, (hinside c hc).2, hchildren c hc⟩

end Node.ReadsAlone

/-- What an accumulator of values read from `start` up to `i` holds after one more, read from
`i` up to `j`. -/
theorem readsAlone_push {α : Type} {f : α → Node} {acc : Array α} {v : α} {start i j : ℕ}
    (hacc : ∀ m ∈ acc.toList, start ≤ (f m).span.start ∧ (f m).span.stop ≤ i ∧ (f m).ReadsAlone bs)
    (hi : start ≤ (f v).span.start) (hv : (f v).span.stop ≤ j) (hij : i ≤ j)
    (hvr : (f v).ReadsAlone bs) :
    ∀ m ∈ (acc.push v).toList, start ≤ (f m).span.start ∧ (f m).span.stop ≤ j ∧ (f m).ReadsAlone bs := by
  simp only [Array.toList_push, List.mem_append, List.mem_singleton]
  rintro m (hm | rfl)
  · obtain ⟨h1, h2, h3⟩ := hacc m hm
    exact ⟨h1, by omega, h3⟩
  · exact ⟨hi, hv, hvr⟩

/-- Every value the reader reads, and every value inside it, reads alone: by induction on the
fuel, the three readers together. -/
theorem readsAlone_of_fuel (fuel : ℕ) :
    (∀ {depth i n j}, value bs fuel depth i = .ok (n, j) → n.ReadsAlone bs) ∧
    (∀ {depth start i acc n k}, start ≤ i →
      (∀ m ∈ acc.toList, start ≤ m.span.start ∧ m.span.stop ≤ i ∧ m.ReadsAlone bs) →
      elements bs fuel depth start i acc = .ok (n, k) →
      ∀ c ∈ n.children, start ≤ c.span.start ∧ c.span.stop ≤ k ∧ c.ReadsAlone bs) ∧
    (∀ {depth start i acc n k}, start ≤ i →
      (∀ m ∈ acc.toList, start ≤ m.2.span.start ∧ m.2.span.stop ≤ i ∧ m.2.ReadsAlone bs) →
      members bs fuel depth start i acc = .ok (n, k) →
      ∀ c ∈ n.children, start ≤ c.span.start ∧ c.span.stop ≤ k ∧ c.ReadsAlone bs) := by
  induction fuel with
  | zero =>
    refine ⟨fun h => ?_, fun _ _ h => ?_, fun _ _ h => ?_⟩ <;> simp [value, elements, members] at h
  | succ fuel ih =>
    obtain ⟨ihv, ihe, ihm⟩ := ih
    refine ⟨@fun depth i n j h => ?_, @fun depth start i acc n k hsi hacc h => ?_,
      @fun depth start i acc n k hsi hacc h => ?_⟩
    · -- the value itself reads alone; what is inside it was read by the elements or members
      obtain ⟨hstart, -⟩ := (readFrom_of_fuel (fuel + 1)).1 h
      obtain ⟨hij, hj, hstop⟩ := (bounds_of_fuel (fuel + 1)).1 h
      have hself : parse (n.raw bs) = .ok (n.shift n.span.start) := by
        rw [Node.raw, hstart, hstop]
        exact parse_extract_of_value h
      suffices hch : ∀ c ∈ n.children, i ≤ c.span.start ∧ c.span.stop ≤ j ∧ c.ReadsAlone bs by
        refine .intro (by omega) (by omega) hself (fun c hc => ?_) (fun c hc => (hch c hc).2.2)
        rw [hstart, hstop]
        exact ⟨(hch c hc).1, (hch c hc).2.1⟩
      have hle := le_skipSpace bs (i + 1)
      cases (value_succ_eq_ok.1 h).2 with
      | object _ _ _ _ hm => exact ihm (by omega) (by simp) hm
      | array _ _ _ _ hel => exact ihe (by omega) (by simp) hel
      | _ => simp [Node.children]
    · cases elements_succ_eq_ok.1 h with
      | @more v jv _ _ hv _ _ hrest =>
        obtain ⟨hvs, -⟩ := (readFrom_of_fuel fuel).1 hv
        obtain ⟨hij, -, hvstop⟩ := (bounds_of_fuel fuel).1 hv
        have hkk := le_skipSpace bs jv
        have hnext := le_skipSpace bs (skipSpace bs jv + 1)
        exact ihe (by omega)
          (readsAlone_push (f := id) hacc (by simp; omega) (by simp; omega) (by omega) (ihv hv)) hrest
      | @last v jv hv _ _ =>
        obtain ⟨hvs, -⟩ := (readFrom_of_fuel fuel).1 hv
        obtain ⟨hij, -, hvstop⟩ := (bounds_of_fuel fuel).1 hv
        have hkk := le_skipSpace bs jv
        have hacc' := readsAlone_push (f := id) (j := skipSpace bs jv + 1) hacc (by simp; omega)
          (by simp; omega) (by omega) (ihv hv)
        simpa [Node.children] using hacc'
    · cases members_succ_eq_ok.1 h with
      | @more name jn v kv _ _ _ _ hname _ _ hv _ _ hrest =>
        obtain ⟨hvs, -⟩ := (readFrom_of_fuel fuel).1 hv
        obtain ⟨hij, -, hvstop⟩ := (bounds_of_fuel fuel).1 hv
        have hnb := (stringBody_bounds hname).1
        have hcolon := le_skipSpace bs jn
        have hvat := le_skipSpace bs (skipSpace bs jn + 1)
        have hkk := le_skipSpace bs kv
        have hnext := le_skipSpace bs (skipSpace bs kv + 1)
        exact ihm (by omega) (readsAlone_push (f := Prod.snd) (v := (name, v)) hacc
          (by simp; omega) (by simp; omega) (by omega) (ihv hv)) hrest
      | @last name jn v kv _ _ hname _ _ hv _ _ =>
        obtain ⟨hvs, -⟩ := (readFrom_of_fuel fuel).1 hv
        obtain ⟨hij, -, hvstop⟩ := (bounds_of_fuel fuel).1 hv
        have hnb := (stringBody_bounds hname).1
        have hcolon := le_skipSpace bs jn
        have hvat := le_skipSpace bs (skipSpace bs jn + 1)
        have hkk := le_skipSpace bs kv
        have hacc' := readsAlone_push (f := Prod.snd) (v := (name, v)) (j := skipSpace bs kv + 1)
          hacc (by simp; omega) (by simp; omega) (by omega) (ihv hv)
        intro c hc
        obtain ⟨m, hm, rfl⟩ := List.mem_map.1 hc
        exact hacc' m hm

/-- Every value of a document the reader accepts, and every value inside it, reads alone. -/
theorem parse_readsAlone {n : Node} (h : parse bs = .ok n) : n.ReadsAlone bs := by
  obtain ⟨j, hv, -⟩ := parse_eq_ok.1 h
  exact (readsAlone_of_fuel _).1 hv

end TurnRelay.Json
