import Mathlib
import TurnRelay.Proofs.Json.Canonical
import TurnRelay.Proofs.Json.Tokens
import TurnRelay.Proofs.Json.Readers

/-!
# Written values read back

A value written by `Value.render` and read again, by the tree reader and then as a loose value,
comes back as its normal form (`Value.normal`): its numbers as the same doubles, its strings as
the same strings, its arrays in order, and its objects with their members in the order the writer
sorted them, each name once with its last value. This holds wherever the text stands in a
document, followed by what may follow a value, at any depth that leaves room for the value's own
nesting (`ReadsBack`, `readsBack_render`), and so for a whole document (`parse_render`) and for
an object the writer assembles from written members in any order (`parse_object`).

The proof follows the value: one lemma for each kind, by what the reader does on the first byte
(`value_at_word`, `value_at_string`, `value_at_number`, `value_at_object`, ...), and one loop
for the elements of an array and the members of an object (`elements_written`,
`members_written`), which read each element as the value it was written for.
-/

namespace TurnRelay.Json

/-! ## Loose readings -/

section Loose

variable (src : ByteArray)

@[simp] theorem value_loose_null (sp : Span) : (loose (.null sp)).value src = .null := rfl

@[simp] theorem value_loose_bool (sp : Span) (b : Bool) :
    (loose (.bool sp b)).value src = .bool b := rfl

@[simp] theorem value_loose_string (sp : Span) (s : String) :
    (loose (.string sp s)).value src = .string s := rfl

theorem value_loose_number {sp : Span} {x : Float} (h : numberValue (numberText src sp) = some x) :
    (loose (.number sp)).value src = .number x := by
  unfold Decoder.value
  rw [loose, run_read_bind]
  dsimp only
  rw [Scope.top_src, h]
  rfl

theorem value_loose_array (sp : Span) (items : List Node) :
    (loose (.array sp items)).value src = .array ((looseItems 0 items).value src) := by
  rw [loose, value_bind (fun _ => readsAs_pure _)]
  rfl

theorem value_loose_object (sp : Span) (ms : List (String × Node)) :
    (loose (.object sp ms)).value src = .object ((looseMembers [] ms).value src) := by
  rw [loose, value_bind (fun _ => readsAs_pure _)]
  rfl

theorem value_looseItems_cons (i : ℕ) (n : Node) (rest : List Node) :
    (looseItems i (n :: rest)).value src =
      (loose n).value src :: (looseItems (i + 1) rest).value src := by
  rw [looseItems, value_bind (fun v => readsAs_bind (readsAs_looseItems (i + 1) rest)
      fun _ => readsAs_pure _),
    value_within (readsAs_loose n), value_bind (fun _ => readsAs_pure _)]
  rfl

theorem value_looseMembers_cons (acc : Dict) (k : String) (n : Node) (rest : List (String × Node)) :
    (looseMembers acc ((k, n) :: rest)).value src =
      (looseMembers (acc.insert k ((loose n).value src)) rest).value src := by
  rw [looseMembers, value_bind (fun v => readsAs_looseMembers (acc.insert k v) rest),
    value_within (readsAs_loose n)]

end Loose

/-- A node read back as a value: it is read as a loose value without a mismatch, and that loose
value is `v`'s normal form. -/
def Node.Means (src : ByteArray) (n : Node) (v : Value) : Prop :=
  n.looseFits src = true ∧ (loose n).value src = v.normal

section Means

variable {src : ByteArray} {n : Node}

end Means

/-- A member read back as a written entry: named as the entry, meaning the entry's value, and
spanning the entry's text. -/
def ReadsEntry (src : ByteArray) (m : String × Node) (x : String × Value × ByteArray) : Prop :=
  m.1 = x.1 ∧ m.2.Means src x.2.1 ∧ m.2.raw src = x.2.2

section Entries

variable {src : ByteArray}

theorem looseFitsItems_of_forall₂ {ns : List Node} {vs : List Value}
    (h : List.Forall₂ (fun n v => n.Means src v) ns vs) : Node.looseFitsItems src ns = true := by
  induction h with
  | nil => rfl
  | cons hx _ ih => simp [Node.looseFitsItems, hx.1, ih]

theorem looseItems_of_forall₂ {ns : List Node} {vs : List Value}
    (h : List.Forall₂ (fun n v => n.Means src v) ns vs) (i : ℕ) :
    (looseItems i ns).value src = vs.map Value.normal := by
  induction h generalizing i with
  | nil => rfl
  | cons hx _ ih => rw [value_looseItems_cons, hx.2, ih, List.map_cons]

theorem looseFitsMembers_of_forall₂ {ms : List (String × Node)} {L : List (String × Value × ByteArray)}
    (h : List.Forall₂ (ReadsEntry src) ms L) : Node.looseFitsMembers src ms = true := by
  induction h with
  | nil => rfl
  | cons hx _ ih => simp [Node.looseFitsMembers, hx.2.1.1, ih]

/-- Members read back as written entries are inserted as the entries' names and normal forms. -/
theorem looseMembers_of_forall₂ {ms : List (String × Node)} {L : List (String × Value × ByteArray)}
    (h : List.Forall₂ (ReadsEntry src) ms L) (acc : Dict) :
    (looseMembers acc ms).value src = acc.insertAll (L.map fun x => (x.1, x.2.1.normal)) := by
  induction h generalizing acc with
  | nil => rfl
  | @cons m x ms L hx _ ih =>
    obtain ⟨k, n⟩ := m
    obtain ⟨hk, ⟨-, hv⟩, -⟩ := hx
    rw [value_looseMembers_cons, hv, ih, List.map_cons, Dict.insertAll_cons]
    dsimp only at hk
    rw [hk]

end Entries

/-! ## Written texts -/

@[simp] theorem ascii_comma_data : (ascii ",").data.toList = [0x2C] := rfl
@[simp] theorem ascii_colon_data : (ascii ":").data.toList = [0x3A] := rfl
@[simp] theorem ascii_lbrace_data : (ascii "\x7b").data.toList = [0x7B] := rfl
@[simp] theorem ascii_rbrace_data : (ascii "\x7d").data.toList = [0x7D] := rfl
@[simp] theorem ascii_lbracket_data : (ascii "[").data.toList = [0x5B] := rfl
@[simp] theorem ascii_rbracket_data : (ascii "]").data.toList = [0x5D] := rfl

/-- The text of a written member: its name's literal, a colon and its value's text. -/
def memberText (x : String × Value × ByteArray) : ByteArray := (quote x.1 ++ ascii ":") ++ x.2.2

theorem memberText_data (x : String × Value × ByteArray) :
    (memberText x).data.toList = (quote x.1).data.toList ++ 0x3A :: x.2.2.data.toList := by
  simp [memberText]

theorem joinBytes_cons_cons (sep a b : ByteArray) (rest : List ByteArray) :
    joinBytes sep (a :: b :: rest) = (a ++ sep) ++ joinBytes sep (b :: rest) := rfl

/-- What the writer makes of members given as entries. -/
theorem object_entries (L : List (String × Value × ByteArray)) :
    Writer.object (L.map fun x => (x.1, x.2.2)) =
      (ascii "\x7b" ++ joinBytes (ascii ",") (L.map memberText)) ++ ascii "\x7d" := by
  rw [Writer.object, List.map_map]
  rfl

/-! ## What the reader does at a written text -/

section Dispatch

variable {Q : ByteArray} {pre post : List UInt8} {fuel depth : ℕ}

/-- The bytes a text stands on in the source are the text. -/
theorem extract_of_data {t : ByteArray} (h : Q.data.toList = pre ++ t.data.toList ++ post) :
    Q.extract pre.length (pre.length + t.size) = t := by
  apply ByteArray.ext
  apply Array.ext'
  rw [Utf8.extract_toList, h, List.append_assoc, List.drop_left, Nat.add_sub_cancel_left,
    Utf8.size_eq_length, List.take_left]

/-- The byte standing at a position, inside the source. -/
theorem byteAt_at {p : ℕ} {b : UInt8} {rest : List UInt8} (h : Q.data.toList = pre ++ b :: rest)
    (hp : pre.length = p) : Utf8.byteAt Q p = b ∧ p < Q.size :=
  hp ▸ byteAt_cons h

/-- No white space is skipped before a byte that is not white space. -/
theorem skipSpace_at_of {p : ℕ} {b : UInt8} {rest : List UInt8} (h : Q.data.toList = pre ++ b :: rest)
    (hp : pre.length = p) (hb : isSpace b = false) : skipSpace Q p = p :=
  hp ▸ skipSpace_at h hb

theorem value_at_null (h : Q.data.toList = pre ++ Writer.null.data.toList ++ post) :
    value Q (fuel + 1) depth pre.length =
      .ok (.null ⟨pre.length, pre.length + Writer.null.size⟩, pre.length + Writer.null.size) := by
  have hd : Writer.null.data.toList = 0x6E :: [0x75, 0x6C, 0x6C] := rfl
  obtain ⟨hbyte, hlt⟩ := byteAt_cons (show Q.data.toList = pre ++ 0x6E :: ([0x75, 0x6C, 0x6C] ++ post) by
    simp [h, hd])
  exact value_succ_eq_ok.2 ⟨hlt, .nullWord hbyte (literal_word "null" h)⟩

theorem value_at_bool (b : Bool) (h : Q.data.toList = pre ++ (Writer.bool b).data.toList ++ post) :
    value Q (fuel + 1) depth pre.length =
      .ok (.bool ⟨pre.length, pre.length + (Writer.bool b).size⟩ b,
        pre.length + (Writer.bool b).size) := by
  cases b with
  | true =>
    have hd : (Writer.bool true).data.toList = 0x74 :: [0x72, 0x75, 0x65] := rfl
    obtain ⟨hbyte, hlt⟩ := byteAt_cons (show Q.data.toList = pre ++ 0x74 :: ([0x72, 0x75, 0x65] ++ post) by
      simp [h, hd])
    exact value_succ_eq_ok.2 ⟨hlt, .trueWord hbyte (literal_word "true" h)⟩
  | false =>
    have hd : (Writer.bool false).data.toList = 0x66 :: [0x61, 0x6C, 0x73, 0x65] := rfl
    obtain ⟨hbyte, hlt⟩ := byteAt_cons
      (show Q.data.toList = pre ++ 0x66 :: ([0x61, 0x6C, 0x73, 0x65] ++ post) by simp [h, hd])
    exact value_succ_eq_ok.2 ⟨hlt, .falseWord hbyte (literal_word "false" h)⟩

theorem value_at_string (s : String) (h : Q.data.toList = pre ++ (quote s).data.toList ++ post) :
    value Q (fuel + 1) depth pre.length =
      .ok (.string ⟨pre.length, pre.length + (quote s).size⟩ s, pre.length + (quote s).size) := by
  obtain ⟨hbyte, hlt⟩ := byteAt_cons
    (show Q.data.toList = pre ++ 0x22 :: (escapedBytes s.toList ++ [0x22] ++ post) by
      simp [h, quote_data])
  exact value_succ_eq_ok.2 ⟨hlt, .string hbyte (stringBody_quoted s h)⟩

theorem value_at_number {x : Float} {t : String} (ht : Decimal.jsonText x = some t)
    (h : Q.data.toList = pre ++ (ascii t).data.toList ++ post) (hpost : Closes post = true) :
    value Q (fuel + 1) depth pre.length =
      .ok (.number ⟨pre.length, pre.length + (ascii t).size⟩, pre.length + (ascii t).size) := by
  obtain ⟨b, rest, hlead, hb⟩ := jsonText_lead ht
  obtain ⟨hbyte, hlt⟩ := byteAt_cons (show Q.data.toList = pre ++ b :: (rest ++ post) by
    simp [h, hlead])
  exact value_succ_eq_ok.2 ⟨hlt, .number (hbyte ▸ hb) (number_jsonText ht h hpost)⟩

/-- An object closed at once. -/
theorem value_at_empty_object (h : Q.data.toList = pre ++ 0x7B :: 0x7D :: post)
    (hd : depth + 1 ≤ maxDepth) :
    value Q (fuel + 1) depth pre.length =
      .ok (.object ⟨pre.length, pre.length + 2⟩ [], pre.length + 2) := by
  have h1 : Q.data.toList = (pre ++ [0x7B]) ++ 0x7D :: post := by simp [h]
  have hp : (pre ++ [(0x7B : UInt8)]).length = pre.length + 1 := by simp
  obtain ⟨hopen, hlt⟩ := byteAt_cons h
  obtain ⟨hclose, hlt1⟩ := byteAt_at h1 hp
  have hskip : skipSpace Q (pre.length + 1) = pre.length + 1 := skipSpace_at_of h1 hp (by decide)
  rw [show pre.length + 2 = skipSpace Q (pre.length + 1) + 1 by omega]
  exact value_succ_eq_ok.2 ⟨hlt, .emptyObject hopen hd (by omega) (by rw [hskip]; exact hclose)⟩

/-- An object with members: the reader goes on to the first name. -/
theorem value_at_object {b : UInt8} {rest : List UInt8} (h : Q.data.toList = pre ++ 0x7B :: b :: rest)
    (hb : isSpace b = false) (hc : b ≠ 0x7D) (hd : depth + 1 ≤ maxDepth) :
    value Q (fuel + 1) depth pre.length = members Q fuel (depth + 1) pre.length (pre.length + 1) #[] := by
  have h1 : Q.data.toList = (pre ++ [0x7B]) ++ b :: rest := by simp [h]
  have hp : (pre ++ [(0x7B : UInt8)]).length = pre.length + 1 := by simp
  obtain ⟨hopen, hlt⟩ := byteAt_cons h
  obtain ⟨hfirst, hlt1⟩ := byteAt_at h1 hp
  rw [value, if_neg (by omega)]
  dsimp only
  rw [hopen, if_pos (by decide), if_neg (by omega), skipSpace_at_of h1 hp hb,
    if_neg (by omega), hfirst, if_neg (by simpa using hc)]

/-- An array closed at once. -/
theorem value_at_empty_array (h : Q.data.toList = pre ++ 0x5B :: 0x5D :: post)
    (hd : depth + 1 ≤ maxDepth) :
    value Q (fuel + 1) depth pre.length =
      .ok (.array ⟨pre.length, pre.length + 2⟩ [], pre.length + 2) := by
  have h1 : Q.data.toList = (pre ++ [0x5B]) ++ 0x5D :: post := by simp [h]
  have hp : (pre ++ [(0x5B : UInt8)]).length = pre.length + 1 := by simp
  obtain ⟨hopen, hlt⟩ := byteAt_cons h
  obtain ⟨hclose, hlt1⟩ := byteAt_at h1 hp
  have hskip : skipSpace Q (pre.length + 1) = pre.length + 1 := skipSpace_at_of h1 hp (by decide)
  rw [show pre.length + 2 = skipSpace Q (pre.length + 1) + 1 by omega]
  exact value_succ_eq_ok.2 ⟨hlt, .emptyArray hopen hd (by omega) (by rw [hskip]; exact hclose)⟩

/-- An array with elements: the reader goes on to the first one. -/
theorem value_at_array {b : UInt8} {rest : List UInt8} (h : Q.data.toList = pre ++ 0x5B :: b :: rest)
    (hb : isSpace b = false) (hc : b ≠ 0x5D) (hd : depth + 1 ≤ maxDepth) :
    value Q (fuel + 1) depth pre.length = elements Q fuel (depth + 1) pre.length (pre.length + 1) #[] := by
  have h1 : Q.data.toList = (pre ++ [0x5B]) ++ b :: rest := by simp [h]
  have hp : (pre ++ [(0x5B : UInt8)]).length = pre.length + 1 := by simp
  obtain ⟨hopen, hlt⟩ := byteAt_cons h
  obtain ⟨hfirst, hlt1⟩ := byteAt_at h1 hp
  rw [value, if_neg (by omega)]
  dsimp only
  rw [hopen, if_neg (by decide), if_pos (by decide), if_neg (by omega),
    skipSpace_at_of h1 hp hb, if_neg (by omega), hfirst, if_neg (by simpa using hc)]

end Dispatch

/-! ## Texts that read back -/

/-- A text that reads back as a value: it starts with a byte that starts a value, and
wherever it stands in a document, followed by what may follow a value, the reader given fuel
for its length at a depth that leaves room for the value's nesting reads exactly the text, as a
node spanning it that means the value. -/
structure ReadsBack (v : Value) (t : ByteArray) : Prop where
  lead : ∃ b rest k, t.data.toList = b :: rest ∧ leadKind b = some k
  reads : ∀ {Q : ByteArray} {pre post : List UInt8} {depth fuel : ℕ},
    Q.data.toList = pre ++ t.data.toList ++ post → Closes post = true →
    depth + v.depth ≤ maxDepth → t.size ≤ fuel →
    ∃ n, value Q fuel depth pre.length = .ok (n, pre.length + t.size) ∧
      n.span = ⟨pre.length, pre.length + t.size⟩ ∧ n.Means Q v

/-- A text that reads back starts with neither white space nor a closing bracket. -/
theorem ReadsBack.lead_byte {v : Value} {t : ByteArray} (hx : ReadsBack v t) :
    ∃ b rest, t.data.toList = b :: rest ∧ isSpace b = false ∧ b ≠ 0x5D := by
  obtain ⟨b, rest, k, hlead, hk⟩ := hx.lead
  refine ⟨b, rest, hlead, isSpace_of_leadKind hk, ?_⟩
  rintro rfl
  simp [leadKind, isDigitByte] at hk

section Loops

variable {Q : ByteArray} {pre post : List UInt8} {fuel depth : ℕ}

theorem closes_comma_or_brace {c : UInt8} (hc : c = 0x2C ∨ c = 0x7D) (post : List UInt8) :
    Closes (c :: post) = true := by
  rcases hc with rfl | rfl <;> rfl

theorem closes_comma_or_bracket {c : UInt8} (hc : c = 0x2C ∨ c = 0x5D) (post : List UInt8) :
    Closes (c :: post) = true := by
  rcases hc with rfl | rfl <;> rfl

theorem size_memberText (x : String × Value × ByteArray) :
    (memberText x).size = (quote x.1).size + 1 + x.2.2.size := by
  rw [Utf8.size_eq_length, memberText_data]
  simp
  omega

/-- One written member, followed by a comma or the closing brace: the reader reads its name, its
colon and its value, and goes on after the byte that follows. -/
theorem members_at_written {x : String × Value × ByteArray} {c : UInt8} (hx : ReadsBack x.2.1 x.2.2)
    (h : Q.data.toList = pre ++ (memberText x).data.toList ++ c :: post) (hc : c = 0x2C ∨ c = 0x7D)
    (hd : depth + x.2.1.depth ≤ maxDepth) (hfuel : x.2.2.size ≤ fuel) (start : ℕ)
    (acc : Array (String × Node)) :
    ∃ n, n.Means Q x.2.1 ∧ n.raw Q = x.2.2 ∧
      members Q (fuel + 1) depth start pre.length acc =
        if c = 0x2C then
          members Q fuel depth start (skipSpace Q (pre.length + (memberText x).size + 1))
            (acc.push (x.1, n))
        else .ok (.object ⟨start, pre.length + (memberText x).size + 1⟩ (acc.push (x.1, n)).toList,
          pre.length + (memberText x).size + 1) := by
  obtain ⟨k, v, t⟩ := x
  have hsize := size_memberText (k, v, t)
  dsimp only at hx hd hfuel hsize ⊢
  rw [memberText_data] at h
  -- where the name, the colon, the value and the byte after it stand
  have hname : Q.data.toList = pre ++ (quote k).data.toList ++ (0x3A :: t.data.toList ++ c :: post) := by
    simp [h]
  have hcolon : Q.data.toList = (pre ++ (quote k).data.toList) ++ 0x3A :: (t.data.toList ++ c :: post) := by
    simp [h]
  have hvalue : Q.data.toList = (pre ++ (quote k).data.toList ++ [0x3A]) ++ t.data.toList ++ c :: post := by
    simp [h]
  have hafter : Q.data.toList = (pre ++ (quote k).data.toList ++ [0x3A] ++ t.data.toList) ++ c :: post := by
    simp [h]
  have hp1 : (pre ++ (quote k).data.toList).length = pre.length + (quote k).size := by simp
  have hp2 : (pre ++ (quote k).data.toList ++ [0x3A]).length = pre.length + (quote k).size + 1 := by
    simp
    omega
  have hp3 : (pre ++ (quote k).data.toList ++ [0x3A] ++ t.data.toList).length =
      pre.length + (memberText (k, v, t)).size := by
    simp
    omega
  obtain ⟨hq, hlt⟩ := byteAt_cons
    (show Q.data.toList = pre ++ 0x22 :: (escapedBytes k.toList ++ [0x22] ++ (0x3A :: t.data.toList ++ c :: post)) by
      simp [hname, quote_data])
  obtain ⟨hcol, hlt1⟩ := byteAt_at hcolon hp1
  obtain ⟨b, rest, hlead, hb, -⟩ := hx.lead_byte
  have hs2 := skipSpace_at_of (show Q.data.toList = (pre ++ (quote k).data.toList ++ [0x3A]) ++ b :: (rest ++ c :: post) by
    simp [hvalue, hlead]) hp2 hb
  obtain ⟨n, hn, hspan, hmeans⟩ := hx.reads hvalue (closes_comma_or_brace hc post) hd hfuel
  have hraw : n.raw Q = t := by
    rw [Node.raw, hspan]
    exact extract_of_data hvalue
  rw [hp2] at hn
  obtain ⟨hcb, hlt2⟩ := byteAt_at hafter hp3
  have hs3 := skipSpace_at_of hafter hp3 (by rcases hc with rfl | rfl <;> rfl)
  refine ⟨n, hmeans, hraw, ?_⟩
  rw [members, if_neg (by omega)]
  dsimp only
  rw [hq, if_neg (by decide), stringBody_quoted k hname]
  dsimp only
  rw [skipSpace_at_of hcolon hp1 (by decide), if_neg (by omega), hcol, if_neg (by decide), hs2, hn]
  dsimp only
  rw [show pre.length + (quote k).size + 1 + t.size = pre.length + (memberText (k, v, t)).size by omega,
    hs3, if_neg (by omega), hcb]
  rcases hc with rfl | rfl
  · simp
  · simp

/-- One written element, followed by a comma or the closing bracket: the reader reads it and
goes on after the byte that follows. -/
theorem elements_at_written {v : Value} {t : ByteArray} {c : UInt8} (hx : ReadsBack v t)
    (h : Q.data.toList = pre ++ t.data.toList ++ c :: post) (hc : c = 0x2C ∨ c = 0x5D)
    (hd : depth + v.depth ≤ maxDepth) (hfuel : t.size ≤ fuel) (start : ℕ) (acc : Array Node) :
    ∃ n, n.Means Q v ∧
      elements Q (fuel + 1) depth start pre.length acc =
        if c = 0x2C then
          elements Q fuel depth start (skipSpace Q (pre.length + t.size + 1)) (acc.push n)
        else .ok (.array ⟨start, pre.length + t.size + 1⟩ (acc.push n).toList,
          pre.length + t.size + 1) := by
  have hafter : Q.data.toList = (pre ++ t.data.toList) ++ c :: post := by simp [h]
  have hp : (pre ++ t.data.toList).length = pre.length + t.size := by simp
  obtain ⟨n, hn, -, hmeans⟩ := hx.reads h (closes_comma_or_bracket hc post) hd hfuel
  obtain ⟨hcb, hlt⟩ := byteAt_at hafter hp
  have hs := skipSpace_at_of hafter hp (by rcases hc with rfl | rfl <;> rfl)
  refine ⟨n, hmeans, ?_⟩
  rw [elements, hn]
  dsimp only
  rw [hs, if_neg (by omega), hcb]
  rcases hc with rfl | rfl
  · simp
  · simp

/-- The pieces joined start with the first piece. -/
theorem joinBytes_data_cons (sep a : ByteArray) (rest : List ByteArray) :
    ∃ tail, (joinBytes sep (a :: rest)).data.toList = a.data.toList ++ tail := by
  cases rest with
  | nil => exact ⟨[], by simp [joinBytes]⟩
  | cons b rest => exact ⟨_, by rw [joinBytes_cons_cons, ByteArray.data_append, Array.toList_append,
      ByteArray.data_append, Array.toList_append, List.append_assoc]⟩

/-- A member's text starts with the quote of its name. -/
theorem memberText_lead (x : String × Value × ByteArray) :
    ∃ rest, (memberText x).data.toList = 0x22 :: rest :=
  ⟨escapedBytes x.1.toList ++ [0x22] ++ 0x3A :: x.2.2.data.toList, by
    simp [memberText_data, quote_data]⟩

/-- Written members separated by commas and closed by a brace: the reader reads them all, each
as the value it was written for. -/
theorem members_written {L : List (String × Value × ByteArray)} (hL : L ≠ [])
    (hread : ∀ x ∈ L, ReadsBack x.2.1 x.2.2) (hd : ∀ x ∈ L, depth + x.2.1.depth ≤ maxDepth)
    (h : Q.data.toList = pre ++ (joinBytes (ascii ",") (L.map memberText)).data.toList ++ 0x7D :: post)
    (hfuel : (joinBytes (ascii ",") (L.map memberText)).size + 1 ≤ fuel) (start : ℕ)
    (acc : Array (String × Node)) :
    ∃ ms, members Q fuel depth start pre.length acc =
        .ok (.object ⟨start, pre.length + (joinBytes (ascii ",") (L.map memberText)).size + 1⟩
          (acc.toList ++ ms), pre.length + (joinBytes (ascii ",") (L.map memberText)).size + 1) ∧
      List.Forall₂ (ReadsEntry Q) ms L := by
  -- one member at a time, the ones before pushed onto the accumulator
  induction L generalizing pre fuel acc with
  | nil => exact absurd rfl hL
  | cons x rest ih =>
    obtain ⟨g, rfl⟩ : ∃ g, fuel = g + 1 := ⟨fuel - 1, by omega⟩
    have hx := hread x List.mem_cons_self
    have hxd := hd x List.mem_cons_self
    have hmt := size_memberText x
    cases rest with
    | nil =>
      -- the last member, closed by the brace
      have hj : joinBytes (ascii ",") ([x].map memberText) = memberText x := rfl
      rw [hj] at h hfuel ⊢
      obtain ⟨n, hn, hraw, heq⟩ := members_at_written hx h (.inr rfl) hxd
        (show x.2.2.size ≤ g by omega) start acc
      refine ⟨[(x.1, n)], ?_, .cons ⟨rfl, hn, hraw⟩ .nil⟩
      rw [heq, if_neg (by decide)]
      simp
    | cons y rest =>
      -- a member and a comma, then the members after it
      have hj : joinBytes (ascii ",") ((x :: y :: rest).map memberText) =
          (memberText x ++ ascii ",") ++ joinBytes (ascii ",") ((y :: rest).map memberText) := rfl
      have hsize : (joinBytes (ascii ",") ((x :: y :: rest).map memberText)).size =
          (memberText x).size + 1 + (joinBytes (ascii ",") ((y :: rest).map memberText)).size := by
        rw [hj, ByteArray.size_append, ByteArray.size_append]
        rfl
      rw [hj] at h
      rw [hsize] at hfuel ⊢
      obtain ⟨tail, htail⟩ := joinBytes_data_cons (ascii ",") (memberText y) (rest.map memberText)
      obtain ⟨rest', hrest'⟩ := memberText_lead y
      rw [← List.map_cons, hrest'] at htail
      generalize hJ : joinBytes (ascii ",") ((y :: rest).map memberText) = J at h hfuel ih htail ⊢
      have h1 : Q.data.toList =
          pre ++ (memberText x).data.toList ++ 0x2C :: (J.data.toList ++ 0x7D :: post) := by
        simp [h]
      obtain ⟨n, hn, hraw, heq⟩ := members_at_written hx h1 (.inl rfl) hxd
        (show x.2.2.size ≤ g by omega) start acc
      have h2 : Q.data.toList =
          (pre ++ (memberText x).data.toList ++ [0x2C]) ++ J.data.toList ++ 0x7D :: post := by
        simp [h1]
      have hp : (pre ++ (memberText x).data.toList ++ [0x2C]).length =
          pre.length + (memberText x).size + 1 := by
        simp
        omega
      -- the next member starts with its name's quote, no white space before it
      have hs := skipSpace_at_of (show Q.data.toList = (pre ++ (memberText x).data.toList ++ [0x2C]) ++
        0x22 :: (rest' ++ tail ++ 0x7D :: post) by simp [h2, htail]) hp (by decide)
      obtain ⟨ms, hms, hall⟩ := ih (List.cons_ne_nil y rest)
        (fun z hz => hread z (List.mem_cons_of_mem x hz))
        (fun z hz => hd z (List.mem_cons_of_mem x hz)) h2 (show J.size + 1 ≤ g by omega)
        (acc.push (x.1, n))
      refine ⟨(x.1, n) :: ms, ?_, .cons ⟨rfl, hn, hraw⟩ hall⟩
      rw [heq, if_pos rfl, hs, ← hp, hms, hp, Array.toList_push, List.append_assoc,
        List.singleton_append, show pre.length + (memberText x).size + 1 + J.size =
          pre.length + ((memberText x).size + 1 + J.size) by omega]

/-- Written elements separated by commas and closed by a bracket: the reader reads them all,
each as the value it was written for. -/
theorem elements_written {vs : List Value} {ts : List ByteArray} (hread : List.Forall₂ ReadsBack vs ts)
    (hne : ts ≠ []) (hd : ∀ v ∈ vs, depth + v.depth ≤ maxDepth)
    (h : Q.data.toList = pre ++ (joinBytes (ascii ",") ts).data.toList ++ 0x5D :: post)
    (hfuel : (joinBytes (ascii ",") ts).size + 1 ≤ fuel) (start : ℕ) (acc : Array Node) :
    ∃ ns, elements Q fuel depth start pre.length acc =
        .ok (.array ⟨start, pre.length + (joinBytes (ascii ",") ts).size + 1⟩ (acc.toList ++ ns),
          pre.length + (joinBytes (ascii ",") ts).size + 1) ∧
      List.Forall₂ (fun n v => n.Means Q v) ns vs := by
  -- one element at a time, the ones before pushed onto the accumulator
  induction hread generalizing pre fuel acc with
  | nil => exact absurd rfl hne
  | @cons v t vs ts hx hrest ih =>
    obtain ⟨g, rfl⟩ : ∃ g, fuel = g + 1 := ⟨fuel - 1, by omega⟩
    have hvd := hd v List.mem_cons_self
    cases hrest with
    | nil =>
      -- the last element, closed by the bracket
      have hj : joinBytes (ascii ",") [t] = t := rfl
      rw [hj] at h hfuel ⊢
      obtain ⟨n, hn, heq⟩ := elements_at_written hx h (.inr rfl) hvd (show t.size ≤ g by omega)
        start acc
      refine ⟨[n], ?_, .cons hn .nil⟩
      rw [heq, if_neg (by decide)]
      simp
    | @cons w u vs ts hw hrest =>
      -- an element and a comma, then the elements after it
      have hj : joinBytes (ascii ",") (t :: u :: ts) =
          (t ++ ascii ",") ++ joinBytes (ascii ",") (u :: ts) := rfl
      have hsize : (joinBytes (ascii ",") (t :: u :: ts)).size =
          t.size + 1 + (joinBytes (ascii ",") (u :: ts)).size := by
        rw [hj, ByteArray.size_append, ByteArray.size_append]
        rfl
      rw [hj] at h
      rw [hsize] at hfuel ⊢
      obtain ⟨tail, htail⟩ := joinBytes_data_cons (ascii ",") u ts
      obtain ⟨b, rest, hlead, hb, -⟩ := hw.lead_byte
      rw [hlead] at htail
      generalize hJ : joinBytes (ascii ",") (u :: ts) = J at h hfuel ih htail ⊢
      have h1 : Q.data.toList = pre ++ t.data.toList ++ 0x2C :: (J.data.toList ++ 0x5D :: post) := by
        simp [h]
      obtain ⟨n, hn, heq⟩ := elements_at_written hx h1 (.inl rfl) hvd (show t.size ≤ g by omega)
        start acc
      have h2 : Q.data.toList = (pre ++ t.data.toList ++ [0x2C]) ++ J.data.toList ++ 0x5D :: post := by
        simp [h1]
      have hp : (pre ++ t.data.toList ++ [0x2C]).length = pre.length + t.size + 1 := by
        simp
        omega
      -- the next element starts with no white space before it
      have hs := skipSpace_at_of (show Q.data.toList = (pre ++ t.data.toList ++ [0x2C]) ++
        b :: (rest ++ tail ++ 0x5D :: post) by simp [h2, htail]) hp hb
      obtain ⟨ns, hns, hall⟩ := ih (List.cons_ne_nil u ts)
        (fun z hz => hd z (List.mem_cons_of_mem v hz)) h2 (show J.size + 1 ≤ g by omega) (acc.push n)
      refine ⟨n :: ns, ?_, .cons hn hall⟩
      rw [heq, if_pos rfl, hs, ← hp, hns, hp, Array.toList_push, List.append_assoc,
        List.singleton_append, show pre.length + t.size + 1 + J.size =
          pre.length + (t.size + 1 + J.size) by omega]

/-- An object written from entries in the given order, each entry's text reading back: the
reader reads one member for each entry, named as the entry, meaning the entry's value. -/
theorem value_object_entries {L : List (String × Value × ByteArray)}
    (hread : ∀ x ∈ L, ReadsBack x.2.1 x.2.2) (hd : ∀ x ∈ L, depth + 1 + x.2.1.depth ≤ maxDepth)
    (hd1 : depth + 1 ≤ maxDepth)
    (h : Q.data.toList = pre ++ (Writer.object (L.map fun x => (x.1, x.2.2))).data.toList ++ post)
    (hfuel : (Writer.object (L.map fun x => (x.1, x.2.2))).size ≤ fuel) :
    ∃ ms, value Q fuel depth pre.length =
        .ok (.object ⟨pre.length, pre.length + (Writer.object (L.map fun x => (x.1, x.2.2))).size⟩ ms,
          pre.length + (Writer.object (L.map fun x => (x.1, x.2.2))).size) ∧
      List.Forall₂ (ReadsEntry Q) ms L := by
  rw [object_entries] at h hfuel ⊢
  generalize hJ : joinBytes (ascii ",") (L.map memberText) = J at h hfuel
  have hsize : ((ascii "\x7b" ++ J) ++ ascii "\x7d").size = J.size + 2 := by
    rw [ByteArray.size_append, ByteArray.size_append, show (ascii "\x7b").size = 1 from rfl,
      show (ascii "\x7d").size = 1 from rfl]
    omega
  rw [hsize] at hfuel ⊢
  obtain ⟨g, rfl⟩ : ∃ g, fuel = g + 1 := ⟨fuel - 1, by omega⟩
  cases L with
  | nil =>
    -- no members: the object is closed at once
    have hJ0 : J = ByteArray.empty := hJ.symm
    subst hJ0
    refine ⟨[], ?_, .nil⟩
    exact value_at_empty_object (by simpa using h) hd1
  | cons x rest =>
    -- the first member starts with its name's quote
    obtain ⟨tail, htail⟩ := joinBytes_data_cons (ascii ",") (memberText x) (rest.map memberText)
    obtain ⟨rest', hrest'⟩ := memberText_lead x
    rw [← List.map_cons, hJ, hrest'] at htail
    have h1 : Q.data.toList = (pre ++ [0x7B]) ++ J.data.toList ++ 0x7D :: post := by simp [h]
    rw [value_at_object (show Q.data.toList = pre ++ 0x7B :: 0x22 :: (rest' ++ tail ++ 0x7D :: post) by
      simp [h, htail]) (by decide) (by decide) hd1]
    have hp : (pre ++ [(0x7B : UInt8)]).length = pre.length + 1 := by simp
    rw [← hJ] at h1 hfuel
    obtain ⟨ms, hms, hall⟩ := members_written (List.cons_ne_nil x rest) hread hd h1
      (show _ + 1 ≤ g by omega) pre.length #[]
    rw [← hp, hms, hp, hJ]
    exact ⟨ms, by rw [show pre.length + 1 + J.size + 1 = pre.length + (J.size + 2) by omega]; rfl, hall⟩

end Loops

/-! ## Every written value reads back -/

theorem readsBack_null : ReadsBack .null Writer.null where
  lead := ⟨0x6E, [0x75, 0x6C, 0x6C], "null", rfl, by decide⟩
  reads := by
    intro Q pre post depth fuel h _ _ hfuel
    obtain ⟨g, rfl⟩ : ∃ g, fuel = g + 1 := ⟨fuel - 1, by have : Writer.null.size = 4 := rfl; omega⟩
    exact ⟨_, value_at_null h, rfl, rfl, rfl⟩

theorem readsBack_bool (b : Bool) : ReadsBack (.bool b) (Writer.bool b) where
  lead := by
    cases b
    · exact ⟨0x66, [0x61, 0x6C, 0x73, 0x65], "bool", rfl, by decide⟩
    · exact ⟨0x74, [0x72, 0x75, 0x65], "bool", rfl, by decide⟩
  reads := by
    intro Q pre post depth fuel h _ _ hfuel
    have hpos : 0 < (Writer.bool b).size := by cases b <;> decide
    obtain ⟨g, rfl⟩ : ∃ g, fuel = g + 1 := ⟨fuel - 1, by omega⟩
    exact ⟨_, value_at_bool b h, rfl, rfl, rfl⟩

theorem readsBack_string (s : String) : ReadsBack (.string s) (quote s) where
  lead := ⟨0x22, _, "string", by rw [quote_data, List.cons_append], by decide⟩
  reads := by
    intro Q pre post depth fuel h _ _ hfuel
    obtain ⟨g, rfl⟩ : ∃ g, fuel = g + 1 := ⟨fuel - 1, by rw [quote_size] at hfuel; omega⟩
    exact ⟨_, value_at_string s h, rfl, rfl, rfl⟩

theorem readsBack_number {x : Float} {t : String} (ht : Decimal.jsonText x = some t) :
    ReadsBack (.number x) (ascii t) where
  lead := by
    obtain ⟨b, rest, hlead, hb⟩ := jsonText_lead ht
    exact ⟨b, rest, "number", hlead, leadKind_of_number hb⟩
  reads := by
    intro Q pre post depth fuel h hpost _ hfuel
    obtain ⟨b, rest, hlead, -⟩ := jsonText_lead ht
    have hpos : 0 < (ascii t).size := by
      rw [Utf8.size_eq_length, hlead]
      simp
    obtain ⟨g, rfl⟩ : ∃ g, fuel = g + 1 := ⟨fuel - 1, by omega⟩
    -- the number's text is the written text, which reads as the same double
    have htext : numberText Q ⟨pre.length, pre.length + (ascii t).size⟩ = t := by
      rw [numberText, Utf8.size_eq_length]
      exact Utf8.decodeSlice_encode t h
    have hx : numberValue (numberText Q ⟨pre.length, pre.length + (ascii t).size⟩) = some x := by
      rw [htext, numberValue_jsonText ht]
    refine ⟨_, value_at_number ht h hpost, rfl, ?_, ?_⟩
    · simp [Node.looseFits, hx]
    · rw [value_loose_number Q hx]
      rfl

theorem readsBack_array {vs : List Value} {ts : List ByteArray} (hread : List.Forall₂ ReadsBack vs ts) :
    ReadsBack (.array vs) (Writer.array ts) where
  lead := ⟨0x5B, (joinBytes (ascii ",") ts).data.toList ++ [0x5D], "array", by simp [Writer.array],
    by decide⟩
  reads := by
    intro Q pre post depth fuel h _ hd hfuel
    unfold Writer.array at h hfuel ⊢
    generalize hJ : joinBytes (ascii ",") ts = J at h hfuel
    have hsize : ((ascii "[" ++ J) ++ ascii "]").size = J.size + 2 := by
      rw [ByteArray.size_append, ByteArray.size_append, show (ascii "[").size = 1 from rfl,
        show (ascii "]").size = 1 from rfl]
      omega
    rw [hsize] at hfuel ⊢
    obtain ⟨g, rfl⟩ : ∃ g, fuel = g + 1 := ⟨fuel - 1, by omega⟩
    have hdepth : ∀ v ∈ vs, depth + 1 + v.depth ≤ maxDepth := by
      have := (itemsDepth_le_iff vs _).1 le_rfl
      intro v hv
      have := this v hv
      simp only [Value.depth] at hd
      omega
    have hd1 : depth + 1 ≤ maxDepth := by
      simp only [Value.depth] at hd
      omega
    cases hread with
    | nil =>
      -- no elements: the array is closed at once
      have hJ0 : J = ByteArray.empty := hJ.symm
      subst hJ0
      refine ⟨_, value_at_empty_array (by simpa using h) hd1, rfl, rfl, ?_⟩
      rw [value_loose_array]
      rfl
    | @cons v t vs ts hx hrest =>
      obtain ⟨tail, htail⟩ := joinBytes_data_cons (ascii ",") t ts
      obtain ⟨b, rest, hlead, hb, hc⟩ := hx.lead_byte
      rw [hJ, hlead] at htail
      have h1 : Q.data.toList = (pre ++ [0x5B]) ++ J.data.toList ++ 0x5D :: post := by simp [h]
      rw [value_at_array (show Q.data.toList = pre ++ 0x5B :: b :: (rest ++ tail ++ 0x5D :: post) by
        simp [h, htail]) hb hc hd1]
      have hp : (pre ++ [(0x5B : UInt8)]).length = pre.length + 1 := by simp
      rw [← hJ] at h1 hfuel
      obtain ⟨ns, hns, hall⟩ := elements_written (.cons hx hrest) (List.cons_ne_nil t ts) hdepth h1
        (show _ + 1 ≤ g by omega) pre.length #[]
      rw [← hp, hns, hp, hJ, Array.toList_empty, List.nil_append,
        show pre.length + 1 + J.size + 1 = pre.length + (J.size + 2) by omega]
      refine ⟨_, rfl, rfl, by rw [Node.looseFits]; exact looseFitsItems_of_forall₂ hall, ?_⟩
      rw [value_loose_array, looseItems_of_forall₂ hall, normal_array]

/-- The writer sorts written members by name as the entries they were written from. -/
theorem sortByName_entries (L : List (String × Value × ByteArray)) :
    sortByName (L.map fun x => (x.1, x.2.2)) = (sortMembers L).map fun x => (x.1, x.2.2) := by
  rw [sortByName_eq]
  exact sortMembers_map Prod.snd L

theorem readsBack_object {L : List (String × Value × ByteArray)}
    (hread : ∀ x ∈ L, ReadsBack x.2.1 x.2.2) :
    ReadsBack (.object (L.map fun x => (x.1, x.2.1)))
      (Writer.object (sortByName (L.map fun x => (x.1, x.2.2)))) := by
  rw [sortByName_entries]
  -- the members are written in name order, each reading back as before
  have hS : ∀ x ∈ sortMembers L, ReadsBack x.2.1 x.2.2 :=
    fun x hx => hread x ((perm_sortMembers L).mem_iff.1 hx)
  refine ⟨⟨0x7B, (joinBytes (ascii ",") ((sortMembers L).map memberText)).data.toList ++ [0x7D],
    "object", by simp [object_entries], by decide⟩, ?_⟩
  intro Q pre post depth fuel h _ hd hfuel
  simp only [Value.depth] at hd
  have hdepth : ∀ x ∈ sortMembers L, depth + 1 + x.2.1.depth ≤ maxDepth := by
    intro x hx
    have hmem : (x.1, x.2.1) ∈ L.map fun x => (x.1, x.2.1) :=
      List.mem_map_of_mem ((perm_sortMembers L).mem_iff.1 hx)
    have hx : x.2.1.depth ≤ Value.membersDepth (L.map fun x => (x.1, x.2.1)) :=
      (membersDepth_le_iff _ _).1 le_rfl _ hmem
    omega
  obtain ⟨ms, hms, hall⟩ := value_object_entries hS hdepth (by omega) h hfuel
  refine ⟨_, hms, rfl, by rw [Node.looseFits]; exact looseFitsMembers_of_forall₂ hall, ?_⟩
  -- the members are inserted in name order, as the normal form has them
  rw [value_loose_object, looseMembers_of_forall₂ hall, normal_object, Dict.normal, List.map_map]
  congr 2
  exact (sortMembers_map (fun p : Value × ByteArray => p.1.normal) L).symm

mutual

/-- Every text the writer makes of a value reads back as that value. -/
theorem readsBack_render : ∀ (v : Value) {t : ByteArray}, v.render = .ok t → ReadsBack v t
  | .null, _, h => by
    rw [Value.render] at h
    cases h
    exact readsBack_null
  | .bool b, _, h => by
    rw [Value.render] at h
    cases h
    exact readsBack_bool b
  | .number x, _, h => by
    rw [Value.render] at h
    split at h
    · rename_i t ht
      cases h
      exact readsBack_number ht
    · cases h
  | .string s, _, h => by
    rw [Value.render] at h
    cases h
    exact readsBack_string s
  | .array items, _, h => by
    rw [Value.render] at h
    obtain ⟨ts, hts, rfl⟩ := map_eq_ok h
    exact readsBack_array (readsBack_items items hts)
  | .object ms, _, h => by
    rw [Value.render] at h
    obtain ⟨rs, hrs, rfl⟩ := map_eq_ok h
    obtain ⟨L, rfl, rfl, hL⟩ := readsBack_members ms hrs
    exact readsBack_object hL

theorem readsBack_items : ∀ (vs : List Value) {ts : List ByteArray}, renderItems vs = .ok ts →
    List.Forall₂ ReadsBack vs ts
  | [], _, h => by
    rw [renderItems] at h
    cases h
    exact .nil
  | v :: vs, _, h => by
    rw [renderItems] at h
    cases hv : v.render with
    | error e =>
      rw [hv] at h
      cases h
    | ok t =>
      cases hvs : renderItems vs with
      | error e =>
        rw [hv, hvs] at h
        cases h
      | ok ts =>
        rw [hv, hvs] at h
        cases h
        exact .cons (readsBack_render v hv) (readsBack_items vs hvs)

theorem readsBack_members : ∀ (ms : List (String × Value)) {rs : List (String × ByteArray)},
    renderMembers ms = .ok rs → ∃ L : List (String × Value × ByteArray),
      ms = L.map (fun x => (x.1, x.2.1)) ∧ rs = L.map (fun x => (x.1, x.2.2)) ∧
        ∀ x ∈ L, ReadsBack x.2.1 x.2.2
  | [], _, h => by
    rw [renderMembers] at h
    cases h
    exact ⟨[], rfl, rfl, by simp⟩
  | (k, v) :: ms, _, h => by
    rw [renderMembers] at h
    cases hv : v.render with
    | error e =>
      rw [hv] at h
      cases h
    | ok t =>
      cases hms : renderMembers ms with
      | error e =>
        rw [hv, hms] at h
        cases h
      | ok rs =>
        rw [hv, hms] at h
        cases h
        obtain ⟨L, rfl, rfl, hL⟩ := readsBack_members ms hms
        refine ⟨(k, v, t) :: L, rfl, rfl, ?_⟩
        intro x hx
        rcases List.mem_cons.1 hx with rfl | hx
        · exact readsBack_render v hv
        · exact hL x hx

end

/-- A document whose value the reader reads up to its end is read as that value. -/
theorem parse_of_value {t : ByteArray} {n : Node} {b : UInt8} {rest : List UInt8}
    (hlead : t.data.toList = b :: rest) (hb : isSpace b = false)
    (hv : value t (2 * t.size + 4) 0 0 = .ok (n, t.size)) : parse t = .ok n := by
  have hend : skipSpace t t.size = t.size := by
    have := skipSpace_closes (show t.data.toList = t.data.toList ++ [] by simp) rfl
    rwa [← Utf8.size_eq_length] at this
  have hstart : skipSpace t 0 = 0 := skipSpace_at_of
    (show t.data.toList = [] ++ b :: rest by simp [hlead]) (show ([] : List UInt8).length = 0 from rfl) hb
  exact parse_eq_ok.2 ⟨t.size, by rw [hstart]; exact hv, by rw [hend]⟩

/-- A written value, parsed as a document, reads back as its normal form. -/
theorem parse_render {v : Value} {t : ByteArray} (h : v.render = .ok t) (hd : v.depth ≤ maxDepth) :
    ∃ n, parse t = .ok n ∧ n.Means t v := by
  have hr := readsBack_render v h
  obtain ⟨b, rest, hlead, hb, -⟩ := hr.lead_byte
  obtain ⟨n, hn, -, hmeans⟩ := hr.reads (show t.data.toList = [] ++ t.data.toList ++ [] by simp) rfl
    (show 0 + v.depth ≤ maxDepth by omega) (show t.size ≤ 2 * t.size + 4 by omega)
  exact ⟨n, parse_of_value hlead hb (by simpa using hn), hmeans⟩

end TurnRelay.Json
