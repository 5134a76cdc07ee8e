import Mathlib
import TurnRelay.Proofs.Json.Reparse
import TurnRelay.Proofs.Json.Decoding
import TurnRelay.Proofs.Text.Space
import TurnRelay.Api.Request

/-!
# Reading a request body

A request body is trimmed of white space and must then be one JSON object; everything inside it
is read permissively. The body's members are first kept as raw bytes, the last member that
selects each field (up to case) winning; then the model is read from its bytes as a string, the
stream flag as a boolean, and each element of the messages array as a message, strictly and, when
a role member has the wrong kind, for its content alone. A value of the wrong kind never makes
the body fail: the field is left empty.

This module states what a body stands for as a function of its parsed tree (`requestOf`,
`messageOf`) and proves that decoding gives exactly that, and fails exactly on bodies that are
not one object. The raw bytes kept for a member are read again from scratch; that they parse to
the member itself is `Node.ReadsAlone`.

## Main results

* `readMessage_raw`: an element of the messages array read from its own bytes.
* `text_rawOf`, `flag_rawOf`, `messages_rawOf`: the fields read from the last member's bytes.
* `decode_eq_ok_iff`: a body decodes exactly when, trimmed, it parses to an object, and then to
  `requestOf` its members.
-/

namespace TurnRelay.Json

/-! ## Values read from their own bytes -/

@[simp] theorem Node.textual_shift (o : ℕ) (n : Node) : (n.shift o).textual = n.textual := by
  cases n <;> simp [Node.shift_array, Node.shift_object, Node.textual]

@[simp] theorem Node.textValue_shift (o : ℕ) (n : Node) : (n.shift o).textValue = n.textValue := by
  cases n <;> simp [Node.shift_array, Node.shift_object, Node.textValue]

@[simp] theorem Node.stringValue?_shift (o : ℕ) (n : Node) :
    (n.shift o).stringValue? = n.stringValue? := by
  cases n <;> simp [Node.shift_array, Node.shift_object, Node.stringValue?]

theorem membersNamed_shift (field : String) (o : ℕ) (ms : List (String × Node)) :
    membersNamed field (ms.map (Node.shiftMember o)) = (membersNamed field ms).map (Node.shift o) := by
  induction ms with
  | nil => rfl
  | cons m ms ih =>
    rw [List.map_cons, Node.shiftMember, membersNamed_cons, membersNamed_cons, ih]
    split <;> rfl

/-- A child of a value that reads alone, moved with its parent's bytes, has its own bytes. -/
theorem Node.ReadsAlone.raw_shift_child {src : ByteArray} {n c : Node} (h : n.ReadsAlone src)
    (hc : c ∈ n.children) : (c.shift n.span.start).raw (n.raw src) = c.raw src := by
  obtain ⟨hstart, hstop, hcr⟩ := h.child hc
  exact Node.raw_shift hstart (Nat.le_of_lt hcr.span_lt) hstop

theorem mem_children_of_membersNamed {field : String} {sp : Span} {ms : List (String × Node)}
    {v : Node} (hv : v ∈ membersNamed field ms) : v ∈ (Node.object sp ms).children := by
  obtain ⟨m, hm, rfl⟩ := List.mem_map.1 hv
  exact List.mem_map_of_mem (List.mem_filter.1 hm).1

/-- The bytes a raw field keeps from an object read out of its own bytes are those it keeps in
the document. -/
theorem rawOf_shift {src d : ByteArray} {sp : Span} {ms : List (String × Node)}
    (h : (Node.object sp ms).ReadsAlone src) (field : String) :
    rawOf field ((Node.object sp ms).raw src) d (ms.map (Node.shiftMember sp.start)) =
      rawOf field src d ms := by
  rw [rawOf, rawOf, membersNamed_shift, List.map_map]
  congr 1
  apply List.map_congr_left
  intro v hv
  exact h.raw_shift_child (mem_children_of_membersNamed hv)

/-! ## Trimmed bodies -/

theorem eq_of_leadKind_object {b : UInt8} (h : leadKind b = some "object") : b = 0x7B := by
  unfold leadKind at h
  split_ifs at h <;> simp_all

/-- A trimmed body does not start with JSON white space: each of the four bytes of JSON white
space is a white-space character by itself, which trimming removes. -/
theorem isSpace_trimSpace_head {body : ByteArray} (h : 0 < (Utf8.trimSpace body).size) :
    isSpace (Utf8.byteAt (Utf8.trimSpace body) 0) = false := by
  obtain ⟨-, -, -, -, ht, -⟩ := Utf8.trimSpace_spec body
  have hne : (Utf8.trimSpace body).data.toList ≠ [] := by
    rw [← List.length_pos_iff, Array.length_toList]
    exact h
  obtain ⟨b, r, hbr⟩ := List.exists_cons_of_ne_nil hne
  rcases ht with hnil | ⟨hlead, -⟩
  · exact absurd hnil hne
  have hb : Utf8.byteAt (Utf8.trimSpace body) 0 = b := by
    rw [Utf8.byteAt_eq, hbr]
    rfl
  rw [hb]
  cases hsp : isSpace b
  · rfl
  · exfalso
    simp only [isSpace, Bool.or_eq_true, beq_iff_eq] at hsp
    rcases hsp with ((rfl | rfl) | rfl) | rfl
    · exact hlead ' ' r (by decide) hbr
    · exact hlead '\t' r (by decide) hbr
    · exact hlead '\n' r (by decide) hbr
    · exact hlead '\r' r (by decide) hbr

/-- A trimmed body that parses is not empty, and its first byte starts a value of the kind it
parses to. -/
theorem parse_trimSpace_leadKind {body : ByteArray} {n : Node}
    (hp : parse (Utf8.trimSpace body) = .ok n) :
    0 < (Utf8.trimSpace body).size ∧
      leadKind (Utf8.byteAt (Utf8.trimSpace body) 0) = some n.kindName := by
  have hpos : 0 < (Utf8.trimSpace body).size := by
    rcases Nat.eq_zero_or_pos (Utf8.trimSpace body).size with h0 | hpos
    · obtain ⟨e, he⟩ := parse_of_size_eq_zero h0
      rw [he] at hp
      cases hp
    · exact hpos
  obtain ⟨hstart, hn⟩ := parse_readFrom hp
  have hskip : skipSpace (Utf8.trimSpace body) 0 = 0 :=
    skipSpace_of_not_space (isSpace_trimSpace_head hpos)
  refine ⟨hpos, ?_⟩
  rw [← hskip, ← hstart]
  exact hn.leadKind

end TurnRelay.Json

namespace TurnRelay.Api

open TurnRelay.Json

/-! ## What a body stands for -/

/-- The message an element of a request's messages stands for. An object gives the bytes of its
last content member, and as role the last string among its role members, unless one of those is
neither a string nor null; then the role is empty. Any other value gives an empty message. -/
def messageOf (src : ByteArray) : Node → ChatMessage
  | .object _ ms =>
    { role := if (membersNamed "role" ms).all Node.textual then
        ((membersNamed "role" ms).filterMap Node.stringValue?).getLastD "" else "",
      content := ⟨rawOf "content" src .empty ms⟩ }
  | _ => {}

/-- The request a body stands for, read from the members of the object it holds: the last model
member's text when it is a string, whether the last stream member is true, the bytes of the last
system member, and one message for each element of the last messages member when it is an
array. -/
def requestOf (src : ByteArray) (ms : List (String × Node)) : InboundRequest where
  model := ((membersNamed "model" ms).getLast?.bind Node.stringValue?).getD ""
  stream := match (membersNamed "stream" ms).getLast? with
    | some (.bool _ b) => b
    | _ => false
  system := ⟨rawOf "system" src .empty ms⟩
  messages := match (membersNamed "messages" ms).getLast? with
    | some (.array _ items) => items.map (messageOf src)
    | _ => []

/-! ## Reading the members -/

/-- No member name selects both the field called stream and the field called system. -/
theorem foldMatches_system_of_stream {k : String} (h : foldMatches k "stream" = true) :
    foldMatches k "system" = false := by
  unfold foldMatches at h ⊢
  generalize k.toList = ks at h ⊢
  match ks with
  | [c0, c1, c2, c3, c4, c5] =>
    simp at h ⊢
    -- the second letter tells the names apart
    obtain ⟨-, h1, -⟩ := h
    rintro - (rfl | rfl) <;> simp at h1
  | [] | [_] | [_, _] | [_, _, _] | [_, _, _, _] | [_, _, _, _, _]
    | _ :: _ :: _ :: _ :: _ :: _ :: _ :: _ => simp at h ⊢

/-- Reading a body's members keeps, for each of the four fields, the bytes of the last member
that selects it, and never records a mismatch. -/
theorem requestParts_run (sp : Span) (ms : List (String × Node)) (p : RequestParts) (sc : Scope)
    (st : Option TypeMismatch) :
    (ReaderT.run (RequestParts.reader p (.object sp ms)) sc).run st =
      ({ model := rawOf "model" sc.src p.model ms, stream := rawOf "stream" sc.src p.stream ms,
         system := rawOf "system" sc.src p.system ms,
         messages := rawOf "messages" sc.src p.messages ms }, st) := by
  induction ms generalizing p st with
  | nil => rfl
  | cons m ms ih =>
    obtain ⟨k, v⟩ := m
    rw [RequestParts.reader] at ih ⊢
    rw [record_cons, run_bind]
    simp only [rawOf_cons]
    by_cases h1 : foldMatches k "model" = true
    · have h2 := foldMatches_eq_false_of_length h1 (g := "stream") (by decide)
      have h3 := foldMatches_eq_false_of_length h1 (g := "system") (by decide)
      have h4 := foldMatches_eq_false_of_length h1 (g := "messages") (by decide)
      simp only [List.find?_cons, h1, h2, h3, h4]
      rw [ih]
      rfl
    have h1' : foldMatches k "model" = false := by simpa using h1
    by_cases h2 : foldMatches k "stream" = true
    · have h3 := foldMatches_system_of_stream h2
      have h4 := foldMatches_eq_false_of_length h2 (g := "messages") (by decide)
      simp only [List.find?_cons, h1', h2, h3, h4]
      rw [ih]
      rfl
    have h2' : foldMatches k "stream" = false := by simpa using h2
    by_cases h3 : foldMatches k "system" = true
    · have h4 := foldMatches_eq_false_of_length h3 (g := "messages") (by decide)
      simp only [List.find?_cons, h1', h2', h3, h4]
      rw [ih]
      rfl
    have h3' : foldMatches k "system" = false := by simpa using h3
    by_cases h4 : foldMatches k "messages" = true
    · simp only [List.find?_cons, h1', h2', h3', h4]
      rw [ih]
      rfl
    · have h4' : foldMatches k "messages" = false := by simpa using h4
      simp only [List.find?_cons, h1', h2', h3', h4', List.find?_nil]
      rw [ih]
      rfl

/-- Reading a message's content alone keeps the bytes of the last member that selects it. -/
theorem looseContent_run (sp : Span) (ms : List (String × Node)) (c : Content) (sc : Scope)
    (st : Option TypeMismatch) :
    (ReaderT.run (looseContent c (.object sp ms)) sc).run st = (⟨rawOf "content" sc.src c.raw ms⟩, st) := by
  induction ms generalizing c st with
  | nil => rfl
  | cons m ms ih =>
    obtain ⟨k, v⟩ := m
    rw [looseContent] at ih ⊢
    rw [record_cons, run_bind, rawOf_cons]
    by_cases hk : foldMatches k "content" = true
    · simp only [List.find?_cons, hk, if_true]
      rw [ih]
      rfl
    · have hk' : foldMatches k "content" = false := by simpa using hk
      simp only [List.find?_cons, hk', List.find?_nil]
      rw [ih]
      rfl

/-- A message is a record of a string field, its role, and a raw field, its content. -/
def chatMessageRecord : TextRawRecord ChatMessage where
  textName := "role"
  rawName := "content"
  getText m := m.role
  setText m x := { m with role := x }
  getRaw m := m.content.raw
  setRaw m y := { m with content := ⟨y⟩ }
  getText_setText _ _ := rfl
  getRaw_setText _ _ := rfl
  getText_setRaw _ _ := rfl
  getRaw_setRaw _ _ := rfl
  disjoint _ h := foldMatches_eq_false_of_length h (by decide)

theorem chatMessage_reader : ChatMessage.reader = record "types.Message" chatMessageRecord.fields :=
  rfl

/-! ## Messages -/

/-- An element of a request's messages, read from its own bytes, is the message it stands for:
role and content read strictly, and when a role member has the wrong kind, the content alone. -/
theorem readMessage_raw {src : ByteArray} {e : Node} (he : e.ReadsAlone src) :
    readMessage (e.raw src) = messageOf src e := by
  unfold readMessage Decoder.read
  rw [he.parse_raw]
  cases e with
  | object sp ms =>
    rw [Node.shift_object]
    unfold Decoder.run
    rw [chatMessage_reader]
    obtain ⟨hrole, hcontent, hok⟩ := chatMessageRecord.run "types.Message" (sp.shift sp.start)
      (ms.map (Node.shiftMember sp.start)) {} ⟨(Node.object sp ms).raw src, "", []⟩ none
    rcases hr : (ReaderT.run (record "types.Message" chatMessageRecord.fields {}
      (.object (sp.shift sp.start) (ms.map (Node.shiftMember sp.start))))
        ⟨(Node.object sp ms).raw src, "", []⟩).run none with ⟨m, st⟩
    rw [hr] at hrole hcontent hok
    have hrole' : m.role = ((membersNamed "role" ms).filterMap Node.stringValue?).getLastD "" := by
      simpa [chatMessageRecord, membersNamed_shift, List.filterMap_map, Function.comp_def]
        using hrole
    have hcontent' : m.content.raw = rawOf "content" src .empty ms :=
      hcontent.trans (rawOf_shift he "content")
    have hok' : st.isNone = (membersNamed "role" ms).all Node.textual := by
      simpa [chatMessageRecord, membersNamed_shift, List.all_map, Function.comp_def] using hok
    simp only [Node.span, hr]
    cases st with
    | none =>
      -- the strict read succeeds
      have hall : (membersNamed "role" ms).all Node.textual = true := by simpa using hok'.symm
      simp only [messageOf, hall, if_true]
      rw [← hrole', ← hcontent']
    | some _ =>
      -- a role member of another kind: the content is read alone
      have hall : (membersNamed "role" ms).all Node.textual = false := by simpa using hok'.symm
      simp only [messageOf, hall, Bool.false_eq_true, if_false, looseContent_run, rawOf_shift he]
  | _ =>
    simp only [Node.shift_null, Node.shift_bool, Node.shift_number, Node.shift_string,
      Node.shift_array]
    rfl

/-! ## Fields read from the last member selecting them -/

section LastMember

variable {src : ByteArray} {field : String} {ms : List (String × Node)}

/-- Empty bytes are not JSON, whatever they are read into. -/
theorem read_empty {α : Type} (reader : Node → Decoder α) :
    ∃ e, Decoder.read ByteArray.empty "" reader = .error e := by
  obtain ⟨e, he⟩ := parse_of_size_eq_zero (show ByteArray.empty.size = 0 from rfl)
  exact ⟨.notJson e, by rw [Decoder.read, he]⟩

/-- A string field read from the bytes of the last member selecting it: that member's text when it
is a string, and empty otherwise. -/
theorem text_rawOf (hl : ∀ v ∈ membersNamed field ms, v.ReadsAlone src) :
    (match Decoder.read (rawOf field src .empty ms) "" (Json.text "string" "") with
      | .ok s => s
      | .error _ => "") = ((membersNamed field ms).getLast?.bind Node.stringValue?).getD "" := by
  rw [rawOf, List.getLastD_eq_getLast?, List.getLast?_map]
  cases hlast : (membersNamed field ms).getLast? with
  | none =>
    obtain ⟨e, he⟩ := read_empty (Json.text "string" "")
    rw [Option.map_none, Option.getD_none, he]
    rfl
  | some v =>
    rw [Option.map_some, Option.getD_some, Decoder.read, (hl v (List.mem_of_getLast? hlast)).parse_raw]
    cases v <;> simp only [Node.shift_null, Node.shift_bool, Node.shift_number, Node.shift_string,
      Node.shift_array, Node.shift_object] <;> rfl

/-- A flag read from the bytes of the last member selecting it: true exactly when that member is
true. -/
theorem flag_rawOf (hl : ∀ v ∈ membersNamed field ms, v.ReadsAlone src) :
    (match Decoder.read (rawOf field src .empty ms) "" (flag false) with
      | .ok b => b
      | .error _ => false) = match (membersNamed field ms).getLast? with
      | some (.bool _ b) => b
      | _ => false := by
  rw [rawOf, List.getLastD_eq_getLast?, List.getLast?_map]
  cases hlast : (membersNamed field ms).getLast? with
  | none =>
    obtain ⟨e, he⟩ := read_empty (flag false)
    rw [Option.map_none, Option.getD_none, he]
  | some v =>
    rw [Option.map_some, Option.getD_some, Decoder.read, (hl v (List.mem_of_getLast? hlast)).parse_raw]
    cases v <;> simp only [Node.shift_null, Node.shift_bool, Node.shift_number, Node.shift_string,
      Node.shift_array, Node.shift_object] <;> rfl

/-- The messages read from the bytes of the last member selecting them: one for each element when
that member is an array, in order, and none otherwise. -/
theorem messages_rawOf (hl : ∀ v ∈ membersNamed field ms, v.ReadsAlone src) :
    (match Decoder.read (rawOf field src .empty ms) ""
        (list "[]json.RawMessage" (raw ByteArray.empty) none) with
      | .ok (some xs) => xs
      | _ => []).map readMessage = match (membersNamed field ms).getLast? with
      | some (.array _ items) => items.map (messageOf src)
      | _ => [] := by
  rw [rawOf, List.getLastD_eq_getLast?, List.getLast?_map]
  cases hlast : (membersNamed field ms).getLast? with
  | none =>
    obtain ⟨e, he⟩ := read_empty (list "[]json.RawMessage" (raw ByteArray.empty) none)
    rw [Option.map_none, Option.getD_none, he]
    rfl
  | some v =>
    have hv := hl v (List.mem_of_getLast? hlast)
    rw [Option.map_some, Option.getD_some, Decoder.read, hv.parse_raw]
    cases v with
    | array sp items =>
      rw [Node.shift_array]
      unfold Decoder.run
      simp only [list_raw_run, List.map_map]
      apply List.map_congr_left
      intro e he
      -- each element is read from its own bytes, which are those it has in the body
      simp only [Function.comp_apply]
      rw [hv.raw_shift_child he]
      exact readMessage_raw (hv.child he).2.2
    | _ =>
      simp only [Node.shift_null, Node.shift_bool, Node.shift_number, Node.shift_string,
        Node.shift_object]
      rfl

end LastMember

/-! ## Decoding a body -/

/-- A body that, trimmed, parses to an object is read as the request its members stand for. -/
theorem decode_of_object {body : ByteArray} {sp : Span} {ms : List (String × Node)}
    (hp : parse (Utf8.trimSpace body) = .ok (.object sp ms)) :
    InboundRequest.decode body = .ok (requestOf (Utf8.trimSpace body) ms) := by
  obtain ⟨hpos, hlead⟩ := parse_trimSpace_leadKind hp
  have h0 : Utf8.byteAt (Utf8.trimSpace body) 0 = 0x7B := eq_of_leadKind_object hlead
  have hall : ∀ f, ∀ v ∈ membersNamed f ms, v.ReadsAlone (Utf8.trimSpace body) := fun f v hv =>
    ((parse_readsAlone hp).child (mem_children_of_membersNamed hv)).2.2
  have hguard : ((Utf8.trimSpace body).size == 0 || Utf8.byteAt (Utf8.trimSpace body) 0 != 0x7B) =
      false := by
    simp only [h0, bne_self_eq_false, Bool.or_false, beq_eq_false_iff_ne]
    omega
  have hread : Decoder.read (Utf8.trimSpace body) "" (RequestParts.reader {}) = .ok
      { model := rawOf "model" (Utf8.trimSpace body) .empty ms,
        stream := rawOf "stream" (Utf8.trimSpace body) .empty ms,
        system := rawOf "system" (Utf8.trimSpace body) .empty ms,
        messages := rawOf "messages" (Utf8.trimSpace body) .empty ms } := by
    rw [Decoder.read, hp]
    unfold Decoder.run
    simp only [requestParts_run]
  unfold InboundRequest.decode
  simp only [hguard, hread, Bool.false_eq_true, if_false]
  refine congrArg Except.ok ?_
  rw [requestOf, InboundRequest.mk.injEq]
  refine ⟨?_, ?_, rfl, ?_⟩
  · have h := text_rawOf (hall "model")
    generalize Decoder.read (rawOf "model" (Utf8.trimSpace body) .empty ms) "" (text "string" "") = rm at h ⊢
    exact h
  · have h := flag_rawOf (hall "stream")
    generalize Decoder.read (rawOf "stream" (Utf8.trimSpace body) .empty ms) "" (flag false) = rm at h ⊢
    exact h
  · have h := messages_rawOf (hall "messages")
    generalize Decoder.read (rawOf "messages" (Utf8.trimSpace body) .empty ms) ""
      (list "[]json.RawMessage" (raw ByteArray.empty) none) = rm at h ⊢
    exact h

/-- A body is read as a request only when, trimmed, it parses to an object. -/
theorem object_of_decode {body : ByteArray} {r : InboundRequest}
    (h : InboundRequest.decode body = .ok r) :
    ∃ sp ms, parse (Utf8.trimSpace body) = .ok (.object sp ms) := by
  unfold InboundRequest.decode at h
  dsimp only at h
  split_ifs at h with hguard
  split at h
  · cases h
  · rename_i parts hread
    rw [Decoder.read] at hread
    split at hread
    · cases hread
    · rename_i n hp
      -- the first byte is an opening brace, which starts only objects
      have hkind : n.kindName = "object" := by
        have hlead := (parse_trimSpace_leadKind hp).2
        simp only [Bool.or_eq_true, beq_iff_eq, bne_iff_ne, ne_eq, not_or, not_not] at hguard
        rw [hguard.2] at hlead
        exact (Option.some.inj hlead).symm
      cases n with
      | object sp ms => exact ⟨sp, ms, hp⟩
      | _ => simp [Node.kindName] at hkind

/-- A body is read as a request exactly when, with white space trimmed from both ends, it is one
JSON object; members of the wrong kind never make it fail. The request then holds the last model
member's text when it is a string, whether the last stream member is true, the bytes of the
last system member, and for each element of the last messages member, when that is an array,
the message it stands for, in order. -/
theorem decode_eq_ok_iff {body : ByteArray} {r : InboundRequest} :
    InboundRequest.decode body = .ok r ↔
      ∃ sp ms, parse (Utf8.trimSpace body) = .ok (.object sp ms) ∧
        r = requestOf (Utf8.trimSpace body) ms := by
  constructor
  · intro h
    obtain ⟨sp, ms, hp⟩ := object_of_decode h
    refine ⟨sp, ms, hp, ?_⟩
    rw [decode_of_object hp] at h
    exact (Except.ok.inj h).symm
  · rintro ⟨sp, ms, hp, rfl⟩
    exact decode_of_object hp

end TurnRelay.Api
