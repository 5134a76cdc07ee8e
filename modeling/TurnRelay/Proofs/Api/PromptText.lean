import Mathlib
import TurnRelay.Proofs.Json.Decoding
import TurnRelay.Proofs.Text.Space
import TurnRelay.Api.Request

/-!
# The prompt text of content and system text

A message's content and the system text keep the client's raw JSON, and their prompt text is
worked out from those bytes: a string gives its text, an array the texts of its text blocks, and
other values their own bytes (content) or nothing (system text). This module proves that, for
any JSON value held without white space around it, the prompt text is what the value's tree
says, with text blocks picked out by `textBlock`.

The element reader matches member names up to case, lets later members replace earlier ones,
lets `null` leave the block's type alone, and keeps the raw bytes of the text member, which are
then read as a string. So a block is passed over when a member named type is neither a string
nor null, and a block whose text is `null` is kept with empty text.

## Main results

* `blockHead_run`: the element reader as a fold over the members.
* `stringText_raw`: a value's own bytes read as a string give its text.
* `blockText_eq`: an element read from a document is a text block as `textBlock` says.
* `promptText_of_value`: the prompt text of content and of system text.
-/

namespace TurnRelay.Api

open TurnRelay.Json

/-- No member name selects both the field called type and the field called text. -/
theorem foldMatches_text_of_type {k : String} (h : foldMatches k "type" = true) :
    foldMatches k "text" = false := by
  unfold foldMatches at h ⊢
  generalize k.toList = ks at h ⊢
  match ks with
  | [c0, c1, c2, c3] =>
    simp at h ⊢
    -- the second letter tells the names apart
    obtain ⟨-, h1, -⟩ := h
    rintro - (rfl | rfl) <;> simp at h1
  | [] | [_] | [_, _] | [_, _, _] | _ :: _ :: _ :: _ :: _ :: _ => simp at h ⊢

/-! ## Reading a string back from raw bytes -/

/-- A document read as a single string: its text when it is a string, the empty string when it
is `null`, and nothing otherwise. -/
theorem stringText_eq (src : ByteArray) :
    stringText src = match parse src with
      | .ok m => m.textValue
      | .error _ => none := by
  unfold stringText Decoder.read
  rcases parse src with e | m
  · rfl
  · cases m <;> rfl

theorem stringText_null : stringText "null".toUTF8 = some "" := by decide +kernel

/-- The bytes of a value of another kind never read as a string, whatever they parse to. -/
theorem stringText_raw_of_not_textual {bs : ByteArray} {n : Node} (hn : n.ReadFrom bs)
    (ht : n.textual = false) : stringText (n.raw bs) = none := by
  rw [stringText_eq]
  rcases hp : parse (n.raw bs) with e | m
  · rfl
  · have hkind := Node.textual_eq_of_kindName (parse_raw_kind hn hp)
    exact Node.textValue_eq_none (hkind.trans ht)

/-- A value's own bytes, read as a string, give its text: re-reading loses nothing. -/
theorem stringText_raw {bs : ByteArray} {n : Node} (hn : n.ReadFrom bs) :
    stringText (n.raw bs) = n.textValue := by
  cases n with
  | null sp =>
    obtain ⟨i, j⟩ := sp
    rw [Node.raw, Node.span, extract_null hn, stringText_null]
    rfl
  | string sp t =>
    obtain ⟨i, j⟩ := sp
    rw [stringText_eq, Node.raw, Node.span, parse_extract_string hn]
    rfl
  | bool | number | array | object => exact stringText_raw_of_not_textual hn rfl

/-! ## Reading an array element -/

theorem typeField_run (k : String) (b : BlockHead) (v : Node) (sc : Scope)
    (st : Option TypeMismatch) :
    (ReaderT.run (Decoder.within k
      (do pure { b with blockType := ← Json.text "string" b.blockType v })) sc).run st =
      ({ b with blockType := match v with | .string _ t => t | _ => b.blockType },
        if v.textual then st
        else some (st.getD
          ⟨v.kindName, "string", sc.root, (Decoder.escapeStep k :: sc.path).reverse⟩)) := by
  rw [run_within, run_bind, text_run]
  rfl

theorem textField_run (k : String) (b : BlockHead) (v : Node) (sc : Scope)
    (st : Option TypeMismatch) :
    (ReaderT.run (Decoder.within k (do pure { b with text := ← raw b.text v })) sc).run st =
      ({ b with text := v.raw sc.src }, st) := rfl

/-- Reading an element's head member by member: its type is the last string among the members
named type, its text the bytes of the last member named text, and a mismatch is recorded exactly
when some member named type is neither a string nor null. -/
theorem blockHead_run (sp : Span) (ms : List (String × Node)) (b : BlockHead) (sc : Scope)
    (st : Option TypeMismatch) :
    let r := (ReaderT.run (BlockHead.reader b (.object sp ms)) sc).run st
    r.1.blockType = ((membersNamed "type" ms).filterMap Node.stringValue?).getLastD b.blockType ∧
    r.1.text = ((membersNamed "text" ms).map (·.raw sc.src)).getLastD b.text ∧
    r.2.isNone = (st.isNone && (membersNamed "type" ms).all Node.textual) := by
  induction ms generalizing b st with
  | nil => exact ⟨rfl, rfl, (Bool.and_true _).symm⟩
  | cons m ms ih =>
    obtain ⟨k, v⟩ := m
    rw [BlockHead.reader] at ih ⊢
    rw [record_cons, run_bind]
    by_cases ht : foldMatches k "type" = true
    · have hx := foldMatches_text_of_type ht
      simp only [List.find?_cons, ht]
      rw [typeField_run]
      dsimp only
      obtain ⟨h1, h2, h3⟩ := ih
        { b with blockType := match v with | .string _ t => t | _ => b.blockType }
        (if v.textual then st
          else some (st.getD
            ⟨v.kindName, "string", sc.root, (Decoder.escapeStep k :: sc.path).reverse⟩))
      rw [h1, h2, h3, membersNamed_cons, membersNamed_cons, if_pos ht, if_neg (by simp [hx])]
      refine ⟨?_, rfl, ?_⟩
      · cases v <;> simp only [List.filterMap_cons, Node.stringValue?, List.getLastD_cons]
      · rw [List.all_cons]
        cases v.textual <;> simp
    · have ht' : foldMatches k "type" = false := by simpa using ht
      rw [membersNamed_cons, membersNamed_cons, if_neg ht]
      by_cases hx : foldMatches k "text" = true
      · simp only [List.find?_cons, ht', hx]
        rw [textField_run]
        obtain ⟨h1, h2, h3⟩ := ih { b with text := v.raw sc.src } st
        exact ⟨h1, by rw [h2, if_pos trivial, List.map_cons, List.getLastD_cons], h3⟩
      · have hx' : foldMatches k "text" = false := by simpa using hx
        simp only [List.find?_cons, ht', hx', List.find?_nil]
        exact ih b st

/-- The text block an array element is, if it is one: an object whose members named type are
all strings or null, the last string among them being text, and whose last member named text is
a string (its text) or null (the empty string). Names are matched up to case. -/
def textBlock : Node → Option String
  | .object _ ms =>
    let types := membersNamed "type" ms
    if types.all Node.textual && (types.filterMap Node.stringValue?).getLastD "" == "text" then
      (membersNamed "text" ms).getLast?.bind Node.textValue
    else none
  | _ => none

/-- The raw bytes a field keeps from the last of several values, read as a string. -/
theorem stringText_getLastD_raw {src : ByteArray} {l : List Node}
    (hl : ∀ n ∈ l, n.ReadFrom src) :
    stringText ((l.map (·.raw src)).getLastD ByteArray.empty) =
      l.getLast?.bind Node.textValue := by
  rw [List.getLastD_eq_getLast?, List.getLast?_map]
  cases hlast : l.getLast? with
  | none =>
    rw [stringText_eq]
    obtain ⟨e, he⟩ := parse_of_size_eq_zero (show ByteArray.empty.size = 0 from rfl)
    rw [Option.map_none, Option.getD_none, he]
    rfl
  | some n =>
    rw [Option.map_some, Option.getD_some, Option.bind_some]
    exact stringText_raw (hl n (List.mem_of_getLast? hlast))

/-- The text blocks of an array, element by element. -/
theorem blockTexts_of_array {raw : ByteArray} {sp : Span} {items : List Node}
    (hp : parse raw = .ok (.array sp items)) :
    blockTexts raw = some (items.filterMap (blockText raw)) := by
  unfold blockTexts Decoder.read Decoder.run
  rw [hp]
  dsimp only
  rw [list_pure_run]
  rfl

/-- An element read from a document is a text block exactly as the spec says. -/
theorem blockText_eq {src : ByteArray} {elem : Node} (he : elem.ReadFrom src) :
    blockText src elem = textBlock elem := by
  cases elem with
  | object sp ms =>
    have hms : ∀ n ∈ membersNamed "text" ms, n.ReadFrom src := by
      intro n hn
      obtain ⟨m, hm, rfl⟩ := List.mem_map.1 hn
      cases he with
      | object _ hall => exact hall m (List.mem_of_mem_filter hm)
    obtain ⟨h1, h2, h3⟩ := blockHead_run sp ms {} ⟨src, "", []⟩ none
    unfold blockText Decoder.run
    generalize (ReaderT.run (BlockHead.reader {} (.object sp ms)) ⟨src, "", []⟩).run none = r
      at h1 h2 h3
    obtain ⟨b, st⟩ := r
    dsimp only at h1 h2 h3
    rw [Option.isNone_none, Bool.true_and] at h3
    cases st with
    | none =>
      rw [Option.isNone_none] at h3
      change (if b.blockType == "text" then stringText b.text else none) = _
      rw [h1, h2]
      simp only [textBlock, ← h3, Bool.true_and]
      split_ifs
      · exact stringText_getLastD_raw hms
      · rfl
    | some e =>
      rw [Option.isNone_some] at h3
      simp [textBlock, ← h3]
  | null sp => rfl
  | bool sp v => rfl
  | number sp => rfl
  | string sp t => rfl
  | array sp items => rfl

/-! ## Prompt text -/

/-- The prompt text of a JSON value held without white space around it. Content that is a string
is its text, `null` is empty, an array gives its text blocks run together, and any other value
is its own bytes; system text is the string, or the text blocks one per line, or empty. A text
block whose text is `null` counts, with empty text. -/
theorem promptText_of_value {v : ByteArray} {n : Node} (hp : parse v = .ok n)
    (hspan : n.span = ⟨0, v.size⟩) :
    Content.text ⟨v⟩ = (match n with
      | .string _ s => s.toUTF8
      | .null _ => ByteArray.empty
      | .array _ items => (String.join (items.filterMap textBlock)).toUTF8
      | _ => v) ∧
    SystemText.text ⟨v⟩ = (match n with
      | .string _ s => s
      | .array _ items => "\n".intercalate (items.filterMap textBlock)
      | _ => "") := by
  obtain ⟨-, hn⟩ := parse_readFrom hp
  have hlead : leadKind (Utf8.byteAt v 0) = some n.kindName := by
    simpa [hspan] using hn.leadKind
  have hsize : (v.size == 0) = false := by
    rcases Nat.eq_zero_or_pos v.size with h0 | hpos
    · obtain ⟨e, he⟩ := parse_of_size_eq_zero h0
      rw [he] at hp
      cases hp
    · simpa using hpos.ne'
  -- only `null` itself has the bytes of the word
  have hnull : n.kindName ≠ "null" → (v == "null".toUTF8) = false := by
    intro hk
    rw [Bool.eq_false_iff]
    intro hv
    rw [Utf8.beq_iff] at hv
    have h6e : leadKind (Utf8.byteAt "null".toUTF8 0) = some "null" := by decide
    rw [hv, h6e] at hlead
    exact hk (Option.some.inj hlead).symm
  cases n with
  | null sp =>
    obtain rfl : sp = ⟨0, v.size⟩ := hspan
    have hv : v = "null".toUTF8 := by
      rw [← extract_null hn, ByteArray.extract_zero_size]
    subst hv
    exact ⟨rfl, rfl⟩
  | string sp s =>
    have hb := eq_of_leadKind_string hlead
    have hst : stringText v = some s := by
      rw [stringText_eq, hp]
      rfl
    have hnn := hnull (by simp [Node.kindName])
    simp only [Content.text, SystemText.text, hsize, hnn, Bool.false_or]
    simp [hb, hst]
  | array sp items =>
    have hb := eq_of_leadKind_array hlead
    have hitems : items.filterMap (blockText v) = items.filterMap textBlock := by
      apply List.filterMap_congr
      intro elem helem
      cases hn with
      | array _ hall => exact blockText_eq (hall elem helem)
    have hnn := hnull (by simp [Node.kindName])
    simp only [Content.text, SystemText.text, hsize, hnn, Bool.false_or]
    simp [hb, blockTexts_of_array hp, hitems]
  | bool | number | object =>
    have hnn := hnull (by simp [Node.kindName])
    -- the first byte starts neither a string nor an array
    have hq : (Utf8.byteAt v 0 == 0x22) = false := by
      rw [beq_eq_false_iff_ne]
      intro hb
      rw [hb] at hlead
      simp [leadKind, Node.kindName] at hlead
    have hbr : (Utf8.byteAt v 0 == 0x5B) = false := by
      rw [beq_eq_false_iff_ne]
      intro hb
      rw [hb] at hlead
      simp [leadKind, Node.kindName] at hlead
    simp only [Content.text, SystemText.text, hsize, hnn, hq, hbr, Bool.false_or]
    exact ⟨rfl, rfl⟩

/-- A text block whose text is `null` is kept as an empty part, so the system text gains a blank
line after the block before it. -/
theorem nullTextBlock_adds_empty_line :
    SystemText.text
      ⟨"[\x7b\"type\":\"text\",\"text\":\"a\"\x7d,\x7b\"type\":\"text\",\"text\":null\x7d]".toUTF8⟩ =
      "a\n" := by
  have hp :
      parse "[\x7b\"type\":\"text\",\"text\":\"a\"\x7d,\x7b\"type\":\"text\",\"text\":null\x7d]".toUTF8 =
      .ok (.array ⟨0, 56⟩ [
        .object ⟨1, 27⟩ [("type", .string ⟨9, 15⟩ "text"), ("text", .string ⟨23, 26⟩ "a")],
        .object ⟨28, 55⟩ [("type", .string ⟨36, 42⟩ "text"), ("text", .null ⟨50, 54⟩)]]) := by
    set_option maxRecDepth 100000 in
    with_unfolding_all rfl
  rw [(promptText_of_value hp rfl).2]
  rfl

end TurnRelay.Api
