import Mathlib
import TurnRelay.Proofs.Json.StringLiteral
import TurnRelay.Proofs.Api.PromptText
import TurnRelay.Api.Transcript

/-!
# Text built from plain strings

Content and system text can be built from a string instead of decoded from a request: the string
is written as a JSON string literal and kept as raw JSON, like a client's. The string is a byte
string that need not be UTF-8; the literal holds its characters as `decodeAt` reads them, each
byte outside a well-formed sequence as `�`.

Reading the prompt text back undoes the literal: it gives the text of the bytes, which for bytes
that are UTF-8 is the string itself. So a conversation built from plain strings is rendered as
exactly those strings (`prompt_plainRequest`).

## Main results

* `ofText_text`: the prompt text of content and system text built from a byte string.
* `prompt_plainRequest`: the prompt of a request built from strings is their transcript.
* `ofText_reads_back`: both together, for any bytes and for UTF-8 ones.
-/

namespace TurnRelay.Api

open TurnRelay.Json

/-- Content or system text built from a byte string reads back as the text of those bytes. -/
theorem ofText_text (bs : ByteArray) :
    (Content.ofText bs).text = (Utf8.decodeLossy bs).toUTF8 ∧
      (SystemText.ofText bs).text = Utf8.decodeLossy bs :=
  promptText_of_value (parse_quoteLossy bs) rfl

/-- Joining the bytes of strings gives the bytes of the strings joined. -/
theorem joinBytes_toUTF8 (sep : String) (xs : List String) :
    joinBytes sep.toUTF8 (xs.map String.toUTF8) = (sep.intercalate xs).toUTF8 := by
  induction xs with
  | nil => rfl
  | cons x xs ih =>
    cases xs with
    | nil => simp [joinBytes]
    | cons y ys =>
      show (x.toUTF8 ++ sep.toUTF8) ++ joinBytes sep.toUTF8 ((y :: ys).map String.toUTF8) = _
      rw [ih, String.intercalate_cons_cons]
      simp

/-- The transcript of a conversation given as plain strings: the system text when there is any,
then one paragraph per turn, its speaker and its text, with a blank line between paragraphs. -/
def plainTranscript (system : String) (turns : List (String × String)) : String :=
  let body := "\n\n".intercalate (turns.map fun t => roleLabel t.1 ++ ": " ++ t.2)
  if system = "" then body else system ++ "\n\n" ++ body

/-- A request built from plain strings: the system text and each turn's role and text. -/
def plainRequest (system : String) (turns : List (String × String)) : InboundRequest :=
  { system := SystemText.ofText system.toUTF8,
    messages := turns.map fun t => { role := t.1, content := Content.ofText t.2.toUTF8 } }

/-- A request built from plain strings is prompted with exactly their transcript. -/
theorem prompt_plainRequest (system : String) (turns : List (String × String)) :
    prompt (plainRequest system turns) = (plainTranscript system turns).toUTF8 := by
  have hsys : (SystemText.ofText system.toUTF8).text = system := by
    rw [(ofText_text _).2, Utf8.decodeLossy_toUTF8]
  have hparas : ((turns.map fun t =>
      ({ role := t.1, content := Content.ofText t.2.toUTF8 } : ChatMessage)).map
        fun m => (roleLabel m.role ++ ": ").toUTF8 ++ m.content.text) =
      (turns.map fun t => roleLabel t.1 ++ ": " ++ t.2).map String.toUTF8 := by
    rw [List.map_map, List.map_map]
    apply List.map_congr_left
    intro t _
    simp only [Function.comp_apply]
    rw [(ofText_text _).1, Utf8.decodeLossy_toUTF8]
    simp
  simp only [prompt, plainRequest, plainTranscript, hsys, hparas, joinBytes_toUTF8, paragraphBreak]
  by_cases hs : system = ""
  · simp [hs]
  · simp [hs]

/-- Text built from a string reads back as that string: as the text of its bytes, each byte
outside well-formed UTF-8 replaced by U+FFFD, and unchanged when the string is UTF-8. A request
built from plain strings therefore renders them exactly. -/
theorem ofText_reads_back (bs : ByteArray) (s system : String) (turns : List (String × String)) :
    (Content.ofText bs).text = (Utf8.decodeLossy bs).toUTF8 ∧
      (SystemText.ofText bs).text = Utf8.decodeLossy bs ∧
      (Content.ofText s.toUTF8).text = s.toUTF8 ∧
      (SystemText.ofText s.toUTF8).text = s ∧
      prompt (plainRequest system turns) = (plainTranscript system turns).toUTF8 := by
  obtain ⟨hcontent, hsystem⟩ := ofText_text s.toUTF8
  rw [Utf8.decodeLossy_toUTF8] at hcontent hsystem
  exact ⟨(ofText_text bs).1, (ofText_text bs).2, hcontent, hsystem, prompt_plainRequest system turns⟩

end TurnRelay.Api
