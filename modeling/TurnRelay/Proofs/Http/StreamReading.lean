import Mathlib
import TurnRelay.Http.EventStream

/-!
# Reading an event stream back

A client reads an event stream by the event-stream grammar. The bytes are cut into lines at a
CR, at an LF, or at a CR LF, which ends one line. A line `event: x` names the event being read,
a line `data: x` adds a line to its data, a line that starts with `:` is a comment, and a blank
line ends the event, which is given out when it has data. This module defines that reader
(`readStream`) and reads back the frames a stream is written in.

* An event frame whose name and data hold no line end reads back as exactly its event, and a
  keepalive reads as nothing (`readFrame_clean`, `readFrame_comment`).
* A frame whose data holds a line end never does. Count each event read as the length of its
  data and one: a frame reads as no more than its event's count, and as less when its data
  holds a line end, since each line end costs a byte that no data keeps (`readFrame_event_weight`).

So the frames of a list of events read back as those events exactly when no event's data
holds a line end (`readStream_frames_iff`).
-/

namespace TurnRelay.Http

open TurnRelay.Stream

/-! ## The grammar -/

/-- Whether a byte ends a line: LF or CR. -/
def isLineEnd (b : UInt8) : Bool := b == 10 || b == 13

/-- Whether bytes hold no line end. -/
def lineFree (bs : List UInt8) : Bool := bs.all fun b => !isLineEnd b

/-- Where the reader is in the stream's lines. -/
inductive LineCut where
  /-- Within a line, whose bytes so far are `line`. -/
  | within (line : List UInt8)
  /-- Right after a CR that ended a line: an LF here ends no other line. -/
  | afterCR

/-- The bytes of the line being read. -/
def LineCut.line : LineCut → List UInt8
  | .within line => line
  | .afterCR => []

/-- Takes one byte: a line end gives out the line it ends. -/
def LineCut.step (c : LineCut) (b : UInt8) : LineCut × Option (List UInt8) :=
  if b = 10 then
    match c with
    | .afterCR => (.within [], none)
    | .within line => (.within [], some line)
  else if b = 13 then (.afterCR, some c.line)
  else (.within (c.line ++ [b]), none)

/-- Takes bytes: the lines that end among them, and where the reader is after them. -/
def LineCut.feed (c : LineCut) : List UInt8 → LineCut × List (List UInt8)
  | [] => (c, [])
  | b :: rest =>
    let r := c.step b
    let t := r.1.feed rest
    (t.1, r.2.toList ++ t.2)

/-- An event as a client reads it: its name and its data, as bytes. -/
abbrev ReadEvent := List UInt8 × List UInt8

/-- What the reader holds of the event being read: the name given last, and the values of its
data lines. -/
structure Pending where
  name : List UInt8 := []
  data : List (List UInt8) := []

/-- The bytes of a text. -/
def bytesOf (s : String) : List UInt8 := s.toUTF8.data.toList

/-- A line's field and value: the field up to the first colon, the value after it less one
leading space; a line without a colon is all field. -/
def splitField (line : List UInt8) : List UInt8 × List UInt8 :=
  match line.dropWhile (· != 58) with
  | [] => (line, [])
  | _ :: value => (line.takeWhile (· != 58), if value.head? = some 32 then value.tail else value)

/-- Takes one line: a blank line gives out the event when it has data and starts the next one;
an `event` line names it, a `data` line adds to its data; comments and other fields are passed
over. An event without a name is a `message`. -/
def Pending.take (p : Pending) (line : List UInt8) : Pending × Option ReadEvent :=
  if line = [] then
    if p.data = [] then ({}, none)
    else ({}, some (if p.name = [] then bytesOf "message" else p.name, [10].intercalate p.data))
  else if line.head? = some 58 then (p, none)
  else if (splitField line).1 = bytesOf "event" then ({ p with name := (splitField line).2 }, none)
  else if (splitField line).1 = bytesOf "data" then
    ({ p with data := p.data ++ [(splitField line).2] }, none)
  else (p, none)

/-- Takes lines: the events they end, and what is held after them. -/
def Pending.feed (p : Pending) : List (List UInt8) → Pending × List ReadEvent
  | [] => (p, [])
  | line :: rest =>
    let r := p.take line
    let t := r.1.feed rest
    (t.1, r.2.toList ++ t.2)

/-- A reader: where it is in the lines, and what it holds of the event. -/
structure StreamReader where
  cut : LineCut := .within []
  pending : Pending := {}

/-- Takes bytes: the events they end, and the reader after them. -/
def StreamReader.feed (r : StreamReader) (bs : List UInt8) : StreamReader × List ReadEvent :=
  let c := r.cut.feed bs
  let p := r.pending.feed c.2
  (⟨c.1, p.1⟩, p.2)

/-- The events a client reads from a whole stream. -/
def readStream (bs : List UInt8) : List ReadEvent := (({} : StreamReader).feed bs).2

/-! ## Lines -/

namespace LineCut

theorem feed_append (c : LineCut) (a b : List UInt8) :
    c.feed (a ++ b) =
      (((c.feed a).1.feed b).1, (c.feed a).2 ++ ((c.feed a).1.feed b).2) := by
  induction a generalizing c with
  | nil => simp [feed]
  | cons x rest ih => simp [feed, ih]

/-- Bytes without a line end extend the line being read. -/
theorem feed_lineFree (line q : List UInt8) (hq : lineFree q = true) :
    (within line).feed q = (.within (line ++ q), []) := by
  induction q generalizing line with
  | nil => simp [feed]
  | cons b rest ih =>
    simp only [lineFree, List.all_cons, Bool.and_eq_true, Bool.not_eq_true', isLineEnd,
      Bool.or_eq_false_iff, beq_eq_false_iff_ne, ne_eq] at hq
    obtain ⟨⟨hlf, hcr⟩, hrest⟩ := hq
    simp [feed, step, hlf, hcr, ih _ hrest, LineCut.line]

/-- An LF ends the line being read. -/
theorem feed_lf (line rest : List UInt8) :
    (within line).feed (10 :: rest) =
      (((within []).feed rest).1, line :: ((within []).feed rest).2) := by
  simp [feed, step]

theorem step_length (c : LineCut) (b : UInt8) :
    ((c.step b).2.toList.map List.length).sum + (c.step b).1.line.length +
        (if isLineEnd b then 1 else 0) = c.line.length + 1 := by
  by_cases hlf : b = 10
  · cases c <;> simp [step, hlf, isLineEnd, LineCut.line]
  · by_cases hcr : b = 13
    · simp [step, hcr, isLineEnd, LineCut.line]
    · simp [step, hlf, hcr, isLineEnd, LineCut.line]

/-- Every byte read is in a line given out, in the line being read, or a line end. -/
theorem feed_length (c : LineCut) (bs : List UInt8) :
    ((c.feed bs).2.map List.length).sum + (c.feed bs).1.line.length + bs.countP isLineEnd =
      c.line.length + bs.length := by
  induction bs generalizing c with
  | nil => simp [feed]
  | cons b rest ih =>
    have hstep := step_length c b
    have hrest := ih (c.step b).1
    simp only [feed, List.map_append, List.sum_append, List.countP_cons, List.length_cons]
    by_cases hend : isLineEnd b = true
    · simp only [hend, ↓reduceIte] at hstep ⊢
      omega
    · simp only [hend, Bool.false_eq_true, ↓reduceIte] at hstep ⊢
      omega

end LineCut

/-! ## Events from lines -/

/-- How much events weigh: the length of each one's data, and one. -/
def readWeight (evs : List ReadEvent) : Nat := (evs.map fun e => e.2.length + 1).sum

/-- How much the data held so far weighs: the length of each of its lines, and one. -/
def Pending.weight (p : Pending) : Nat := (p.data.map fun v => v.length + 1).sum

/-- How much a line adds to the data: a `data` line its value and one, any other line nothing. -/
def lineWeight (line : List UInt8) : Nat :=
  if line = [] ∨ line.head? = some 58 then 0
  else if (splitField line).1 = bytesOf "data" then (splitField line).2.length + 1
  else 0

@[simp] theorem readWeight_append (a b : List ReadEvent) :
    readWeight (a ++ b) = readWeight a + readWeight b := by
  simp [readWeight]

theorem bytesOf_event : bytesOf "event: " = [101, 118, 101, 110, 116, 58, 32] := by decide

theorem bytesOf_data : bytesOf "data: " = [100, 97, 116, 97, 58, 32] := by decide

theorem bytesOf_event_ne_data : bytesOf "event" ≠ bytesOf "data" := by decide

/-- A line `event: x` gives the name `x`, whatever `x` is. -/
theorem splitField_event (n : List UInt8) :
    splitField (bytesOf "event: " ++ n) = (bytesOf "event", n) := by
  rw [bytesOf_event]
  simp [splitField]
  decide

/-- A line `data: x` gives the value `x`, whatever `x` is. -/
theorem splitField_data (d : List UInt8) :
    splitField (bytesOf "data: " ++ d) = (bytesOf "data", d) := by
  rw [bytesOf_data]
  simp [splitField]
  decide

/-- Data lines joined by LF weigh what the lines weigh. -/
theorem length_intercalate_lf (v : List UInt8) (vs : List (List UInt8)) :
    ([10].intercalate (v :: vs)).length + 1 = ((v :: vs).map fun w => w.length + 1).sum := by
  induction vs generalizing v with
  | nil => simp
  | cons w ws ih =>
    rw [List.intercalate_cons_cons, List.length_append, List.length_append]
    have := ih w
    simp only [List.map_cons, List.sum_cons] at this ⊢
    simp only [List.length_singleton]
    omega

/-- A value never outweighs the line it is read from. -/
theorem lineWeight_le (line : List UInt8) : lineWeight line ≤ line.length := by
  unfold lineWeight
  split
  · exact Nat.zero_le _
  · rename_i hline
    have hne : line ≠ [] := fun h => hline (.inl h)
    split
    · -- the value is what follows the first colon, if any
      have hvalue : (splitField line).2.length + 1 ≤ line.length := by
        unfold splitField
        split
        · have hpos := List.length_pos_iff.2 hne
          simp only [List.length_nil]
          omega
        · rename_i value hdrop
          have hsuffix := List.dropWhile_suffix (p := fun b => b != 58) (l := line)
          have hlen := hsuffix.length_le
          rw [hdrop] at hlen
          simp only [List.length_cons] at hlen
          split <;> simp <;> omega
      exact hvalue
    · exact Nat.zero_le _

namespace Pending

theorem feed_append (p : Pending) (a b : List (List UInt8)) :
    p.feed (a ++ b) = (((p.feed a).1.feed b).1, (p.feed a).2 ++ ((p.feed a).1.feed b).2) := by
  induction a generalizing p with
  | nil => simp [feed]
  | cons x rest ih => simp [feed, ih]

/-- Each line's weight goes into the data held, and from it into the event given out. -/
theorem take_weight (p : Pending) (line : List UInt8) :
    readWeight (p.take line).2.toList + (p.take line).1.weight = p.weight + lineWeight line := by
  unfold take lineWeight
  by_cases hblank : line = []
  · subst hblank
    by_cases hdata : p.data = []
    · simp [hdata, readWeight, Pending.weight]
    · obtain ⟨v, vs, hvs⟩ := List.exists_cons_of_ne_nil hdata
      simp [hvs, readWeight, Pending.weight, length_intercalate_lf]
  · by_cases hcomment : line.head? = some 58
    · simp [hblank, hcomment, readWeight]
    · by_cases hevent : (splitField line).1 = bytesOf "event"
      · simp [hblank, hcomment, hevent, bytesOf_event_ne_data, readWeight, Pending.weight]
      · by_cases hdata : (splitField line).1 = bytesOf "data"
        · simp [hblank, hcomment, hdata, Ne.symm bytesOf_event_ne_data, readWeight,
            Pending.weight]
        · simp [hblank, hcomment, hevent, hdata, readWeight]

theorem feed_weight (p : Pending) (lines : List (List UInt8)) :
    readWeight (p.feed lines).2 + (p.feed lines).1.weight =
      p.weight + (lines.map lineWeight).sum := by
  induction lines generalizing p with
  | nil => simp [feed, readWeight]
  | cons line rest ih =>
    have hline := take_weight p line
    have hrest := ih (p.take line).1
    simp only [feed, readWeight_append, List.map_cons, List.sum_cons]
    omega

end Pending

/-! ## Frames -/

/-- The frame of what a stream carries: an event, or a keepalive comment (`none`). -/
def sentFrame : Option Outgoing → ByteArray
  | some o => eventFrame o.name o.data
  | none => commentFrame "keepalive"

/-- The bytes of a stream that carries `sent`, in order. -/
def streamBytes (sent : List (Option Outgoing)) : List UInt8 :=
  sent.flatMap fun x => (sentFrame x).data.toList

/-- The events a frame reads as, from a fresh reader. -/
def readFrame (x : Option Outgoing) : List ReadEvent :=
  (({} : StreamReader).feed (sentFrame x).data.toList).2

/-- An event as it should read: its name and its data. -/
def eventRead (o : Outgoing) : ReadEvent := (bytesOf o.name, o.data.data.toList)

/-- Whether a name can name an event: it is not empty and holds no line end. -/
def goodName (name : String) : Bool := bytesOf name != [] && lineFree (bytesOf name)

theorem lineFree_append (a b : List UInt8) :
    lineFree (a ++ b) = (lineFree a && lineFree b) := by
  simp [lineFree, List.all_append]

theorem eventFrame_bytes (name : String) (data : ByteArray) :
    (eventFrame name data).data.toList =
      (bytesOf "event: " ++ bytesOf name) ++ 10 :: (bytesOf "data: " ++ data.data.toList ++ [10, 10]) := by
  have hsep : "\ndata: ".toByteArray.data.toList = 10 :: "data: ".toByteArray.data.toList := by
    decide
  have hend : "\n\n".toByteArray.data.toList = [10, 10] := by decide
  simp only [eventFrame, bytesOf, String.toUTF8_eq_toByteArray, String.toByteArray_append,
    ByteArray.data_append, Array.toList_append, hsep, hend, List.append_assoc, List.cons_append]

/-- A line `data: x` weighs `x` and one. -/
theorem lineWeight_data (d : List UInt8) : lineWeight (bytesOf "data: " ++ d) = d.length + 1 := by
  have hhead : (bytesOf "data: " ++ d).head? = some 100 := by
    rw [bytesOf_data]
    rfl
  have hne : bytesOf "data: " ++ d ≠ [] := by
    rw [bytesOf_data]
    simp
  simp [lineWeight, hne, hhead, splitField_data]

@[simp] theorem lineWeight_nil : lineWeight [] = 0 := rfl

theorem sum_lineWeight_le (lines : List (List UInt8)) :
    (lines.map lineWeight).sum ≤ (lines.map List.length).sum := by
  induction lines with
  | nil => simp
  | cons line rest ih =>
    have := lineWeight_le line
    simp only [List.map_cons, List.sum_cons]
    omega

namespace LineCut

/-- A line end gives out the line being read and starts a new one. -/
theorem step_lineEnd (line : List UInt8) {b : UInt8} (hb : isLineEnd b = true) :
    ((within line).step b).2 = some line ∧ ((within line).step b).1.line = [] := by
  simp only [isLineEnd, Bool.or_eq_true, beq_iff_eq] at hb
  rcases hb with hb | hb <;> simp [step, hb, LineCut.line]

/-- Two LFs close whatever came before: the reader stands at the start of a line, and the
last line given out is blank. -/
theorem feed_blank (c : LineCut) (bs : List UInt8) :
    ∃ lines, c.feed (bs ++ [10, 10]) = (.within [], lines ++ [[]]) := by
  rw [feed_append]
  refine ⟨(c.feed bs).2 ++ (((c.feed bs).1.step 10).2).toList, ?_⟩
  cases (c.feed bs).1 <;> simp [feed, step]

/-- The lines of a data line and its blank line weigh no more than the data and one, less
its line ends. The first line is `data: ` and the data up to its first line end; the bytes
after that line end are weighed at most once each, and no line end is weighed at all. -/
theorem feed_data_weight (d : List UInt8) :
    (((within []).feed (bytesOf "data: " ++ d ++ [10, 10])).2.map lineWeight).sum +
      d.countP isLineEnd ≤ d.length + 1 := by
  have hprefix : lineFree (bytesOf "data: ") = true := by decide
  have hsplit := List.takeWhile_append_dropWhile (p := fun b => !isLineEnd b) (l := d)
  have hfirst : lineFree (d.takeWhile fun b => !isLineEnd b) = true := List.all_takeWhile
  cases hdrop : d.dropWhile (fun b => !isLineEnd b) with
  | nil =>
    -- the data holds no line end: one data line, then the blank line
    rw [hdrop, List.append_nil] at hsplit
    rw [hsplit] at hfirst
    have hcount : d.countP isLineEnd = 0 := by
      simpa [lineFree, List.countP_eq_zero] using hfirst
    rw [List.append_assoc, ← List.append_assoc (bytesOf "data: "), feed_append,
      feed_lineFree _ _ (by simp [lineFree_append, hprefix, hfirst])]
    simp [feed, step, lineWeight_data, hcount, lineWeight_nil]
  | cons b rest =>
    have hb : isLineEnd b = true := by
      have := List.head_dropWhile_not (fun b => !isLineEnd b) (l := d) (by simp [hdrop])
      simpa [hdrop] using this
    rw [hdrop] at hsplit
    generalize d.takeWhile (fun b => !isLineEnd b) = first at hsplit hfirst
    subst hsplit
    have hcount : first.countP isLineEnd = 0 := by
      simpa [lineFree, List.countP_eq_zero] using hfirst
    -- the first line ends at `b`; what follows is read from the start of a line
    have hfeed : (within []).feed (bytesOf "data: " ++ (first ++ b :: rest) ++ [10, 10]) =
        let r := (within (bytesOf "data: " ++ first)).step b
        ((r.1.feed (rest ++ [10, 10])).1, (bytesOf "data: " ++ first) ::
          (r.1.feed (rest ++ [10, 10])).2) := by
      rw [show bytesOf "data: " ++ (first ++ b :: rest) ++ [10, 10] =
          (bytesOf "data: " ++ first) ++ b :: (rest ++ [10, 10]) by simp, feed_append,
        feed_lineFree _ _ (by simp [lineFree_append, hprefix, hfirst])]
      simp [feed, (step_lineEnd _ hb).1]
    have hlen := feed_length ((within (bytesOf "data: " ++ first)).step b).1 (rest ++ [10, 10])
    rw [(step_lineEnd _ hb).2] at hlen
    rw [hfeed]
    dsimp only
    generalize ((within (bytesOf "data: " ++ first)).step b).1.feed (rest ++ [10, 10]) = r at hlen
    have hweigh := sum_lineWeight_le r.2
    have hends : (rest ++ [10, 10]).countP isLineEnd = rest.countP isLineEnd + 2 := by
      simp [isLineEnd]
    rw [hends] at hlen
    simp only [List.map_cons, List.sum_cons, lineWeight_data, List.countP_append,
      List.countP_cons, hb, hcount, List.length_append, List.length_cons, List.length_nil,
      ↓reduceIte] at hlen ⊢
    omega

end LineCut

theorem StreamReader.feed_append (r : StreamReader) (a b : List UInt8) :
    r.feed (a ++ b) = (((r.feed a).1.feed b).1, (r.feed a).2 ++ ((r.feed a).1.feed b).2) := by
  simp [StreamReader.feed, LineCut.feed_append, Pending.feed_append]

namespace Pending

/-- A line `event: x` names the event `x`. -/
theorem take_event (p : Pending) (n : List UInt8) :
    p.take (bytesOf "event: " ++ n) = ({ p with name := n }, none) := by
  have hhead : (bytesOf "event: " ++ n).head? = some 101 := by
    rw [bytesOf_event]
    rfl
  have hne : bytesOf "event: " ++ n ≠ [] := by
    rw [bytesOf_event]
    simp
  simp [take, hne, hhead, splitField_event]

/-- A line `data: x` adds `x` to the data. -/
theorem take_data (p : Pending) (d : List UInt8) :
    p.take (bytesOf "data: " ++ d) = ({ p with data := p.data ++ [d] }, none) := by
  have hhead : (bytesOf "data: " ++ d).head? = some 100 := by
    rw [bytesOf_data]
    rfl
  have hne : bytesOf "data: " ++ d ≠ [] := by
    rw [bytesOf_data]
    simp
  simp [take, hne, hhead, splitField_data, Ne.symm bytesOf_event_ne_data]

/-- A blank line leaves nothing held. -/
theorem take_blank (p : Pending) : (p.take []).1 = {} := by
  rw [take, if_pos rfl]
  split <;> rfl

theorem feed_blank (p : Pending) (lines : List (List UInt8)) :
    (p.feed (lines ++ [[]])).1 = {} := by
  simp [feed_append, feed, take_blank]

end Pending

/-- An event frame whose name holds no line end leaves a fresh reader, and reads as no more
than its event weighs, less the line ends in its data. -/
theorem readFrame_event_weight (o : Outgoing) (hname : lineFree (bytesOf o.name) = true) :
    (({} : StreamReader).feed (sentFrame (some o)).data.toList).1 = {} ∧
      readWeight (readFrame (some o)) + o.data.data.toList.countP isLineEnd ≤
        o.data.data.toList.length + 1 := by
  have hevent : lineFree (bytesOf "event: " ++ bytesOf o.name) = true := by
    rw [lineFree_append, hname]
    decide
  obtain ⟨lines, hlines⟩ := LineCut.feed_blank (.within []) (bytesOf "data: " ++ o.data.data.toList)
  have hweigh := LineCut.feed_data_weight o.data.data.toList
  rw [hlines] at hweigh
  dsimp only at hweigh
  -- the event line, then the lines of the data line and of the blank line
  have hcut : (LineCut.within []).feed (sentFrame (some o)).data.toList =
      (.within [], (bytesOf "event: " ++ bytesOf o.name) :: (lines ++ [[]])) := by
    rw [sentFrame, eventFrame_bytes, LineCut.feed_append, LineCut.feed_lineFree _ _ hevent,
      LineCut.feed_lf, hlines]
    simp
  -- the event line names the event; the other lines weigh what the data lines weigh
  have hreader : ({} : StreamReader).feed (sentFrame (some o)).data.toList =
      (⟨.within [], (({ name := bytesOf o.name } : Pending).feed (lines ++ [[]])).1⟩,
        (({ name := bytesOf o.name } : Pending).feed (lines ++ [[]])).2) := by
    simp [StreamReader.feed, hcut, Pending.feed, Pending.take_event]
  have hpending := Pending.feed_weight { name := bytesOf o.name } (lines ++ [[]])
  rw [Pending.feed_blank] at hpending
  have hheld : ({ name := bytesOf o.name } : Pending).weight = 0 := rfl
  have hnone : ({} : Pending).weight = 0 := rfl
  constructor
  · rw [hreader, Pending.feed_blank]
  · rw [readFrame, hreader]
    dsimp only
    omega

/-- An event frame whose name is good and whose data holds no line end reads back as its
event, and leaves a fresh reader. -/
theorem readFrame_clean (o : Outgoing) (hname : goodName o.name = true)
    (hdata : lineFree o.data.data.toList = true) :
    ({} : StreamReader).feed (sentFrame (some o)).data.toList = ({}, [eventRead o]) := by
  simp only [goodName, Bool.and_eq_true, bne_iff_ne, ne_eq] at hname
  have hevent : lineFree (bytesOf "event: " ++ bytesOf o.name) = true := by
    rw [lineFree_append, hname.2]
    decide
  have hdataLine : lineFree (bytesOf "data: " ++ o.data.data.toList) = true := by
    rw [lineFree_append, hdata]
    decide
  have hcut : (LineCut.within []).feed (sentFrame (some o)).data.toList =
      (.within [], [bytesOf "event: " ++ bytesOf o.name, bytesOf "data: " ++ o.data.data.toList,
        []]) := by
    rw [sentFrame, eventFrame_bytes, LineCut.feed_append, LineCut.feed_lineFree _ _ hevent,
      LineCut.feed_lf, LineCut.feed_append, LineCut.feed_lineFree _ _ hdataLine]
    simp [LineCut.feed, LineCut.step]
  simp only [StreamReader.feed, hcut, Pending.feed, Pending.take_event, Pending.take_data]
  simp [Pending.take, hname.1, eventRead]

/-- A keepalive reads as nothing and leaves a fresh reader. -/
theorem readFrame_comment : ({} : StreamReader).feed (sentFrame none).data.toList = ({}, []) := by
  rfl

@[simp] theorem readFrame_none : readFrame none = [] := rfl

/-! ## Streams -/

@[simp] theorem readWeight_cons (e : ReadEvent) (evs : List ReadEvent) :
    readWeight (e :: evs) = e.2.length + 1 + readWeight evs := by
  simp [readWeight]

theorem streamBytes_cons (x : Option Outgoing) (sent : List (Option Outgoing)) :
    streamBytes (x :: sent) = (sentFrame x).data.toList ++ streamBytes sent := by
  simp [streamBytes]

theorem streamBytes_append (a b : List (Option Outgoing)) :
    streamBytes (a ++ b) = streamBytes a ++ streamBytes b := by
  simp [streamBytes]

/-- A frame whose event name holds no line end leaves a fresh reader. -/
theorem feed_sentFrame_fresh (x : Option Outgoing)
    (hname : ∀ o, x = some o → lineFree (bytesOf o.name) = true) :
    (({} : StreamReader).feed (sentFrame x).data.toList).1 = {} := by
  cases x with
  | none => rw [readFrame_comment]
  | some o => exact (readFrame_event_weight o (hname o rfl)).1

/-- A stream whose event names hold no line end reads frame by frame: each frame leaves the
reader fresh for the next. -/
theorem readStream_streamBytes (sent : List (Option Outgoing))
    (hnames : ∀ o ∈ sent.filterMap id, lineFree (bytesOf o.name) = true) :
    readStream (streamBytes sent) = sent.flatMap readFrame := by
  induction sent with
  | nil => rfl
  | cons x rest ih =>
    have hfresh := feed_sentFrame_fresh x fun o hx => hnames o (by simp [hx])
    have hrest := ih fun o ho => hnames o (((List.sublist_cons_self x rest).filterMap id).subset ho)
    rw [List.flatMap_cons, ← hrest, readStream, streamBytes_cons, StreamReader.feed_append, hfresh]
    rfl

/-- Frames with good names and data free of line ends read back as their events. -/
theorem flatMap_readFrame_of_clean (sent : List (Option Outgoing))
    (hclean : ∀ o ∈ sent.filterMap id,
      goodName o.name = true ∧ lineFree o.data.data.toList = true) :
    sent.flatMap readFrame = (sent.filterMap id).map eventRead := by
  induction sent with
  | nil => rfl
  | cons x rest ih =>
    have hrest := ih fun o ho => hclean o (((List.sublist_cons_self x rest).filterMap id).subset ho)
    cases x with
    | none => simpa using hrest
    | some o =>
      have ho := hclean o (by simp)
      have hframe : readFrame (some o) = [eventRead o] := by
        rw [readFrame, readFrame_clean o ho.1 ho.2]
      simp [hframe, hrest]

/-- What the frames of a stream read as weighs no more than their events, less the line ends
in the events' data. -/
theorem readWeight_flatMap_readFrame (sent : List (Option Outgoing))
    (hnames : ∀ o ∈ sent.filterMap id, lineFree (bytesOf o.name) = true) :
    readWeight (sent.flatMap readFrame) +
        ((sent.filterMap id).map fun o => o.data.data.toList.countP isLineEnd).sum ≤
      readWeight ((sent.filterMap id).map eventRead) := by
  induction sent with
  | nil => simp [readWeight]
  | cons x rest ih =>
    have hrest := ih fun o ho => hnames o (((List.sublist_cons_self x rest).filterMap id).subset ho)
    cases x with
    | none => simpa using hrest
    | some o =>
      have hframe := (readFrame_event_weight o (hnames o (by simp))).2
      simp only [List.flatMap_cons, readWeight_append, List.filterMap_cons, id_eq,
        List.map_cons, List.sum_cons, readWeight_cons, eventRead] at hrest ⊢
      omega

/-- The frames of a stream of events with good names read back as exactly those events, in
order, if and only if no event's data holds a line end. -/
theorem readStream_frames_iff (sent : List (Option Outgoing))
    (hnames : ∀ o ∈ sent.filterMap id, goodName o.name = true) :
    readStream (streamBytes sent) = (sent.filterMap id).map eventRead ↔
      ∀ o ∈ sent.filterMap id, lineFree o.data.data.toList = true := by
  have hfree : ∀ o ∈ sent.filterMap id, lineFree (bytesOf o.name) = true := fun o ho => by
    have hgood := hnames o ho
    simp only [goodName, Bool.and_eq_true] at hgood
    exact hgood.2
  rw [readStream_streamBytes sent hfree]
  constructor
  · intro hread o ho
    -- equal weights leave no room for a line end in any event's data
    have hweigh := readWeight_flatMap_readFrame sent hfree
    rw [hread] at hweigh
    have hzero : ((sent.filterMap id).map fun o => o.data.data.toList.countP isLineEnd).sum = 0 := by
      omega
    have hcount := List.sum_eq_zero_iff_forall_eq_nat.1 hzero _ (List.mem_map_of_mem ho)
    simp only [lineFree, List.all_eq_true, Bool.not_eq_true']
    intro b hb
    simpa using List.countP_eq_zero.1 hcount b hb
  · intro hdata
    exact flatMap_readFrame_of_clean sent fun o ho => ⟨hnames o ho, hdata o ho⟩

end TurnRelay.Http
