import Mathlib
import TurnRelay.Proofs.Text.Space
import TurnRelay.Assistant.Process

/-!
# What a turn's process hands over

A turn runs the assistant's program once and hands over what it wrote, line by line, then at
most one failure. This module states that protocol over the whole output and proves that
`startProgram` keeps it:

* `linePieces` cuts an output stream at its line feeds the way a line reader does: a last line
  without a line feed counts, and the empty text after a final line feed is no line;
  `splitLines_eq` says the reader of the model cuts exactly these lines, stops at the first one
  that is too long, and drops one carriage return at each line's end;
* `lineMessage` is what one line hands over, and `readLines_eq` says the lines' messages come in
  order, each line giving at most one;
* `lastNonBlankLine` is the last line of a text that is not blank, trimmed, and
  `lastLine_eq` says that `lastLine` finds it, so the failure words of `exitMessage` are those
  of `exitFailure` (`exitFailure_eq`);
* `turn_delivers_output_lines` puts these together: the messages of the lines read, then one
  failure exactly when the reading stopped at a long line or the process failed without a
  result line.

`lastLine` trims the whole text before it looks for the last line feed, while
`lastNonBlankLine` trims each line; the two agree because the white space around the trimmed
text is made of whole lines of white space and of white space at the ends of its first and
last lines (`Utf8.SpaceRun.splitOn_lf`).
-/

namespace TurnRelay.Assistant

open TurnRelay

/-! ## Lines -/

/-- The pieces of an output stream between line feeds, as a line reader cuts them: the text
after the last line feed is a line only when it is not empty. -/
def linePieces (out : List UInt8) : List (List UInt8) :=
  if out.getLast?.all (· == 0x0A) then (out.splitOn 0x0A).dropLast else out.splitOn 0x0A

/-- A piece that ends at a line feed is a line of its own, and the rest is cut on its own. -/
theorem linePieces_cut {seg : List UInt8} (hseg : ∀ b ∈ seg, b ≠ 0x0A) (rest : List UInt8) :
    linePieces (seg ++ 0x0A :: rest) = seg :: linePieces rest := by
  have hsplit : (seg ++ 0x0A :: rest).splitOn 0x0A = seg :: rest.splitOn 0x0A := by
    rw [List.splitOn_eq_splitOnP, List.splitOnP_append_cons_of_forall_mem (by simpa using hseg)
      _ (by simp), ← List.splitOn_eq_splitOnP]
  unfold linePieces
  rw [hsplit]
  by_cases hrest : rest = []
  · subst hrest
    simp
  · have hlast : (seg ++ 0x0A :: rest).getLast? = rest.getLast? := by
      rw [show seg ++ 0x0A :: rest = (seg ++ [0x0A]) ++ rest by simp,
        List.getLast?_append_of_ne_nil _ hrest]
    have hne : rest.splitOn 0x0A ≠ [] := by
      rw [List.splitOn_eq_splitOnP]; exact List.splitOnP_ne_nil _ _
    rw [hlast]
    split <;> simp [List.dropLast_cons_of_ne_nil hne]

/-- A last piece without a line feed is the last line. -/
theorem linePieces_last {seg : List UInt8} (hseg : ∀ b ∈ seg, b ≠ 0x0A) (hne : seg ≠ []) :
    linePieces seg = [seg] := by
  have hsplit : seg.splitOn 0x0A = [seg] := by
    rw [List.splitOn_eq_splitOnP, List.splitOnP_eq_singleton (by simpa using hseg)]
  have hlast : seg.getLast?.all (· == 0x0A) = false := by
    obtain ⟨b, hb⟩ := List.getLast?_isSome.mpr hne |> Option.isSome_iff_exists.mp
    simpa [hb] using hseg b (List.mem_of_getLast? hb)
  unfold linePieces
  rw [hlast, hsplit]
  rfl

/-- The byte at an offset inside the text, as an element of its list of bytes. -/
theorem byteAt_of_lt {bs : ByteArray} {i : ℕ} (h : i < bs.data.toList.length) :
    Utf8.byteAt bs i = bs.data.toList[i] := by
  rw [Utf8.byteAt_eq, List.getD_eq_getElem _ _ h]

/-- The reader's line feed search stops at the end of the run of bytes that are not line
feeds. -/
theorem nextNewline_eq (bs : ByteArray) (i : ℕ) (hi : i ≤ bs.size) :
    nextNewline bs i = i + ((bs.data.toList.drop i).takeWhile (· != 0x0A)).length := by
  induction i using nextNewline.induct bs with
  | case1 i h hb =>
    have hlen : i < bs.data.toList.length := by simpa using h
    rw [nextNewline, if_pos h, if_pos hb, List.drop_eq_getElem_cons hlen]
    rw [byteAt_of_lt hlen] at hb
    simp [beq_iff_eq.mp hb]
  | case2 i h hb ih =>
    have hlen : i < bs.data.toList.length := by simpa using h
    rw [nextNewline, if_pos h, if_neg hb, ih (by omega), List.drop_eq_getElem_cons hlen]
    rw [byteAt_of_lt hlen] at hb
    simp only [List.takeWhile_cons, bne_iff_ne, ne_eq]
    rw [if_pos (by simpa using hb), List.length_cons]
    omega
  | case3 i h =>
    rw [nextNewline, if_neg h, List.drop_eq_nil_of_le (by simpa using Nat.le_of_not_lt h)]
    simp only [List.takeWhile_nil, List.length_nil]
    omega

/-- The bytes from `i` on are the run of bytes up to the next line feed, then the rest. -/
theorem drop_eq_append_nextNewline (bs : ByteArray) (i : ℕ) (hi : i ≤ bs.size) :
    bs.data.toList.drop i =
      (bs.data.toList.drop i).takeWhile (· != 0x0A) ++ bs.data.toList.drop (nextNewline bs i) := by
  obtain ⟨t, ht⟩ := List.takeWhile_prefix (· != 0x0A) (l := bs.data.toList.drop i)
  have hleft : ((bs.data.toList.drop i).takeWhile (· != 0x0A) ++ t).drop
      ((bs.data.toList.drop i).takeWhile (· != 0x0A)).length = t := List.drop_left
  rw [ht] at hleft
  rw [nextNewline_eq bs i hi, ← List.drop_drop, hleft, ht]

/-- The search stops at a line feed when it stops before the end. -/
theorem byteAt_nextNewline (bs : ByteArray) (i : ℕ) (h : nextNewline bs i < bs.size) :
    Utf8.byteAt bs (nextNewline bs i) = 0x0A := by
  induction i using nextNewline.induct bs with
  | case1 i hi hb =>
    rw [nextNewline, if_pos hi, if_pos hb]
    simpa using hb
  | case2 i hi hb ih =>
    have hnext : nextNewline bs i = nextNewline bs (i + 1) := by
      rw [nextNewline, if_pos hi, if_neg hb]
    rw [hnext] at h ⊢
    exact ih h
  | case3 i hi =>
    rw [nextNewline, if_neg hi] at h
    omega

/-- The run of bytes before a line feed holds no line feed. -/
theorem ne_of_mem_takeWhile {r : List UInt8} {b : UInt8} (hb : b ∈ r.takeWhile (· != 0x0A)) :
    b ≠ 0x0A := by
  simpa using List.mem_takeWhile_imp hb

/-- The line up to the next line feed, as a slice of the text. -/
theorem extract_nextNewline (bs : ByteArray) (i : ℕ) (hi : i ≤ bs.size) :
    bs.extract i (nextNewline bs i) =
      ⟨((bs.data.toList.drop i).takeWhile (· != 0x0A)).toArray⟩ := by
  apply ByteArray.ext
  apply Array.ext'
  rw [Utf8.extract_toList, nextNewline_eq bs i hi, Nat.add_sub_cancel_left]
  exact (List.prefix_iff_eq_take.mp (List.takeWhile_prefix _)).symm

theorem nextNewline_le (bs : ByteArray) (i : ℕ) (hi : i ≤ bs.size) : nextNewline bs i ≤ bs.size := by
  have hlen := congrArg List.length (drop_eq_append_nextNewline bs i hi)
  simp only [List.length_drop, List.length_append, Array.length_toList, ByteArray.size_data] at hlen
  rw [nextNewline_eq bs i hi]
  omega

/-- When a line feed follows, the line is cut there and the rest is cut on its own. -/
theorem linePieces_drop_of_lt (bs : ByteArray) (i : ℕ) (hi : i ≤ bs.size)
    (h : nextNewline bs i < bs.size) :
    linePieces (bs.data.toList.drop i) =
      (bs.data.toList.drop i).takeWhile (· != 0x0A) ::
        linePieces (bs.data.toList.drop (nextNewline bs i + 1)) := by
  have hlen : nextNewline bs i < bs.data.toList.length := by simpa using h
  have hlf : bs.data.toList[nextNewline bs i] = 0x0A := by
    rw [← byteAt_of_lt hlen]; exact byteAt_nextNewline bs i h
  conv_lhs => rw [drop_eq_append_nextNewline bs i hi, List.drop_eq_getElem_cons hlen, hlf]
  exact linePieces_cut (fun _ hb => ne_of_mem_takeWhile hb) _

/-- When no line feed follows, what is left is the last line. -/
theorem linePieces_drop_of_eq (bs : ByteArray) (i : ℕ) (hi : i < bs.size)
    (h : nextNewline bs i = bs.size) :
    linePieces (bs.data.toList.drop i) = [(bs.data.toList.drop i).takeWhile (· != 0x0A)] := by
  have hrest : bs.data.toList.drop (nextNewline bs i) = [] :=
    List.drop_eq_nil_of_le (by simp [h])
  have hseg := drop_eq_append_nextNewline bs i hi.le
  rw [hrest, List.append_nil] at hseg
  rw [← hseg]
  apply linePieces_last (fun _ hb => ne_of_mem_takeWhile (hseg ▸ hb))
  simpa using hi

/-- From offset `i` on, the model's reader cuts the lines of `linePieces`, up to the first one
that is too long, each without one carriage return at its end; and it says whether one was too
long. -/
theorem splitLinesFrom_eq (bs : ByteArray) (i : ℕ) (hi : i ≤ bs.size) :
    splitLinesFrom bs i =
      (((linePieces (bs.data.toList.drop i)).takeWhile (·.length < maxLineSize)).map
          (fun l => dropCR ⟨l.toArray⟩),
        (linePieces (bs.data.toList.drop i)).any (maxLineSize ≤ ·.length)) := by
  induction i using splitLinesFrom.induct bs with
  | case1 i h j hlong =>
    -- the first line is already too long: nothing is read
    have hseg : maxLineSize ≤ ((bs.data.toList.drop i).takeWhile (· != 0x0A)).length := by
      have := nextNewline_eq bs i hi
      simp only [j] at hlong
      omega
    rw [splitLinesFrom, dif_pos h, if_pos hlong]
    rcases (nextNewline_le bs i hi).lt_or_eq with hlt | heq
    · rw [linePieces_drop_of_lt bs i hi hlt]
      simp [hseg]
    · rw [linePieces_drop_of_eq bs i h heq]
      simp [hseg]
  | case2 i h j hshort _ _ _ _ ih =>
    have hseg : ((bs.data.toList.drop i).takeWhile (· != 0x0A)).length < maxLineSize := by
      have := nextNewline_eq bs i hi
      simp only [j] at hshort
      omega
    rw [splitLinesFrom, dif_pos h, if_neg hshort]
    simp only [extract_nextNewline bs i hi]
    rcases (nextNewline_le bs i hi).lt_or_eq with hlt | heq
    · rw [ih hlt, linePieces_drop_of_lt bs i hi hlt]
      simp [hseg, j, Nat.not_le.mpr hseg]
    · -- the line ran to the end of the text: nothing is left to read
      have hend : splitLinesFrom bs (nextNewline bs i + 1) = ([], false) := by
        rw [splitLinesFrom, dif_neg (by omega)]
      rw [hend, linePieces_drop_of_eq bs i h heq]
      simp [hseg]
  | case3 i h =>
    rw [splitLinesFrom, dif_neg h, List.drop_eq_nil_of_le (by simpa using Nat.le_of_not_lt h)]
    rfl

/-- The model's reader cuts an output stream into the lines of `linePieces`, up to the first one
that is too long, each without one carriage return at its end, and says whether one was too
long. -/
theorem splitLines_eq (out : ByteArray) :
    splitLines out =
      (((linePieces out.data.toList).takeWhile (·.length < maxLineSize)).map
          (fun l => dropCR ⟨l.toArray⟩),
        (linePieces out.data.toList).any (maxLineSize ≤ ·.length)) := by
  rw [splitLines, splitLinesFrom_eq out 0 (Nat.zero_le _), List.drop_zero]

/-! ## Messages of lines -/

/-- What one output line hands over: the message it holds, or nothing when it is blank, cannot be
read, or is of a type the relay does not know. -/
def lineMessage (line : ByteArray) : Option Message :=
  if (Utf8.trimSpace line).size = 0 then none
  else
    match Message.parseLine line with
    | .ok m => m
    | .error _ => none

/-- Whether a message is the turn's result line. -/
def Message.isResult : Message → Bool
  | .result _ => true
  | _ => false

/-- The lines' messages come in order, one for each line that holds one, and a result line was
read exactly when one of them is a result. -/
theorem readLines_eq (lines : List ByteArray) :
    readLines lines =
      ((lines.filterMap lineMessage).map .message, (lines.filterMap lineMessage).any Message.isResult) := by
  induction lines with
  | nil => rfl
  | cons line rest ih =>
    rw [readLines, ih]
    by_cases hblank : (Utf8.trimSpace line).size = 0
    · simp [lineMessage, hblank]
    · have hsize : ((Utf8.trimSpace line).size == 0) = false := by simpa using hblank
      rcases hparse : Message.parseLine line with e | _ | m
      · simp [lineMessage, hblank, hsize, hparse]
      · simp [lineMessage, hblank, hsize, hparse]
      · cases m <;> simp [lineMessage, hblank, hsize, hparse, Message.isResult]


/-! ## The last line of the error stream -/

/-- The lines of a text that are not blank, each trimmed of white space, in order. -/
def nonBlankLines (text : List UInt8) : List ByteArray :=
  ((text.splitOn 0x0A).map fun l => Utf8.trimSpace ⟨l.toArray⟩).filter (·.size != 0)

/-- The last line of a text that is not blank, trimmed of white space, if there is one. -/
def lastNonBlankLine (text : ByteArray) : Option ByteArray :=
  (nonBlankLines text.data.toList).getLast?

theorem nonBlankLines_append_lf (a b : List UInt8) :
    nonBlankLines (a ++ 0x0A :: b) = nonBlankLines a ++ nonBlankLines b := by
  rw [nonBlankLines, List.splitOn_append_cons_self, List.map_append, List.filter_append]
  rfl

/-- A text that is all white space has no line that is not blank. -/
theorem nonBlankLines_of_run {r : List UInt8} (h : Utf8.SpaceRun r) : nonBlankLines r = [] := by
  rw [nonBlankLines, List.filter_eq_nil_iff]
  intro line hline
  obtain ⟨l, hl, rfl⟩ := List.mem_map.mp hline
  have hblank := (Utf8.trimSpace_eq_nil_iff ⟨l.toArray⟩).mpr (by simpa using h.splitOn_lf l hl)
  simp [Utf8.size_eq_length, hblank]

/-- A text without a line feed is one line. -/
theorem nonBlankLines_of_not_mem {y : List UInt8} (hy : (0x0A : UInt8) ∉ y) :
    nonBlankLines y = [Utf8.trimSpace ⟨y.toArray⟩].filter (·.size != 0) := by
  rw [nonBlankLines, List.splitOn_eq_singleton hy]
  rfl

theorem nonBlankLines_nil : nonBlankLines [] = [] := nonBlankLines_of_run Utf8.SpaceRun.nil

/-- What is left of a text once its last line is taken off is empty or ends at a line feed. -/
theorem rdropWhile_lf (q : List UInt8) :
    q.rdropWhile (· != 0x0A) = [] ∨ ∃ w, q.rdropWhile (· != 0x0A) = w ++ [0x0A] := by
  rcases hq : q.rdropWhile (· != 0x0A) with _ | ⟨b, w⟩
  · exact .inl rfl
  · have hlast := List.rdropWhile_last_not (p := (· != 0x0A)) (l := q) (by simp [hq])
    simp only [hq, bne_iff_ne, ne_eq, not_not] at hlast
    exact .inr ⟨(b :: w).dropLast, by rw [← hlast, List.dropLast_append_getLast]⟩

/-- What is left of a text once its first line is taken off is empty or starts at a line feed. -/
theorem dropWhile_lf (k : List UInt8) :
    k.dropWhile (· != 0x0A) = [] ∨ ∃ k', k.dropWhile (· != 0x0A) = 0x0A :: k' := by
  rcases hk : k.dropWhile (· != 0x0A) with _ | ⟨b, k'⟩
  · exact .inl rfl
  · have hb := List.head_dropWhile_not (· != 0x0A) (l := k) (by simp [hk])
    have hb' : b = 0x0A := by simpa [hk] using hb
    exact .inr ⟨k', by rw [hb']⟩

/-- The lines of a text are those before the line that holds the end of `q`, then that line and
the ones after it. -/
theorem nonBlankLines_cut_last (q z : List UInt8) :
    nonBlankLines (q ++ z) =
      nonBlankLines (q.rdropWhile (· != 0x0A)).dropLast ++
        nonBlankLines (q.rtakeWhile (· != 0x0A) ++ z) := by
  have hsplit := List.rdropWhile_append_rtakeWhile (p := (· != 0x0A)) (l := q)
  rcases rdropWhile_lf q with hq | ⟨w, hq⟩
  · rw [hq, List.nil_append] at hsplit
    conv_lhs => rw [← hsplit]
    rw [hq, List.dropLast_nil, nonBlankLines_nil, List.nil_append]
  · rw [hq] at hsplit
    conv_lhs => rw [← hsplit]
    rw [hq, List.dropLast_concat, ← nonBlankLines_append_lf]
    simp only [List.append_assoc, List.cons_append, List.nil_append]

/-- The lines of a text are the line that holds the start of `k`, then those after it. -/
theorem nonBlankLines_cut_first (y k : List UInt8) :
    nonBlankLines (y ++ k) =
      nonBlankLines (y ++ k.takeWhile (· != 0x0A)) ++ nonBlankLines (k.dropWhile (· != 0x0A)).tail := by
  have hsplit := List.takeWhile_append_dropWhile (p := (· != 0x0A)) (l := k)
  rcases dropWhile_lf k with hk | ⟨k', hk⟩
  · rw [hk, List.append_nil] at hsplit
    conv_lhs => rw [← hsplit]
    rw [hk, List.tail_nil, nonBlankLines_nil, List.append_nil]
  · rw [hk] at hsplit
    conv_lhs => rw [← hsplit]
    rw [hk, List.tail_cons, ← List.append_assoc, nonBlankLines_append_lf]

/-- `afterLastNewline` finds where the last line of the first `i` bytes starts: the bytes before
it are those up to the last line feed. -/
theorem take_afterLastNewline (bs : ByteArray) (i : ℕ) (hi : i ≤ bs.size) :
    bs.data.toList.take (afterLastNewline bs i) = (bs.data.toList.take i).rdropWhile (· != 0x0A) := by
  induction i with
  | zero => simp [afterLastNewline]
  | succ i ih =>
    have hlen : i < bs.data.toList.length := by simpa using hi
    rw [List.take_succ_eq_append_getElem hlen, List.rdropWhile_concat, afterLastNewline,
      byteAt_of_lt hlen]
    by_cases hb : bs.data.toList[i] = 0x0A
    · rw [if_pos (by simpa using hb), if_neg (by simpa using hb),
        List.take_succ_eq_append_getElem hlen]
    · rw [if_neg (by simpa using hb), if_pos (by simpa using hb), ih (by omega)]

/-- The last line of a text runs from its last line feed on. -/
theorem extract_afterLastNewline (bs : ByteArray) :
    (bs.extract (afterLastNewline bs bs.size) bs.size).data.toList =
      bs.data.toList.rtakeWhile (· != 0x0A) := by
  have htake := take_afterLastNewline bs bs.size le_rfl
  rw [show bs.data.toList.take bs.size = bs.data.toList from List.take_of_length_le (by simp)]
    at htake
  have hsplit := List.rdropWhile_append_rtakeWhile (p := (· != 0x0A)) (l := bs.data.toList)
  rw [← htake] at hsplit
  have hlast : bs.data.toList.rtakeWhile (· != 0x0A) = bs.data.toList.drop (afterLastNewline bs bs.size) :=
    List.append_cancel_left (hsplit.trans (List.take_append_drop _ _).symm)
  rw [hlast, Utf8.extract_toList, List.take_of_length_le (by simp)]


/-- The bytes after the last line feed of white space followed by a text cut after a line feed
are white space. -/
theorem run_rtakeWhile {j v : List UInt8} (hj : Utf8.SpaceRun j)
    (hv : v = [] ∨ ∃ w, v = w ++ [0x0A]) : Utf8.SpaceRun ((j ++ v).rtakeWhile (· != 0x0A)) := by
  rcases hv with rfl | ⟨w, rfl⟩
  · rw [List.append_nil]
    have hsplit := List.rdropWhile_append_rtakeWhile (p := (· != 0x0A)) (l := j)
    rcases rdropWhile_lf j with hq | ⟨w, hq⟩
    · rw [hq, List.nil_append] at hsplit
      rw [hsplit]
      exact hj
    · rw [hq, List.append_assoc, List.singleton_append] at hsplit
      rw [← hsplit] at hj
      exact hj.split_lf.2
  · rw [← List.append_assoc, List.rtakeWhile_concat_neg (· != 0x0A) (j ++ w) 0x0A (by decide)]
    exact Utf8.SpaceRun.nil

/-- The first line of white space and the bytes after its line feed are white space. -/
theorem run_takeWhile_dropWhile {k : List UInt8} (hk : Utf8.SpaceRun k) :
    Utf8.SpaceRun (k.takeWhile (· != 0x0A)) ∧ Utf8.SpaceRun (k.dropWhile (· != 0x0A)).tail := by
  have hsplit := List.takeWhile_append_dropWhile (p := (· != 0x0A)) (l := k)
  rcases dropWhile_lf k with hd | ⟨k', hd⟩
  · rw [hd, List.append_nil] at hsplit
    rw [hd, hsplit]
    exact ⟨hk, Utf8.SpaceRun.nil⟩
  · rw [hd] at hsplit
    rw [← hsplit] at hk
    rw [hd, List.tail_cons]
    exact hk.split_lf

/-- The last line of trimmed bytes that are not empty is not blank. -/
theorem not_run_rtakeWhile {t : List UInt8} (hne : t ≠ []) (hno : Utf8.NoTrailingSpace t) :
    ¬ Utf8.SpaceRun (t.rtakeWhile (· != 0x0A)) := by
  intro hrun
  have hsplit := List.rdropWhile_append_rtakeWhile (p := (· != 0x0A)) (l := t)
  rcases eq_or_ne (t.rtakeWhile (· != 0x0A)) [] with hnil | hu
  · -- the bytes would end at a line feed
    rw [hnil, List.append_nil] at hsplit
    rcases rdropWhile_lf t with hq | ⟨w, hq⟩
    · exact hne (hsplit.symm.trans hq)
    · exact hno '\n' w (by decide) (by rw [← hsplit, hq]; rfl)
  · obtain ⟨c, rest, hc, -, hcr⟩ := hrun.exists_last hu
    exact hno c (t.rdropWhile (· != 0x0A) ++ rest) hc
      (by rw [List.append_assoc, ← hcr, hsplit])

/-- `lastLine` finds the last line of a text that is not blank, trimmed, and nothing when every
line is blank. -/
theorem lastLine_eq (text : ByteArray) :
    lastLine text = (lastNonBlankLine text).getD ByteArray.empty := by
  obtain ⟨j, k, hj, hk, ht, hcut⟩ := Utf8.trimSpace_spec text
  have hline : lastLine text =
      Utf8.trimSpace ⟨((Utf8.trimSpace text).data.toList.rtakeWhile (· != 0x0A)).toArray⟩ := by
    have hext : (Utf8.trimSpace text).extract
        (afterLastNewline (Utf8.trimSpace text) (Utf8.trimSpace text).size) (Utf8.trimSpace text).size =
        ⟨((Utf8.trimSpace text).data.toList.rtakeWhile (· != 0x0A)).toArray⟩ := by
      apply ByteArray.ext
      apply Array.ext'
      rw [extract_afterLastNewline]
    exact congrArg Utf8.trimSpace hext
  rw [hline, lastNonBlankLine]
  generalize (Utf8.trimSpace text).data.toList = t at ht hcut ⊢
  rcases eq_or_ne t [] with rfl | hne
  · -- every line is blank
    have hrun : Utf8.SpaceRun text.data.toList := by
      rw [hcut, List.append_nil]
      exact hj.append hk
    rw [nonBlankLines_of_run hrun, List.rtakeWhile_nil]
    apply ByteArray.ext
    apply Array.ext'
    exact (Utf8.trimSpace_eq_nil_iff _).mpr Utf8.SpaceRun.nil
  -- the text is white space, then the lines of `t` before its last, then the last line `u` of
  -- `t` with white space on both sides, then lines of white space
  have hsplit := List.rdropWhile_append_rtakeWhile (p := (· != 0x0A)) (l := t)
  have hs := run_rtakeWhile hj (rdropWhile_lf t)
  obtain ⟨hk0, hk'⟩ := run_takeWhile_dropWhile hk
  have hu := not_run_rtakeWhile hne (ht.resolve_left hne).2
  have hulf : ∀ b ∈ t.rtakeWhile (· != 0x0A), (b != 0x0A) = true := fun _ hb =>
    List.mem_rtakeWhile_imp (p := (· != 0x0A)) hb
  generalize t.rdropWhile (· != 0x0A) = v at hsplit hs
  generalize t.rtakeWhile (· != 0x0A) = u at hsplit hu hulf ⊢
  have htext : text.data.toList = (j ++ v) ++ (u ++ k) := by
    rw [hcut, ← hsplit]
    simp only [List.append_assoc]
  -- the line that holds `u` has white space on both sides of it
  have hmid : nonBlankLines ((j ++ v).rtakeWhile (· != 0x0A) ++ u ++ k.takeWhile (· != 0x0A)) =
      [Utf8.trimSpace ⟨u.toArray⟩] := by
    have hnolf : ∀ {x : List UInt8}, (∀ b ∈ x, (b != 0x0A) = true) → (0x0A : UInt8) ∉ x :=
      fun hx hmem => by simpa using hx _ hmem
    have hlf : (0x0A : UInt8) ∉ (j ++ v).rtakeWhile (· != 0x0A) ++ u ++ k.takeWhile (· != 0x0A) := by
      simp only [List.mem_append, not_or]
      exact ⟨⟨hnolf fun _ hb => List.mem_rtakeWhile_imp (p := (· != 0x0A)) hb, hnolf hulf⟩,
        hnolf fun _ hb => List.mem_takeWhile_imp (p := (· != 0x0A)) hb⟩
    have htrim : Utf8.trimSpace ⟨((j ++ v).rtakeWhile (· != 0x0A) ++ u ++ k.takeWhile (· != 0x0A)).toArray⟩ =
        Utf8.trimSpace ⟨u.toArray⟩ := Utf8.trimSpace_of_runs (by simp) hs hk0
    have hsize : (Utf8.trimSpace ⟨u.toArray⟩).size ≠ 0 := by
      rw [Utf8.size_eq_length, Ne, List.length_eq_zero_iff, Utf8.trimSpace_eq_nil_iff]
      simpa using hu
    rw [nonBlankLines_of_not_mem hlf, htrim]
    simp [hsize]
  rw [htext, nonBlankLines_cut_last, ← List.append_assoc, nonBlankLines_cut_first, hmid,
    nonBlankLines_of_run hk', List.append_nil]
  simp


/-- The words of the failure of a process that exits before completing the turn; the last line
it wrote to its error stream that is not blank follows them, when there is one. -/
def exitMessage (stderr : ByteArray) : ByteArray :=
  match lastNonBlankLine stderr with
  | none => "claude exited before completing the turn".toUTF8
  | some line => "claude exited before completing the turn".toUTF8 ++ ": ".toUTF8 ++ line

/-- A line that `lastNonBlankLine` finds is not empty. -/
theorem size_of_lastNonBlankLine {text line : ByteArray} (h : lastNonBlankLine text = some line) :
    line.size ≠ 0 := by
  have hmem := List.mem_of_getLast? h
  simpa [nonBlankLines] using (List.mem_filter.mp hmem).2

/-- The failure of a process that exits before completing the turn tells the last line of its
error stream that is not blank, and its exit code. -/
theorem exitFailure_eq (stderr : ByteArray) (status : ExitStatus) :
    exitFailure stderr status =
      { message := exitMessage stderr, stderr := stderr, exitCode := status.code } := by
  rw [exitFailure, lastLine_eq, exitMessage]
  rcases h : lastNonBlankLine stderr with _ | line
  · rfl
  · simp [size_of_lastNonBlankLine h]

/-! ## A turn's results -/

/-- The results of a finished process: the messages of its output lines up to the first one that
is too long, then a failure when the reading stopped there, or else when the process failed and
no result line was among the messages. -/
theorem turnResults_eq (run : ProcessRun) :
    turnResults run =
      let pieces := linePieces run.stdout.data.toList
      let messages := (pieces.takeWhile (·.length < maxLineSize)).filterMap
        fun l => lineMessage (dropCR ⟨l.toArray⟩)
      let stderr := tailBytes run.stderr stderrTailSize
      messages.map .message ++
        if pieces.any (maxLineSize ≤ ·.length) then
          [.failure (.process { message := "failed reading CLI output".toUTF8, stderr := stderr })]
        else if !run.status.success && !messages.any Message.isResult then
          [.failure (.process
            { message := exitMessage stderr, stderr := stderr, exitCode := run.status.code })]
        else [] := by
  rw [turnResults, splitLines_eq]
  simp only [readLines_eq, List.filterMap_map, Function.comp_def, exitFailure_eq]
  split_ifs <;> simp

/-- A program that can be run starts, and the turn's results are those of its run on the turn's
flags and the prompt. -/
theorem startProgram_of_runnable {host : Host} {path workDir : String} (program : Program)
    (prompt : ByteArray) (opts : TurnOptions) (hpath : path ≠ "") (hslash : path.contains '/' = true)
    (hfile : host.kind path = .file true) (hdir : workDir = "" ∨ host.kind workDir = .directory) :
    startProgram host path workDir program prompt opts =
      .items (turnResults (program opts.args prompt)) := by
  have hdir' : (workDir != "" && host.kind workDir != .directory) = false := by
    rcases hdir with rfl | hdir <;> simp [*]
  simp [startProgram, hpath, hslash, hfile, hdir']


/-- A turn started on a program that can be run hands over, in order, the message of each line the
program writes to its standard output that holds one, up to the first line that is too long;
then one failure when the reading stopped at a long line, or else when the process failed and no
result line was among the messages; and nothing more. The program runs on the turn's flags and
reads the prompt. -/
theorem turn_delivers_output_lines {host : Host} {path workDir : String} (program : Program)
    (prompt : ByteArray) (opts : TurnOptions) (hpath : path ≠ "") (hslash : path.contains '/' = true)
    (hfile : host.kind path = .file true) (hdir : workDir = "" ∨ host.kind workDir = .directory) :
    let run := program opts.args prompt
    let pieces := linePieces run.stdout.data.toList
    let messages := (pieces.takeWhile (·.length < maxLineSize)).filterMap
      fun l => lineMessage (dropCR ⟨l.toArray⟩)
    let stderr := tailBytes run.stderr stderrTailSize
    startProgram host path workDir program prompt opts = .items (messages.map .message ++
      if pieces.any (maxLineSize ≤ ·.length) then
        [.failure (.process { message := "failed reading CLI output".toUTF8, stderr := stderr })]
      else if !run.status.success && !messages.any Message.isResult then
        [.failure (.process
          { message := exitMessage stderr, stderr := stderr, exitCode := run.status.code })]
      else []) := by
  intro run pieces messages stderr
  rw [startProgram_of_runnable program prompt opts hpath hslash hfile hdir, turnResults_eq]

/-- A program at an absolute path on a host where every path is an executable file, writing
nothing and failing, starts and has its failure handed over. -/
theorem failing_program_delivers_output_lines :
    let program : Program := fun _ _ => ⟨ByteArray.empty, "boom".toUTF8, .exited 1⟩
    let run := program (TurnOptions.args {}) ByteArray.empty
    let pieces := linePieces run.stdout.data.toList
    let messages := (pieces.takeWhile (·.length < maxLineSize)).filterMap
      fun l => lineMessage (dropCR ⟨l.toArray⟩)
    let stderr := tailBytes run.stderr stderrTailSize
    startProgram ⟨fun _ => .file true⟩ "/usr/bin/claude" "" program ByteArray.empty {} =
      .items (messages.map .message ++
        if pieces.any (maxLineSize ≤ ·.length) then
          [.failure (.process { message := "failed reading CLI output".toUTF8, stderr := stderr })]
        else if !run.status.success && !messages.any Message.isResult then
          [.failure (.process
            { message := exitMessage stderr, stderr := stderr, exitCode := run.status.code })]
        else []) :=
  turn_delivers_output_lines _ _ _ (by decide) (by simp) rfl (.inl rfl)

end TurnRelay.Assistant
