import Mathlib
import TurnRelay.Proofs.Text.Utf8
import TurnRelay.Text.Space

/-!
# What trimming white space keeps

`trimSpace` reads its text as UTF-8 from both ends. This module says what it keeps without
reference to offsets: a text is cut into a run of white space (`SpaceRun`), trimmed bytes
(`Trimmed`: bytes that neither start nor end with a white-space character's encoding) and a run
of white space, and such a cut is unique (`trimmed_unique`). The uniqueness rests on one fact
of the encoding: a run starts at a byte that is not a continuation byte, so a run can only
follow bytes at the boundary of a character.

`skipLeading_spec` and `dropTrailing_spec` say what each scan passes over; `trimSpace_spec`
puts them together, and `trimSpace_eq_of_cut`, `trimSpace_eq_nil_iff` and `trimSpace_of_runs`
are the forms the rest of the development uses. `SpaceRun.splitOn_lf` says that the lines of
a run are runs: a line feed is a white-space character of its own.
-/

namespace TurnRelay.Utf8

/-- Bytes that are white-space characters, each encoded in full, one after another. -/
def SpaceRun (r : List UInt8) : Prop :=
  ∃ cs : List Char, (∀ c ∈ cs, isSpaceChar c = true) ∧ r = cs.flatMap String.utf8EncodeChar

/-- Two encodings at the start of the same bytes are the same character's. -/
theorem encode_eq_of_append_eq {c c' : Char} {p p' : List UInt8}
    (h : String.utf8EncodeChar c ++ p = String.utf8EncodeChar c' ++ p') : c = c' := by
  have h1 : (ByteArray.mk (String.utf8EncodeChar c ++ p).toArray).data.toList.drop 0 =
      String.utf8EncodeChar c ++ p := by simp
  have h2 : (ByteArray.mk (String.utf8EncodeChar c ++ p).toArray).data.toList.drop 0 =
      String.utf8EncodeChar c' ++ p' := by simp [h]
  have := (decodeAt_of_drop h1).symm.trans (decodeAt_of_drop h2)
  exact (Prod.mk.inj this).1

/-- A character's encoding is never empty. -/
theorem encode_ne_nil (c : Char) : String.utf8EncodeChar c ≠ [] := by
  have := c.utf8Size_pos
  intro h
  have := congrArg List.length h
  simp only [String.length_utf8EncodeChar, List.length_nil] at this
  omega

/-- The first byte of an encoding is not a continuation byte. -/
theorem isTail_head_encode {c : Char} {b : UInt8} {r : List UInt8}
    (h : String.utf8EncodeChar c = b :: r) : isTail b = false := by
  have hpos := c.utf8Size_pos
  have hle := c.utf8Size_le_four
  have hhead : ∀ {vs : List ℕ}, (String.utf8EncodeChar c).map UInt8.toNat = vs → b.toNat = vs.headD 0 := by
    intro vs hvs
    rw [← hvs, h]
    rfl
  simp only [isTail, Bool.and_eq_false_iff, decide_eq_false_iff_not, UInt8.le_iff_toNat_le,
    UInt8.reduceToNat, not_le]
  rcases (by omega : c.utf8Size = 1 ∨ c.utf8Size = 2 ∨ c.utf8Size = 3 ∨ c.utf8Size = 4) with
    hc | hc | hc | hc
  · have hn : c.toNat < 128 := by
      have := Char.utf8Size_eq_one_iff.mp hc
      simp only [UInt32.le_iff_toNat_le, UInt32.reduceToNat, val_toNat] at this
      omega
    rw [hhead (encode_one hc)]
    simp only [List.headD_cons]
    omega
  · rw [hhead (encode_two hc)]; simp only [List.headD_cons]; omega
  · rw [hhead (encode_three hc)]; simp only [List.headD_cons]; omega
  · rw [hhead (encode_four hc)]; simp only [List.headD_cons]; omega

namespace SpaceRun

theorem nil : SpaceRun [] := ⟨[], by simp, rfl⟩

theorem append {r s : List UInt8} (hr : SpaceRun r) (hs : SpaceRun s) : SpaceRun (r ++ s) := by
  obtain ⟨cs, hcs, rfl⟩ := hr
  obtain ⟨ds, hds, rfl⟩ := hs
  exact ⟨cs ++ ds, fun c hc => (List.mem_append.mp hc).elim (hcs c) (hds c), by simp⟩

theorem encode {c : Char} (hc : isSpaceChar c = true) : SpaceRun (String.utf8EncodeChar c) :=
  ⟨[c], by simpa using hc, by simp⟩

/-- A run that is not empty starts with a white-space character's encoding. -/
theorem exists_head {r : List UInt8} (hr : SpaceRun r) (hne : r ≠ []) :
    ∃ c rest, isSpaceChar c = true ∧ SpaceRun rest ∧ r = String.utf8EncodeChar c ++ rest := by
  obtain ⟨cs, hcs, rfl⟩ := hr
  rcases cs with _ | ⟨c, cs⟩
  · exact absurd rfl hne
  · exact ⟨c, _, hcs c (by simp), ⟨cs, fun d hd => hcs d (by simp [hd]), rfl⟩, by simp⟩

/-- A run that is not empty ends with a white-space character's encoding. -/
theorem exists_last {r : List UInt8} (hr : SpaceRun r) (hne : r ≠ []) :
    ∃ c rest, isSpaceChar c = true ∧ SpaceRun rest ∧ r = rest ++ String.utf8EncodeChar c := by
  obtain ⟨cs, hcs, rfl⟩ := hr
  rcases cs.eq_nil_or_concat with rfl | ⟨cs', c, rfl⟩
  · exact absurd rfl hne
  · exact ⟨c, _, hcs c (by simp), ⟨cs', fun d hd => hcs d (by simp [hd]), rfl⟩, by simp⟩

/-- The first byte of a run is not a continuation byte. -/
theorem head_not_tail {b : UInt8} {r : List UInt8} (h : SpaceRun (b :: r)) : isTail b = false := by
  obtain ⟨c, rest, -, -, hr⟩ := h.exists_head (List.cons_ne_nil _ _)
  obtain ⟨b', enc', henc⟩ := List.exists_cons_of_ne_nil (encode_ne_nil c)
  rw [henc, List.cons_append] at hr
  obtain rfl := (List.cons.inj hr).1
  exact isTail_head_encode henc

/-- What follows a run at the start of a run is a run. -/
theorem of_append_left {j m : List UInt8} (hjm : SpaceRun (j ++ m)) (hj : SpaceRun j) :
    SpaceRun m := by
  obtain ⟨js, -, rfl⟩ := hj
  obtain ⟨xs, hxs, hx⟩ := hjm
  induction js generalizing xs with
  | nil => exact ⟨xs, hxs, by simpa using hx⟩
  | cons c js ih =>
    rcases xs with _ | ⟨x, xs⟩
    · simp at hx
    · simp only [List.flatMap_cons, List.append_assoc] at hx
      obtain rfl := encode_eq_of_append_eq hx
      exact ih xs (fun d hd => hxs d (by simp [hd])) (List.append_cancel_left hx)

/-- What comes before a run at the end of a run is a run. -/
theorem of_append_right {n k : List UInt8} (hnk : SpaceRun (n ++ k)) (hk : SpaceRun k) :
    SpaceRun n := by
  obtain ⟨xs, hxs, hx⟩ := hnk
  induction xs generalizing n with
  | nil =>
    obtain rfl : n = [] := (List.append_eq_nil_iff.mp hx).1
    exact nil
  | cons x xs ih =>
    rw [List.flatMap_cons] at hx
    rcases List.append_eq_append_iff.mp hx with ⟨a', henc, hk'⟩ | ⟨c', hn, hrest⟩
    · rcases a' with _ | ⟨b, a'⟩
      · rw [List.append_nil] at henc
        rw [← henc]
        exact encode (hxs x (by simp))
      · rcases n with _ | ⟨b0, n⟩
        · exact nil
        · -- the run `k` would start inside an encoding, at a continuation byte
          have hlen : (b0 :: n).length < (String.utf8EncodeChar x).length := by rw [henc]; simp
          have hat : (String.utf8EncodeChar x)[(b0 :: n).length] = b := by simp [henc]
          have htail := isTail_of_encode x (by simp) hlen
          rw [hat] at htail
          rw [hk'] at hk
          rw [head_not_tail (by simpa using hk)] at htail
          exact absurd htail (by simp)
    · rw [hn]
      exact (encode (hxs x (by simp))).append (ih (fun d hd => hxs d (by simp [hd])) hrest.symm)

end SpaceRun

/-- Bytes that do not start with the encoding of a white-space character. -/
def NoLeadingSpace (u : List UInt8) : Prop :=
  ∀ c r, isSpaceChar c = true → u ≠ String.utf8EncodeChar c ++ r

/-- Bytes that do not end with the encoding of a white-space character. -/
def NoTrailingSpace (u : List UInt8) : Prop :=
  ∀ c r, isSpaceChar c = true → u ≠ r ++ String.utf8EncodeChar c

/-- Bytes with no white space at either end. -/
def Trimmed (t : List UInt8) : Prop := t = [] ∨ (NoLeadingSpace t ∧ NoTrailingSpace t)

/-- Trimmed bytes followed by white space still do not start with white space. -/
theorem Trimmed.append_run {t k : List UInt8} (ht : Trimmed t) (hne : t ≠ []) (hk : SpaceRun k) :
    NoLeadingSpace (t ++ k) := by
  rcases ht with rfl | ⟨hstart, -⟩
  · exact absurd rfl hne
  intro c r hc h
  rcases k with _ | ⟨b, k⟩
  · rw [List.append_nil] at h
    exact hstart c r hc h
  · obtain ⟨post, hpost⟩ := encode_prefix_of_not_tail hne hk.head_not_tail h
    exact hstart c post hc hpost

/-- The white space at the start of a text is the same however it is cut, when what follows it
does not start with white space. -/
theorem runs_front_unique {j u j' u' : List UInt8} (h : j ++ u = j' ++ u') (hj : SpaceRun j)
    (hj' : SpaceRun j') (hu : NoLeadingSpace u) (hu' : NoLeadingSpace u') : j = j' ∧ u = u' := by
  rcases List.append_eq_append_iff.mp h with ⟨a, rfl, rfl⟩ | ⟨a, rfl, rfl⟩
  · rcases eq_or_ne a [] with rfl | hne
    · simp
    · obtain ⟨c, rest, hc, -, rfl⟩ := (hj'.of_append_left hj).exists_head hne
      exact absurd (List.append_assoc _ _ _) (hu c _ hc)
  · rcases eq_or_ne a [] with rfl | hne
    · simp
    · obtain ⟨c, rest, hc, -, rfl⟩ := (hj.of_append_left hj').exists_head hne
      exact absurd (List.append_assoc _ _ _) (hu' c _ hc)

/-- The white space at the end of a text is the same however it is cut, when what comes before
it does not end with white space. -/
theorem runs_back_unique {u k u' k' : List UInt8} (h : u ++ k = u' ++ k') (hk : SpaceRun k)
    (hk' : SpaceRun k') (hu : NoTrailingSpace u) (hu' : NoTrailingSpace u') : u = u' ∧ k = k' := by
  rcases List.append_eq_append_iff.mp h with ⟨a, rfl, rfl⟩ | ⟨a, rfl, rfl⟩
  · rcases eq_or_ne a [] with rfl | hne
    · simp
    · obtain ⟨c, rest, hc, -, rfl⟩ := (hk.of_append_right hk').exists_last hne
      exact absurd (List.append_assoc _ _ _).symm (hu' c _ hc)
  · rcases eq_or_ne a [] with rfl | hne
    · simp
    · obtain ⟨c, rest, hc, -, rfl⟩ := (hk'.of_append_right hk).exists_last hne
      exact absurd (List.append_assoc _ _ _).symm (hu c _ hc)

/-- A text has one way to be cut into white space, trimmed bytes and white space. -/
theorem trimmed_unique {j t k j' t' k' : List UInt8} (h : j ++ t ++ k = j' ++ t' ++ k')
    (hj : SpaceRun j) (hk : SpaceRun k) (hj' : SpaceRun j') (hk' : SpaceRun k')
    (ht : Trimmed t) (ht' : Trimmed t') : t = t' := by
  -- a text that is all white space leaves nothing trimmed, however it is cut
  have blank : ∀ {j' t' k' : List UInt8}, SpaceRun (j' ++ t' ++ k') → SpaceRun j' →
      SpaceRun k' → Trimmed t' → t' = [] := by
    intro j' t' k' hall hj' hk' ht'
    by_contra hne
    rw [List.append_assoc] at hall
    obtain ⟨c, rest, hc, -, hcr⟩ := (hall.of_append_left hj').exists_head
      (by simp [hne])
    exact ht'.append_run hne hk' c rest hc hcr
  rcases eq_or_ne t [] with rfl | hne
  · rw [List.append_nil] at h
    exact (blank (h ▸ hj.append hk) hj' hk' ht').symm
  rcases eq_or_ne t' [] with rfl | hne'
  · rw [List.append_nil] at h
    exact blank (h ▸ hj'.append hk') hj hk ht
  rw [List.append_assoc, List.append_assoc] at h
  obtain ⟨-, hrest⟩ := runs_front_unique h hj hj' (ht.append_run hne hk) (ht'.append_run hne' hk')
  exact (runs_back_unique hrest hk hk' (ht.resolve_left hne).2 (ht'.resolve_left hne').2).1

/-! ## What the trimming steps do -/

theorem beq_iff (a b : ByteArray) : (a == b) = true ↔ a = b := by
  rw [ByteArray.ext_iff]
  show (a.data == b.data) = true ↔ _
  exact beq_iff_eq

theorem toString_toUTF8 (c : Char) : c.toString.toUTF8.data.toList = String.utf8EncodeChar c := by
  rw [toUTF8_data, show c.toString.toList = [c] from (String.ofList_eq.mp rfl).symm]
  simp

theorem toString_toUTF8_size (c : Char) : c.toString.toUTF8.size = c.utf8Size := by
  rw [size_eq_length, toString_toUTF8, String.length_utf8EncodeChar]

/-- `endsWithChar` checks that the bytes `[start, stop)` end with the encoding of `c`. -/
theorem endsWithChar_iff {bs : ByteArray} {start stop : ℕ} (hstop : stop ≤ bs.size) (c : Char) :
    endsWithChar bs start stop c = true ↔
      ∃ r, (bs.data.toList.take stop).drop start = r ++ String.utf8EncodeChar c := by
  unfold endsWithChar
  simp only [Bool.and_eq_true, decide_eq_true_eq, beq_iff, ByteArray.ext_iff, ByteArray.data_extract,
    toString_toUTF8_size]
  rw [← Array.toList_inj, Array.toList_extract, toString_toUTF8, List.extract]
  have hL : (bs.data.toList.take stop).length = stop := by
    rw [List.length_take, Nat.min_eq_left (by simpa using hstop)]
  constructor
  · rintro ⟨hfit, henc⟩
    refine ⟨((bs.data.toList.take stop).drop start).take (stop - start - c.utf8Size), ?_⟩
    conv_lhs => rw [← List.take_append_drop (stop - start - c.utf8Size)
      ((bs.data.toList.take stop).drop start)]
    have hshift : start + (stop - start - c.utf8Size) = stop - c.utf8Size := by
      have := c.utf8Size_pos
      omega
    rw [← List.drop_take] at henc
    rw [List.drop_drop, hshift, henc]
  · rintro ⟨r, hr⟩
    have hlen := congrArg List.length hr
    rw [List.length_drop, hL, List.length_append, String.length_utf8EncodeChar] at hlen
    refine ⟨by omega, ?_⟩
    have hshift : stop - c.utf8Size = start + r.length := by
      have := c.utf8Size_pos
      omega
    rw [← List.drop_take, hshift, ← List.drop_drop, hr, List.drop_left]


/-- Nothing starts white space in no bytes. -/
theorem noLeadingSpace_nil : NoLeadingSpace [] := fun c _ _ h =>
  encode_ne_nil c (List.append_eq_nil_iff.mp h.symm).1

/-- From `i` on, `skipLeading` passes over a run of white space and stops where no white space
starts. -/
theorem skipLeading_spec (bs : ByteArray) (i : ℕ) :
    ∃ j, SpaceRun j ∧ bs.data.toList.drop i = j ++ bs.data.toList.drop (skipLeading bs i) ∧
      NoLeadingSpace (bs.data.toList.drop (skipLeading bs i)) := by
  induction i using skipLeading.induct bs with
  | case1 i hi hsp _ ih =>
    obtain ⟨j, hj, hdrop, hno⟩ := ih
    have hstep : skipLeading bs i = skipLeading bs (i + (decodeAt bs i).2) := by
      rw [skipLeading, if_pos hi, if_pos hsp]
    rcases decodeAt_sound hi with hrep | ⟨⟨post, hpost⟩, hw⟩
    · rw [hrep] at hsp
      exact absurd hsp (by decide)
    · -- the character read is encoded in full, and the scan goes on after it
      have hpost' : post = bs.data.toList.drop (i + (decodeAt bs i).2) := by
        rw [hw, ← List.drop_drop, hpost, ← String.length_utf8EncodeChar, List.drop_left]
      refine ⟨String.utf8EncodeChar (decodeAt bs i).1 ++ j, (SpaceRun.encode hsp).append hj, ?_, ?_⟩
      · rw [hstep, hpost, hpost', hdrop, List.append_assoc]
      · rw [hstep]
        exact hno
  | case2 i hi hsp =>
    have hstop : skipLeading bs i = i := by rw [skipLeading, if_pos hi, if_neg hsp]
    refine ⟨[], SpaceRun.nil, by rw [hstop, List.nil_append], ?_⟩
    intro c r hc h
    rw [hstop] at h
    rw [decodeAt_of_drop h] at hsp
    exact hsp hc
  | case3 i hi =>
    have hstop : skipLeading bs i = i := by rw [skipLeading, if_neg hi]
    rw [hstop, List.drop_eq_nil_of_le (by simpa using Nat.le_of_not_lt hi)]
    exact ⟨[], SpaceRun.nil, rfl, noLeadingSpace_nil⟩


/-- Cutting a slice short keeps what comes before the cut. -/
theorem take_drop_of_append {l r e : List UInt8} {start stop m : ℕ} (hstop : stop ≤ l.length)
    (h : (l.take stop).drop start = r ++ e) (hm : m + e.length = stop) :
    (l.take m).drop start = r := by
  have hlen := congrArg List.length h
  rw [List.length_drop, List.length_take, Nat.min_eq_left hstop, List.length_append] at hlen
  have htake : l.take m = (l.take stop).take m := by
    rw [List.take_take, Nat.min_eq_left (by omega)]
  rw [htake, List.drop_take, h, List.take_append_of_le_length (by omega)]
  exact List.take_of_length_le (by omega)

/-- Up to `stop`, `dropTrailing` takes off a run of white space at the end of the bytes from
`start` on, and stops where no white space ends. -/
theorem dropTrailing_spec (bs : ByteArray) (start stop : ℕ) (hstop : stop ≤ bs.size) :
    ∃ k, SpaceRun k ∧
      (bs.data.toList.take stop).drop start =
        (bs.data.toList.take (dropTrailing bs start stop)).drop start ++ k ∧
      NoTrailingSpace ((bs.data.toList.take (dropTrailing bs start stop)).drop start) := by
  induction stop using dropTrailing.induct bs start with
  | case1 stop c hfind hfit _ ih =>
    have hstep : dropTrailing bs start stop = dropTrailing bs start (stop - c.toString.toUTF8.size) := by
      rw [dropTrailing, hfind]
      simp only [dif_pos hfit]
    obtain ⟨k, hk, hslice, hno⟩ := ih (by omega)
    have hc : isSpaceChar c = true := List.elem_eq_true_of_mem (List.mem_of_find?_eq_some hfind)
    obtain ⟨r, hr⟩ := (endsWithChar_iff hstop c).mp (List.find?_some hfind)
    have hcut : (bs.data.toList.take (stop - c.toString.toUTF8.size)).drop start = r :=
      take_drop_of_append (by simpa using hstop) hr
        (by have := toString_toUTF8_size c; rw [String.length_utf8EncodeChar]; omega)
    refine ⟨k ++ String.utf8EncodeChar c, hk.append (SpaceRun.encode hc), ?_, ?_⟩
    · rw [hstep, hr, ← hcut, hslice, List.append_assoc]
    · rw [hstep]
      exact hno
  | case2 stop c hfind hfit =>
    -- a character found at the end fits before `stop`
    have hends := List.find?_some hfind
    unfold endsWithChar at hends
    simp only [Bool.and_eq_true, decide_eq_true_eq] at hends
    exact absurd ⟨by rw [toString_toUTF8_size]; exact c.utf8Size_pos, by omega⟩ hfit
  | case3 stop hfind =>
    have hstay : dropTrailing bs start stop = stop := by rw [dropTrailing, hfind]
    refine ⟨[], SpaceRun.nil, by rw [hstay, List.append_nil], ?_⟩
    intro c r hc h
    rw [hstay] at h
    exact List.find?_eq_none.mp hfind c (List.mem_of_elem_eq_true hc)
      ((endsWithChar_iff hstop c).mpr ⟨r, h⟩)


/-! ## What `trimSpace` keeps -/

/-- `trimSpace` cuts the text into white space, trimmed bytes and white space, and keeps the
trimmed bytes. -/
theorem trimSpace_spec (bs : ByteArray) :
    ∃ j k, SpaceRun j ∧ SpaceRun k ∧ Trimmed (trimSpace bs).data.toList ∧
      bs.data.toList = j ++ (trimSpace bs).data.toList ++ k := by
  obtain ⟨j, hj, hfront, hlead⟩ := skipLeading_spec bs 0
  obtain ⟨k, hk, hback, htrail⟩ := dropTrailing_spec bs (skipLeading bs 0) bs.size le_rfl
  have hkept : (trimSpace bs).data.toList =
      (bs.data.toList.take (dropTrailing bs (skipLeading bs 0) bs.size)).drop (skipLeading bs 0) := by
    rw [trimSpace, extract_toList, List.drop_take]
  rw [List.take_of_length_le (by simp)] at hback
  rw [← hkept] at hback htrail
  refine ⟨j, k, hj, hk, ?_, by rw [List.drop_zero] at hfront; rw [hfront, hback, List.append_assoc]⟩
  rcases eq_or_ne (trimSpace bs).data.toList [] with hnil | hne
  · exact .inl hnil
  · -- what is kept starts where the leading white space stops
    refine .inr ⟨fun c r hc h => hlead c (r ++ k) hc ?_, htrail⟩
    rw [hback, h, List.append_assoc]

/-- However a text is cut into white space, trimmed bytes and white space, `trimSpace` keeps
those trimmed bytes. -/
theorem trimSpace_eq_of_cut {bs : ByteArray} {j t k : List UInt8}
    (h : bs.data.toList = j ++ t ++ k) (hj : SpaceRun j) (hk : SpaceRun k) (ht : Trimmed t) :
    (trimSpace bs).data.toList = t := by
  obtain ⟨j', k', hj', hk', ht', hcut⟩ := trimSpace_spec bs
  exact trimmed_unique (hcut.symm.trans h) hj' hk' hj hk ht' ht

/-- A text is trimmed to nothing exactly when it is all white space. -/
theorem trimSpace_eq_nil_iff (bs : ByteArray) :
    (trimSpace bs).data.toList = [] ↔ SpaceRun bs.data.toList := by
  constructor
  · intro hnil
    obtain ⟨j, k, hj, hk, -, hcut⟩ := trimSpace_spec bs
    rw [hcut, hnil, List.append_nil]
    exact hj.append hk
  · intro hrun
    exact trimSpace_eq_of_cut (by rw [List.append_nil, List.append_nil]) hrun SpaceRun.nil (.inl rfl)

/-- White space around a text does not change what `trimSpace` keeps of it. -/
theorem trimSpace_of_runs {bs bs' : ByteArray} {j k : List UInt8}
    (h : bs.data.toList = j ++ bs'.data.toList ++ k) (hj : SpaceRun j) (hk : SpaceRun k) :
    trimSpace bs = trimSpace bs' := by
  obtain ⟨j', k', hj', hk', ht', hcut⟩ := trimSpace_spec bs'
  apply ByteArray.ext
  apply Array.ext'
  apply trimSpace_eq_of_cut (j := j ++ j') (k := k' ++ k) _ (hj.append hj') (hk'.append hk) ht'
  rw [h, hcut]
  simp only [List.append_assoc]


/-! ## Lines of white space -/

namespace SpaceRun

/-- A line feed inside a run is a character of its own: what stands before it and after it are
runs. -/
theorem split_lf {a b : List UInt8} (h : SpaceRun (a ++ 0x0A :: b)) : SpaceRun a ∧ SpaceRun b := by
  obtain ⟨cs, hcs, hx⟩ := h
  induction cs generalizing a with
  | nil => simp at hx
  | cons c cs ih =>
    rw [List.flatMap_cons] at hx
    have hc : isSpaceChar c = true := hcs c (by simp)
    have hcs' : ∀ d ∈ cs, isSpaceChar d = true := fun d hd => hcs d (by simp [hd])
    rcases eq_or_ne a [] with rfl | hne
    · -- the run starts with the line feed itself
      have hlf : String.utf8EncodeChar '\n' ++ b =
          String.utf8EncodeChar c ++ cs.flatMap String.utf8EncodeChar := hx
      obtain rfl := encode_eq_of_append_eq hlf
      exact ⟨nil, cs, hcs', List.append_cancel_left hlf⟩
    · -- a line feed is not a continuation byte, so `a` holds all of `c`'s encoding
      obtain ⟨a', rfl⟩ := encode_prefix_of_not_tail hne (by decide) hx
      rw [List.append_assoc] at hx
      obtain ⟨ha', hb⟩ := ih hcs' (List.append_cancel_left hx)
      exact ⟨(encode hc).append ha', hb⟩

/-- Every line of a run is a run. -/
theorem splitOn_lf {r : List UInt8} (h : SpaceRun r) : ∀ l ∈ r.splitOn 0x0A, SpaceRun l := by
  induction hn : r.length using Nat.strong_induction_on generalizing r with
  | _ n ih =>
    by_cases hmem : (0x0A : UInt8) ∈ r
    · -- cut at a line feed; both sides are shorter runs
      obtain ⟨a, b, rfl⟩ := List.append_of_mem hmem
      obtain ⟨ha, hb⟩ := h.split_lf
      have hlen : a.length < n ∧ b.length < n := by
        subst hn
        simp only [List.length_append, List.length_cons]
        omega
      rw [List.splitOn_append_cons_self]
      intro l hl
      rcases List.mem_append.mp hl with hl | hl
      · exact ih _ hlen.1 ha rfl l hl
      · exact ih _ hlen.2 hb rfl l hl
    · rw [List.splitOn_eq_singleton hmem]
      intro l hl
      rw [List.mem_singleton.mp hl]
      exact h

end SpaceRun

end TurnRelay.Utf8
