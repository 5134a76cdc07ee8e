import Mathlib
import TurnRelay.Proofs.Assistant.Output

/-!
# The kept tail of the error stream

A process writes its error stream into a `TailBuffer` bounded at 4096 bytes, in as many writes as
the stream arrives in. Main statement, `tailBuffer_keeps_last_bytes`: for every bound and every
sequence of writes, each write reports all its bytes as written, and the buffer then holds exactly
the last `max` bytes of everything written (all of it, when there is less). So every process
failure of a turn carries the last 4096 bytes of its process's error stream, and a failure to
start carries none.

The bytes kept are `l.drop (l.length - max)` of what was written, `l`. One write keeps that
form (`TailBuffer.write_keeps_last`), so a run of writes does (`TailBuffer.writeAll_keeps_last`).
-/

namespace TurnRelay.Assistant

/-- Writes byte strings one after another: the count each write reports, and the buffer after
the last one. -/
def TailBuffer.writeAll (t : TailBuffer) : List ByteArray → List Nat × TailBuffer
  | [] => ([], t)
  | p :: ps => ((t.write p).1 :: ((t.write p).2.writeAll ps).1, ((t.write p).2.writeAll ps).2)

/-- The bytes of a byte string from offset `i` to its end. -/
theorem extract_size_toList (bs : ByteArray) (i : Nat) :
    (bs.extract i bs.size).data.toList = bs.data.toList.drop i := by
  rw [ByteArray.data_extract, Array.toList_extract, List.extract_eq_take_drop]
  exact List.take_of_length_le (by simp)

namespace TailBuffer

@[simp] theorem write_fst (t : TailBuffer) (p : ByteArray) : (t.write p).1 = p.size := rfl

@[simp] theorem write_max (t : TailBuffer) (p : ByteArray) : (t.write p).2.max = t.max := rfl

/-- A write appends, then drops from the front what passes the bound. -/
theorem write_bytes_toList (t : TailBuffer) (p : ByteArray) :
    (t.write p).2.bytes.data.toList =
      (t.bytes.data.toList ++ p.data.toList).drop (t.bytes.size + p.size - t.max) := by
  simp only [write]
  split
  · rw [extract_size_toList, ByteArray.data_append, Array.toList_append, ByteArray.size_append]
  · next hkeep =>
    rw [ByteArray.size_append] at hkeep
    rw [Nat.sub_eq_zero_of_le (by omega), List.drop_zero, ByteArray.data_append,
      Array.toList_append]

end TailBuffer

/-- Keeping the last `m` elements, then appending and keeping the last `m` again, keeps the last
`m` of the whole. -/
theorem drop_append_keeps_last {α : Type} (l q : List α) (m : Nat) :
    (l.drop (l.length - m) ++ q).drop ((l.drop (l.length - m)).length + q.length - m) =
      (l ++ q).drop ((l ++ q).length - m) := by
  have hfront : (l ++ q).drop (l.length - m) = l.drop (l.length - m) ++ q :=
    List.drop_append_of_le_length (by omega)
  rw [← hfront, List.drop_drop, List.length_drop, List.length_append]
  congr 1
  omega

namespace TailBuffer

/-- One write keeps the buffer holding the last `max` bytes of all that was written. -/
theorem write_keeps_last {t : TailBuffer} {l : List UInt8} (p : ByteArray)
    (ht : t.bytes.data.toList = l.drop (l.length - t.max)) :
    (t.write p).2.bytes.data.toList =
      (l ++ p.data.toList).drop ((l ++ p.data.toList).length - t.max) := by
  have hsize : t.bytes.size + p.size = (l.drop (l.length - t.max)).length + p.data.toList.length := by
    rw [← ht]
    simp
  rw [write_bytes_toList, hsize, ht]
  exact drop_append_keeps_last l p.data.toList t.max

/-- A run of writes reports every byte of each write, and keeps the buffer holding the last
`max` bytes of all that was written. -/
theorem writeAll_keeps_last (ps : List ByteArray) {t : TailBuffer} {l : List UInt8}
    (ht : t.bytes.data.toList = l.drop (l.length - t.max)) :
    (t.writeAll ps).1 = ps.map ByteArray.size ∧ (t.writeAll ps).2.max = t.max ∧
      (t.writeAll ps).2.bytes.data.toList =
        (l ++ ps.flatMap (·.data.toList)).drop ((l ++ ps.flatMap (·.data.toList)).length - t.max) := by
  -- induction on the writes, carrying everything written so far in `l`
  induction ps generalizing t l with
  | nil => simpa [writeAll] using ht
  | cons p ps ih =>
    have hstep := write_keeps_last p ht
    rw [← write_max t p] at hstep
    obtain ⟨hcounts, hmax, hbytes⟩ := ih hstep
    refine ⟨by simp [writeAll, hcounts], by simp [writeAll, hmax], ?_⟩
    simp only [writeAll, hbytes, write_max, List.flatMap_cons, List.append_assoc]

end TailBuffer

/-- The process failures among a turn's results carry the last 4096 bytes of the process's
error stream. -/
theorem turnResults_failure_stderr {run : ProcessRun} {e : ProcessError}
    (he : .failure (.process e) ∈ turnResults run) :
    e.stderr = tailBytes run.stderr stderrTailSize := by
  rw [turnResults_eq] at he
  simp only [List.mem_append, List.mem_map, reduceCtorEq, and_false, exists_false,
    false_or] at he
  split_ifs at he <;> simp_all

/-- What `tailBytes` keeps: the last `n` bytes. -/
theorem tailBytes_toList (bs : ByteArray) (n : Nat) :
    (tailBytes bs n).data.toList = bs.data.toList.drop (bs.data.toList.length - n) := by
  rw [tailBytes, extract_size_toList, Array.length_toList, ByteArray.size_data]

/-- A bounded buffer keeps the last bytes written to it. For every bound `m` and every sequence of
writes `ps` into an empty buffer, each write reports all of its bytes as written, and the buffer
then holds exactly the last `m` bytes of the concatenation of `ps`, or all of it when it is
shorter. So a turn's process failures carry the last 4096 bytes its process wrote to its error
stream: a failure to start carries none, as the process never ran, and a failure among the
results of a run carries those of the run's error stream. -/
theorem tailBuffer_keeps_last_bytes (m : Nat) (ps : List ByteArray) :
    (({ max := m } : TailBuffer).writeAll ps).1 = ps.map ByteArray.size ∧
      (({ max := m } : TailBuffer).writeAll ps).2.bytes.data.toList =
        (ps.flatMap (·.data.toList)).drop ((ps.flatMap (·.data.toList)).length - m) ∧
      ∀ (host : Host) (path workDir : String) (program : Program) (prompt : ByteArray)
        (opts : TurnOptions) (e : ProcessError),
        (startProgram host path workDir program prompt opts = .failed (.process e) →
          e.stderr = .empty) ∧
        (∀ items, startProgram host path workDir program prompt opts = .items items →
          .failure (.process e) ∈ items →
          e.stderr.data.toList = (program opts.args prompt).stderr.data.toList.drop
            ((program opts.args prompt).stderr.data.toList.length - stderrTailSize)) := by
  have hempty : ({ max := m } : TailBuffer).bytes.data.toList =
      ([] : List UInt8).drop (([] : List UInt8).length - m) := by simp
  obtain ⟨hcounts, -, hbytes⟩ := TailBuffer.writeAll_keeps_last ps hempty
  refine ⟨hcounts, by simpa only [List.nil_append] using hbytes, ?_⟩
  intro host path workDir program prompt opts e
  constructor
  · -- a start that fails never ran the process
    intro hstart
    unfold startProgram at hstart
    split_ifs at hstart
    all_goals simp only [reduceCtorEq, Started.failed.injEq, TurnError.process.injEq] at hstart
    all_goals rw [← hstart]
  · intro items hstart hmem
    unfold startProgram at hstart
    split_ifs at hstart
    all_goals simp only [Started.items.injEq] at hstart
    subst hstart
    rw [turnResults_failure_stderr hmem, tailBytes_toList]

end TurnRelay.Assistant
