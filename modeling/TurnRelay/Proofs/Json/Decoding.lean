import Mathlib
import TurnRelay.Proofs.Json.Slice
import TurnRelay.Json.Decode

/-!
# Running the field readers

The readers of `TurnRelay.Json.Decode` run in `Decoder`, a reader over the scope and a state
holding the first mismatch. This module gives each reader used by request bodies its run as a
pair (value, first mismatch), so that a record read member by member becomes a fold over the
object's members that later proofs can follow by induction.

## Main results

* `text_run`, `flag_run`, `raw_run`, `list_pure_run`, `list_raw_run`: what one field reader
  leaves.
* `record_nil`, `record_cons`: a record is read one member at a time.
* `membersNamed`, `rawOf`: the members that a field's name selects, in document order, and the
  bytes a raw field keeps from them.
* `TextRawRecord.run`: a record of one string field and one raw field, read as a whole.
-/

namespace TurnRelay.Json

/-! ## What a value holds for a string field -/

/-- Whether a value may be read into a string field: a string or `null`. -/
def Node.textual : Node → Bool
  | .string .. | .null _ => true
  | _ => false

/-- What a string field holds after reading a value into an empty one: the string's text, the
empty string for `null`, and nothing for a value of any other kind. -/
def Node.textValue : Node → Option String
  | .string _ t => some t
  | .null _ => some ""
  | _ => none

/-- The text of a value that is a string. -/
def Node.stringValue? : Node → Option String
  | .string _ t => some t
  | _ => none

/-- Kinds decide whether a value fits a string field. -/
theorem Node.textual_eq_of_kindName {m n : Node} (h : m.kindName = n.kindName) :
    m.textual = n.textual := by
  cases m <;> cases n <;> simp_all [Node.kindName, Node.textual]

theorem Node.textValue_eq_none {n : Node} (h : n.textual = false) : n.textValue = none := by
  cases n <;> simp_all [Node.textual, Node.textValue]

/-- The values of an object's members whose names select the field called `field`, in document
order. -/
def membersNamed (field : String) (members : List (String × Node)) : List Node :=
  (members.filter fun m => foldMatches m.1 field).map (·.2)

theorem membersNamed_cons (field k : String) (v : Node) (ms : List (String × Node)) :
    membersNamed field ((k, v) :: ms) =
      if foldMatches k field then v :: membersNamed field ms else membersNamed field ms := by
  by_cases h : foldMatches k field <;> simp [membersNamed, h]

/-- The bytes a raw field holds once an object's members are read into it, starting from `d`:
those of the last member that selects the field. -/
def rawOf (field : String) (src d : ByteArray) (ms : List (String × Node)) : ByteArray :=
  ((membersNamed field ms).map (·.raw src)).getLastD d

theorem rawOf_cons (field : String) (src d : ByteArray) (k : String) (v : Node)
    (ms : List (String × Node)) :
    rawOf field src d ((k, v) :: ms) =
      if foldMatches k field then rawOf field src (v.raw src) ms else rawOf field src d ms := by
  rw [rawOf, membersNamed_cons]
  split
  · rw [List.map_cons, List.getLastD_cons]
    rfl
  · rfl

theorem foldMatches_length {k f : String} (h : foldMatches k f = true) :
    k.toList.length = f.toList.length := by
  unfold foldMatches at h
  simp only [Bool.and_eq_true, beq_iff_eq] at h
  exact h.1

/-- Names of different lengths select no member in common. -/
theorem foldMatches_eq_false_of_length {k f g : String} (h : foldMatches k f = true)
    (hfg : f.toList.length ≠ g.toList.length) : foldMatches k g = false := by
  rw [Bool.eq_false_iff]
  intro hg
  exact hfg ((foldMatches_length h).symm.trans (foldMatches_length hg))

/-! ## Runs of the readers -/

theorem run_bind {α β : Type} (x : Decoder α) (f : α → Decoder β) (sc : Scope)
    (st : Option TypeMismatch) :
    (ReaderT.run (x >>= f) sc).run st =
      (ReaderT.run (f ((ReaderT.run x sc).run st).1) sc).run ((ReaderT.run x sc).run st).2 := rfl

theorem run_within {α : Type} (k : String) (act : Decoder α) (sc : Scope) :
    ReaderT.run (Decoder.within k act) sc =
      ReaderT.run act { sc with path := Decoder.escapeStep k :: sc.path } := rfl

theorem raw_run (cur : ByteArray) (n : Node) (sc : Scope) (st : Option TypeMismatch) :
    (ReaderT.run (raw cur n) sc).run st = (n.raw sc.src, st) := rfl

/-- A string field read from a value: a string replaces it, `null` keeps it, and any other value
keeps it and is the first mismatch unless one is already recorded. -/
theorem text_run (tn cur : String) (n : Node) (sc : Scope) (st : Option TypeMismatch) :
    (ReaderT.run (text tn cur n) sc).run st =
      ((match n with | .string _ t => t | _ => cur),
        if n.textual then st else some (st.getD ⟨n.kindName, tn, sc.root, sc.path.reverse⟩)) := by
  cases n <;> cases st <;> rfl

/-- A flag read from a value: a boolean replaces it, `null` keeps it, and any other value keeps it
and is the first mismatch unless one is already recorded. -/
theorem flag_run (cur : Bool) (n : Node) (sc : Scope) (st : Option TypeMismatch) :
    (ReaderT.run (flag cur n) sc).run st =
      ((match n with | .bool _ b => b | _ => cur),
        match n with
        | .bool .. | .null _ => st
        | _ => some (st.getD ⟨n.kindName, "bool", sc.root, sc.path.reverse⟩)) := by
  cases n <;> cases st <;> rfl

/-- A list field whose elements are kept as they are holds an array's elements. -/
theorem list_pure_run (tn : String) (cur : Option (List Node)) (sp : Span) (items : List Node)
    (sc : Scope) (st : Option TypeMismatch) :
    (ReaderT.run (list tn (fun n => pure n) cur (.array sp items)) sc).run st = (some items, st) := by
  -- indexing each element into the path changes nothing when the element is kept as it is
  have hmap : (items.zipIdx.mapM fun (p : Node × Nat) =>
      Decoder.within (toString p.2) (pure p.1 : Decoder Node)) = pure (items.zipIdx.map Prod.fst) := by
    rw [← List.mapM_pure]
    rfl
  rw [list, run_bind, hmap, List.zipIdx_map_fst]
  rfl

/-- A list field whose elements are kept as raw bytes holds the bytes of an array's elements. -/
theorem list_raw_run (tn : String) (c : ByteArray) (cur : Option (List ByteArray)) (sp : Span)
    (items : List Node) (sc : Scope) (st : Option TypeMismatch) :
    (ReaderT.run (list tn (raw c) cur (.array sp items)) sc).run st =
      (some (items.map (·.raw sc.src)), st) := by
  -- each element's bytes come from the source, whatever index the path is at
  have hmap : ∀ l : List (Node × ℕ), (ReaderT.run (l.mapM fun (p : Node × ℕ) =>
      Decoder.within (toString p.2) (raw c p.1)) sc).run st =
        ((l.map Prod.fst).map (·.raw sc.src), st) := by
    intro l
    induction l with
    | nil => rfl
    | cons p l ih =>
      rw [List.mapM_cons, run_bind, run_within, raw_run, run_bind, ih]
      rfl
  rw [list, run_bind, hmap, List.zipIdx_map_fst]
  rfl

/-! ## Records -/

section Record

variable {σ : Type}

theorem record_nil (tn : String) (fields : List (String × FieldReader σ)) (cur : σ) (sp : Span) :
    record tn fields cur (.object sp []) = pure cur := rfl

/-- A record reads its first member with the first field it selects, if any, and then the rest
of the object from there. -/
theorem record_cons (tn : String) (fields : List (String × FieldReader σ)) (cur : σ) (sp : Span)
    (k : String) (v : Node) (ms : List (String × Node)) :
    record tn fields cur (.object sp ((k, v) :: ms)) =
      (match fields.find? (fun f => foldMatches k f.1) with
        | some f => Decoder.within k (f.2 cur v)
        | none => pure cur) >>= fun cur' => record tn fields cur' (.object sp ms) := rfl

end Record

/-! ## Records of a string field and a raw field -/

/-- A record of two fields: one read as a string, one kept as raw bytes, selected by member names
no key matches both. -/
structure TextRawRecord (σ : Type) where
  textName : String
  rawName : String
  getText : σ → String
  setText : σ → String → σ
  getRaw : σ → ByteArray
  setRaw : σ → ByteArray → σ
  getText_setText : ∀ s x, getText (setText s x) = x
  getRaw_setText : ∀ s x, getRaw (setText s x) = getRaw s
  getText_setRaw : ∀ s y, getText (setRaw s y) = getText s
  getRaw_setRaw : ∀ s y, getRaw (setRaw s y) = y
  disjoint : ∀ k, foldMatches k textName = true → foldMatches k rawName = false

namespace TextRawRecord

variable {σ : Type} (R : TextRawRecord σ)

/-- The field readers of such a record. -/
def fields : List (String × FieldReader σ) :=
  [(R.textName, fun b n => do pure (R.setText b (← text "string" (R.getText b) n))),
    (R.rawName, fun b n => do pure (R.setRaw b (← raw (R.getRaw b) n)))]

variable {R}

theorem find?_text {k : String} (ht : foldMatches k R.textName = true) :
    R.fields.find? (fun f => foldMatches k f.1) = some (R.fields.head (by simp [fields])) := by
  simp [fields, ht]

theorem find?_raw {k : String} (ht : foldMatches k R.textName = false)
    (hr : foldMatches k R.rawName = true) :
    R.fields.find? (fun f => foldMatches k f.1) = some (R.fields.getLast (by simp [fields])) := by
  simp [fields, ht, hr]

theorem find?_none {k : String} (ht : foldMatches k R.textName = false)
    (hr : foldMatches k R.rawName = false) :
    R.fields.find? (fun f => foldMatches k f.1) = none := by
  simp [fields, ht, hr]

variable (R)

theorem text_step (k : String) (b : σ) (v : Node) (sc : Scope) (st : Option TypeMismatch) :
    (ReaderT.run (Decoder.within k ((R.fields.head (by simp [fields])).2 b v)) sc).run st =
      (R.setText b (match v with | .string _ t => t | _ => R.getText b),
        if v.textual then st
        else some (st.getD
          ⟨v.kindName, "string", sc.root, (Decoder.escapeStep k :: sc.path).reverse⟩)) := by
  rw [run_within]
  simp only [fields, List.head_cons]
  rw [run_bind, text_run]
  rfl

theorem raw_step (k : String) (b : σ) (v : Node) (sc : Scope) (st : Option TypeMismatch) :
    (ReaderT.run (Decoder.within k ((R.fields.getLast (by simp [fields])).2 b v)) sc).run st =
      (R.setRaw b (v.raw sc.src), st) := rfl

/-- Reading such a record member by member: its string field is the last string among the
members that select it, its raw field the bytes of the last member that selects it, and a
mismatch is recorded exactly when a member selecting the string field is neither a string nor
null. -/
theorem run (tn : String) (sp : Span) (ms : List (String × Node)) (b : σ) (sc : Scope)
    (st : Option TypeMismatch) :
    let r := (ReaderT.run (record tn R.fields b (.object sp ms)) sc).run st
    R.getText r.1 =
        ((membersNamed R.textName ms).filterMap Node.stringValue?).getLastD (R.getText b) ∧
      R.getRaw r.1 = ((membersNamed R.rawName ms).map (·.raw sc.src)).getLastD (R.getRaw b) ∧
      r.2.isNone = (st.isNone && (membersNamed R.textName ms).all Node.textual) := by
  induction ms generalizing b st with
  | nil => exact ⟨rfl, rfl, (Bool.and_true _).symm⟩
  | cons m ms ih =>
    obtain ⟨k, v⟩ := m
    rw [record_cons, run_bind, membersNamed_cons, membersNamed_cons]
    by_cases ht : foldMatches k R.textName = true
    · -- the member sets the string field
      rw [find?_text ht]
      dsimp only
      rw [text_step]
      dsimp only
      rw [(ih _ _).1, (ih _ _).2.1, (ih _ _).2.2, if_pos ht, if_neg (by simp [R.disjoint k ht]),
        R.getText_setText, R.getRaw_setText]
      refine ⟨?_, rfl, ?_⟩
      · cases v <;> simp only [List.filterMap_cons, Node.stringValue?, List.getLastD_cons]
      · rw [List.all_cons]
        cases v.textual <;> simp
    · have ht' : foldMatches k R.textName = false := by simpa using ht
      rw [if_neg ht]
      by_cases hr : foldMatches k R.rawName = true
      · -- the member sets the raw field
        rw [find?_raw ht' hr]
        dsimp only
        rw [raw_step]
        dsimp only
        rw [(ih _ _).1, (ih _ _).2.1, (ih _ _).2.2, if_pos hr, R.getText_setRaw, R.getRaw_setRaw,
          List.map_cons, List.getLastD_cons]
        exact ⟨rfl, rfl, rfl⟩
      · -- the member selects no field
        have hr' : foldMatches k R.rawName = false := by simpa using hr
        rw [find?_none ht' hr', if_neg hr]
        exact ih b st

end TextRawRecord

end TurnRelay.Json
