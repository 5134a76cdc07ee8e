import Mathlib
import TurnRelay.Proofs.Json.Decoding

/-!
# Field readers seen from outside

A field reader runs in `Decoder`: it sees the document, the root type's name and the path, and
it may record the first mismatch. Seen from outside, every reader of this library does two
things that do not depend on where it runs. It leaves a value that depends only on the document
and the member it reads, and it records a mismatch, unless one is recorded already, exactly
when that member does not fit it. `ReadsAs` says this of one reader together with the test of
what fits. It is kept by `pure`, `>>=` and `Decoder.within`, so a record's reader has it as soon
as its fields' readers do.

For a record, the value is a fold over the object's members of the field each one selects, and
the record fits when every member fits the field it selects. When no member name can select two
fields (`NamesApart`, decided on the names' case folds), each field can be followed on its own:
its value is a fold over the members that select it, and the record fits exactly when each
field's members fit it.

## Main definitions

* `Decoder.value`, `ReadsAs`.
* `recordValue`, `recordFits`: a record's value and its test, member by member.
* `listFits`, `Node.dictFits`, `Node.wordFits`: what list, dictionary and integer fields accept.
* `keyFold`, `NamesApart`: member names up to the case folding `foldMatches` allows.
* `Node.looseFits`: whether a value is read as a loose value without a mismatch.

## Main results

* `readsAs_bind`, `readsAs_within` and the field readers: `readsAs_text`, `readsAs_optText`,
  `readsAs_raw`, `readsAs_word`, `readsAs_loose`, `readsAs_dict`, `readsAs_list` and
  `readsAs_record`, each with the value it leaves.
* `foldMatches_keyFold`: a member name selects only fields with its own case fold.
* `get_recordStep`, `get_recordStep_filterMap`, `get_recordStep_map`, `memberFits_all`: a
  record read one field at a time.
* `read_eq_ok`, `read_eq_mismatch`: a document is read as its value exactly when it fits.
* `read_eq_notJson`: a document that is not JSON is a syntax error.
-/

namespace TurnRelay.Json

/-- The scope of a reader at the top of a document `src`. -/
def Scope.top (src : ByteArray) : Scope := ⟨src, "", []⟩

@[simp] theorem Scope.top_src (src : ByteArray) : (Scope.top src).src = src := rfl

/-- The value a reader leaves when it reads in `src` from the top with nothing recorded yet. -/
def Decoder.value {α : Type} (act : Decoder α) (src : ByteArray) : α :=
  ((ReaderT.run act (Scope.top src)).run none).1

/-- A reader seen from outside: the value it leaves depends only on the document, not on where
in it the reader stands nor on what was recorded before; and it records a mismatch, unless one
is recorded already, exactly when what it reads does not `fit` the document. -/
def ReadsAs {α : Type} (act : Decoder α) (fits : ByteArray → Bool) : Prop :=
  ∀ sc st, ((ReaderT.run act sc).run st).1 = act.value sc.src ∧
    ((ReaderT.run act sc).run st).2.isNone = (st.isNone && fits sc.src)

/-! ## Readers built from readers -/

section Combinators

variable {α β : Type}

theorem readsAs_congr {act : Decoder α} {f g : ByteArray → Bool} (h : ReadsAs act f)
    (hfg : ∀ src, f src = g src) : ReadsAs act g := by
  rwa [← funext hfg]

theorem readsAs_pure (a : α) : ReadsAs (pure a : Decoder α) fun _ => true :=
  fun _ st => ⟨rfl, (Bool.and_true st.isNone).symm⟩

@[simp] theorem value_pure (a : α) (src : ByteArray) : (pure a : Decoder α).value src = a := rfl

/-- A reader that sets a field from what another reads leaves what that one leaves, set. -/
@[simp] theorem value_map (x : Decoder α) (g : α → β) (src : ByteArray) :
    (g <$> x).value src = g (x.value src) := rfl

theorem readsAs_bind {x : Decoder α} {f : α → Decoder β} {fx : ByteArray → Bool}
    {ff : α → ByteArray → Bool} (hx : ReadsAs x fx) (hf : ∀ a, ReadsAs (f a) (ff a)) :
    ReadsAs (x >>= f) fun src => fx src && ff (x.value src) src := by
  intro sc st
  obtain ⟨hx1, hx2⟩ := hx sc st
  obtain ⟨hx1', -⟩ := hx (Scope.top sc.src) none
  obtain ⟨hf1, hf2⟩ := hf ((ReaderT.run x sc).run st).1 sc ((ReaderT.run x sc).run st).2
  obtain ⟨hf1', -⟩ := hf (x.value sc.src) (Scope.top sc.src)
    ((ReaderT.run x (Scope.top sc.src)).run none).2
  rw [run_bind]
  refine ⟨?_, ?_⟩
  · -- both runs go on with the value `x` leaves, which is the same
    rw [hf1, hx1]
    conv => rhs; unfold Decoder.value
    rw [run_bind, hx1', Scope.top_src, hf1', Scope.top_src]
  · rw [hf2, hx2, hx1, Bool.and_assoc]

theorem readsAs_bind_pure {x : Decoder α} {fx : ByteArray → Bool} (hx : ReadsAs x fx)
    (g : α → β) : ReadsAs (x >>= fun a => pure (g a)) fx :=
  readsAs_congr (readsAs_bind hx fun _ => readsAs_pure _) fun _ => Bool.and_true _

/-- Reading on after `x` goes on from the value `x` leaves, whatever `x` recorded. -/
theorem value_bind {x : Decoder α} {f : α → Decoder β} {ff : α → ByteArray → Bool}
    (hf : ∀ a, ReadsAs (f a) (ff a)) (src : ByteArray) :
    (x >>= f).value src = (f (x.value src)).value src := by
  obtain ⟨h, -⟩ := (hf (x.value src)) (Scope.top src) ((ReaderT.run x (Scope.top src)).run none).2
  rw [Scope.top_src] at h
  rw [← h]
  rfl

theorem readsAs_within {act : Decoder α} {fits : ByteArray → Bool} (h : ReadsAs act fits)
    (k : String) : ReadsAs (Decoder.within k act) fits := by
  intro sc st
  obtain ⟨h1, h2⟩ := h { sc with path := Decoder.escapeStep k :: sc.path } st
  -- from the top, the step down the path is as invisible as anywhere else
  obtain ⟨h1', -⟩ := h { Scope.top sc.src with path := [Decoder.escapeStep k] } none
  rw [run_within]
  refine ⟨h1.trans ?_, h2⟩
  unfold Decoder.value
  rw [run_within]
  exact h1'.symm

theorem value_within {act : Decoder α} {fits : ByteArray → Bool} (h : ReadsAs act fits)
    (k : String) (src : ByteArray) : (Decoder.within k act).value src = act.value src := by
  unfold Decoder.value
  rw [run_within]
  exact (h _ none).1

theorem readsAs_mismatch (found tn : String) :
    ReadsAs (Decoder.mismatch found tn) fun _ => false := by
  intro sc st
  cases st <;> exact ⟨rfl, rfl⟩

end Combinators

/-! ## Field readers -/

theorem run_read_bind {α : Type} (f : Scope → Decoder α) (sc : Scope) :
    ReaderT.run (read >>= f) sc = ReaderT.run (f sc) sc := rfl

/-- What an optional string field holds after a value: a string's text, nothing for `null`. -/
def Node.optTextValue? : Node → Option (Option String)
  | .string _ t => some (some t)
  | .null _ => some none
  | _ => none

/-- The integer a value gives an integer field: that of a number written as an integer in
range. -/
def Node.wordValue? (src : ByteArray) : Node → Option Int
  | .number sp => (Decimal.parseWord (numberText src sp)).toOption
  | _ => none

/-- Whether a value may be read into an integer field: `null`, or a number written as an
integer in range. -/
def Node.wordFits (src : ByteArray) : Node → Bool
  | .number sp => (Decimal.parseWord (numberText src sp)).isOk
  | .null _ => true
  | _ => false

section Fields

variable (src : ByteArray) (n : Node)

@[simp] theorem value_text (tn cur : String) :
    (text tn cur n).value src = n.stringValue?.getD cur := by
  cases n <;> rfl

theorem readsAs_text (tn cur : String) : ReadsAs (text tn cur n) fun _ => n.textual := by
  intro sc st
  rw [text_run, value_text]
  refine ⟨by cases n <;> rfl, ?_⟩
  cases n <;> cases st <;> rfl

@[simp] theorem value_optText (cur : Option String) :
    (optText cur n).value src = n.optTextValue?.getD cur := by
  cases n <;> rfl

theorem readsAs_optText (cur : Option String) : ReadsAs (optText cur n) fun _ => n.textual := by
  intro sc st
  cases n <;> cases st <;> exact ⟨rfl, rfl⟩

@[simp] theorem value_raw (cur : ByteArray) : (raw cur n).value src = n.raw src := rfl

theorem readsAs_raw (cur : ByteArray) : ReadsAs (raw cur n) fun _ => true :=
  fun _ st => ⟨rfl, (Bool.and_true st.isNone).symm⟩

theorem word_number_ok {tn : String} {cur v : Int} {sp : Span} (sc : Scope)
    (h : Decimal.parseWord (numberText sc.src sp) = .ok v) (st : Option TypeMismatch) :
    (ReaderT.run (word tn cur (.number sp)) sc).run st = (v, st) := by
  rw [word, run_read_bind]
  dsimp only
  rw [h]
  rfl

theorem word_number_error {tn : String} {cur : Int} {sp : Span} (sc : Scope)
    {e : Decimal.IntegerError} (h : Decimal.parseWord (numberText sc.src sp) = .error e)
    (st : Option TypeMismatch) :
    (ReaderT.run (word tn cur (.number sp)) sc).run st =
      (cur, some (st.getD ⟨"number " ++ numberText sc.src sp, tn, sc.root, sc.path.reverse⟩)) := by
  rw [word, run_read_bind]
  dsimp only
  rw [h]
  cases st <;> rfl

@[simp] theorem value_word (tn : String) (cur : Int) :
    (word tn cur n).value src = (n.wordValue? src).getD cur := by
  cases n with
  | number sp =>
    unfold Decoder.value
    cases h : Decimal.parseWord (numberText src sp) with
    | ok v => rw [word_number_ok (Scope.top src) h, Node.wordValue?, h]; rfl
    | error e => rw [word_number_error (Scope.top src) h, Node.wordValue?, h]; rfl
  | _ => rfl

theorem readsAs_word (tn : String) (cur : Int) :
    ReadsAs (word tn cur n) fun src => n.wordFits src := by
  intro sc st
  cases n with
  | number sp =>
    rw [value_word]
    cases h : Decimal.parseWord (numberText sc.src sp) with
    | ok v =>
      rw [word_number_ok sc h]
      simp [Node.wordValue?, Node.wordFits, h, Except.toOption, Except.isOk, Except.toBool]
    | error e =>
      rw [word_number_error sc h]
      cases st <;>
        simp [Node.wordValue?, Node.wordFits, h, Except.toOption, Except.isOk, Except.toBool]
  | _ => cases st <;> exact ⟨rfl, rfl⟩

end Fields

/-- A value read with a reader of the form "a value replaces the field, others keep it":
the field ends as the last value that replaced it. -/
theorem foldl_getD {α : Type} (g : Node → Option α) (l : List Node) (c : α) :
    l.foldl (fun cur v => (g v).getD cur) c = (l.filterMap g).getLastD c := by
  induction l generalizing c with
  | nil => rfl
  | cons v l ih =>
    rw [List.foldl_cons, ih, List.filterMap_cons]
    cases g v <;> simp only [Option.getD_none, Option.getD_some, List.getLastD_cons]

/-- A value read with a reader of the form "every value replaces the field": the field ends as
the last value. -/
theorem foldl_last {α : Type} (g : Node → α) (l : List Node) (c : α) :
    l.foldl (fun _ v => g v) c = (l.map g).getLastD c := by
  induction l generalizing c with
  | nil => rfl
  | cons v l ih => rw [List.foldl_cons, ih, List.map_cons, List.getLastD_cons]

/-! ## Records -/

section Record

variable {σ : Type} (fields : List (String × FieldReader σ))
  (fits : String → Node → ByteArray → Bool)

/-- Every field of a record reads as `fits` says for its name, whatever the record holds. -/
def FieldsReadAs : Prop := ∀ f ∈ fields, ∀ b v, ReadsAs (f.2 b v) (fits f.1 v)

/-- The field a member name selects: the first whose name it matches up to case. -/
def fieldOf (k : String) : Option (String × FieldReader σ) :=
  fields.find? fun f => foldMatches k f.1

/-- How a record reads one member: with the field its name selects, if any. -/
def memberRead (b : σ) (m : String × Node) : Decoder σ :=
  match fieldOf fields m.1 with
  | some f => Decoder.within m.1 (f.2 b m.2)
  | none => pure b

/-- The record after one member, read in `src`. -/
def recordStep (src : ByteArray) (b : σ) (m : String × Node) : σ :=
  match fieldOf fields m.1 with
  | some f => (f.2 b m.2).value src
  | none => b

/-- Whether a member fits the field its name selects; one that selects none always fits. -/
def memberFits (src : ByteArray) (m : String × Node) : Bool :=
  match fieldOf fields m.1 with
  | some f => fits f.1 m.2 src
  | none => true

/-- The record read from a value, starting from `b`: an object's members folded in, anything
else leaves it as it was. -/
def recordValue (src : ByteArray) (b : σ) : Node → σ
  | .object _ ms => ms.foldl (recordStep fields src) b
  | _ => b

/-- Whether a value may be read as the record: `null`, or an object whose members all fit. -/
def recordFits (src : ByteArray) : Node → Bool
  | .object _ ms => ms.all (memberFits fields fits src)
  | .null _ => true
  | _ => false

variable {fields fits}

/-- The field a member name selects is a field whose name it matches. -/
theorem fieldOf_some {k : String} {g : String × FieldReader σ} (h : fieldOf fields k = some g) :
    g ∈ fields ∧ foldMatches k g.1 = true := by
  unfold fieldOf at h
  have hk := List.find?_some h
  exact ⟨List.mem_of_find?_eq_some h, hk⟩

theorem record_cons_memberRead (tn : String) (b : σ) (sp : Span) (m : String × Node)
    (ms : List (String × Node)) :
    record tn fields b (.object sp (m :: ms)) =
      memberRead fields b m >>= fun b' => record tn fields b' (.object sp ms) := rfl

theorem readsAs_memberRead (h : FieldsReadAs fields fits) (b : σ) (m : String × Node) :
    ReadsAs (memberRead fields b m) fun src => memberFits fields fits src m := by
  unfold memberRead memberFits
  cases hf : fieldOf fields m.1 with
  | none => exact readsAs_pure b
  | some f => exact readsAs_within (h f (fieldOf_some hf).1 b m.2) m.1

theorem value_memberRead (h : FieldsReadAs fields fits) (b : σ) (m : String × Node)
    (src : ByteArray) : (memberRead fields b m).value src = recordStep fields src b m := by
  unfold memberRead recordStep
  cases hf : fieldOf fields m.1 with
  | none => rfl
  | some f => exact value_within (h f (fieldOf_some hf).1 b m.2) m.1 src

/-- A record reads as its members do, one after the other. -/
theorem readsAs_record (h : FieldsReadAs fields fits) (tn : String) (b : σ) (n : Node) :
    ReadsAs (record tn fields b n) fun src => recordFits fields fits src n := by
  cases n with
  | object sp ms =>
    -- one member at a time, from whatever the members before left
    induction ms generalizing b with
    | nil => exact readsAs_pure b
    | cons m ms ih =>
      rw [record_cons_memberRead]
      exact readsAs_bind (readsAs_memberRead h b m) fun b' => ih b'
  | null => exact readsAs_pure b
  | _ => exact readsAs_bind (readsAs_mismatch _ _) fun _ => readsAs_pure b

theorem value_record (h : FieldsReadAs fields fits) (tn : String) (b : σ) (n : Node)
    (src : ByteArray) : (record tn fields b n).value src = recordValue fields src b n := by
  cases n with
  | object sp ms =>
    induction ms generalizing b with
    | nil => rfl
    | cons m ms ih =>
      rw [record_cons_memberRead, value_bind (fun b' => readsAs_record h tn b' _),
        value_memberRead h, ih]
      rfl
  | _ => rfl

end Record


/-! ## Records read one field at a time -/

/-- A character of a member name up to the case folding `foldMatches` allows: upper case, with
`ſ` as `S` and the Kelvin sign as `K`. -/
def keyFold (c : Char) : Char :=
  if c = 'ſ' then 'S' else if c = 'K' then 'K' else c.toUpper

theorem keyFold_toUpper {d : Char} (h : d.isLower = true) : keyFold d.toUpper = keyFold d := by
  have hn : 97 ≤ d.toNat ∧ d.toNat ≤ 122 := by
    simp only [Char.isLower, Bool.and_eq_true, decide_eq_true_eq] at h
    exact h
  -- there are only 26 lowercase letters
  have hall : ∀ n < 26, keyFold (Char.ofNat (97 + n)).toUpper = keyFold (Char.ofNat (97 + n)) := by
    decide
  have := hall (d.toNat - 97) (by omega)
  rwa [show 97 + (d.toNat - 97) = d.toNat by omega, Char.ofNat_toNat] at this

theorem keyFold_of_matches {c d : Char}
    (h : (c == d || (d.isLower && c == d.toUpper) || (d == 's' && c == 'ſ') ||
      (d == 'k' && c == 'K')) = true) :
    keyFold c = keyFold d := by
  simp only [Bool.or_eq_true, Bool.and_eq_true, beq_iff_eq] at h
  rcases h with ((rfl | ⟨hl, rfl⟩) | ⟨rfl, rfl⟩) | ⟨rfl, rfl⟩
  · rfl
  · exact keyFold_toUpper hl
  · decide
  · decide

/-- A member name selects only fields whose names fold as it does. -/
theorem foldMatches_keyFold {k f : String} (h : foldMatches k f = true) :
    k.toList.map keyFold = f.toList.map keyFold := by
  unfold foldMatches at h
  simp only [Bool.and_eq_true, beq_iff_eq, List.all_eq_true] at h
  obtain ⟨hlen, hall⟩ := h
  generalize k.toList = ks at hlen hall ⊢
  generalize f.toList = fs at hlen hall ⊢
  induction ks generalizing fs with
  | nil => cases fs <;> simp_all
  | cons c ks ih =>
    cases fs with
    | nil => simp at hlen
    | cons d fs =>
      simp only [List.length_cons, Nat.add_right_cancel_iff] at hlen
      simp only [List.zip_cons_cons, List.mem_cons, forall_eq_or_imp] at hall
      rw [List.map_cons, List.map_cons, ih fs hlen hall.2, keyFold_of_matches hall.1]

section Apart

variable {σ : Type} {fields : List (String × FieldReader σ)}
  {fits : String → Node → ByteArray → Bool}

/-- No two fields' names fold alike, so no member name selects two fields. -/
def NamesApart (fields : List (String × FieldReader σ)) : Prop :=
  (fields.map fun f => f.1.toList.map keyFold).Nodup

/-- With names apart, a member selects every field whose name it matches. -/
theorem fieldOf_of_foldMatches (hd : NamesApart fields) {f : String × FieldReader σ}
    (hf : f ∈ fields) {k : String} (hk : foldMatches k f.1 = true) : fieldOf fields k = some f := by
  obtain ⟨g, hg⟩ : ∃ g, fieldOf fields k = some g :=
    Option.isSome_iff_exists.1 (List.find?_isSome.2 ⟨f, hf, hk⟩)
  obtain ⟨hgm, hgk⟩ := fieldOf_some hg
  have hgf : g = f := List.inj_on_of_nodup_map hd hgm hf
    ((foldMatches_keyFold hgk).symm.trans (foldMatches_keyFold hk))
  rw [hg, hgf]

/-- One field of a record followed on its own: what `get` sees of the record after the members
is the fold of that field's step over the members that select it, provided the field's reader
acts on what `get` sees by `step` and every other field's reader leaves it alone. -/
theorem get_recordStep {α : Type} (hd : NamesApart fields) {f : String × FieldReader σ}
    (hf : f ∈ fields) (src : ByteArray) (get : σ → α) (step : α → Node → α)
    (hself : ∀ b v, get ((f.2 b v).value src) = step (get b) v)
    (hother : ∀ g ∈ fields, g ≠ f → ∀ b v, get ((g.2 b v).value src) = get b)
    (ms : List (String × Node)) (b : σ) :
    get (ms.foldl (recordStep fields src) b) = (membersNamed f.1 ms).foldl step (get b) := by
  induction ms generalizing b with
  | nil => rfl
  | cons m ms ih =>
    obtain ⟨k, v⟩ := m
    rw [List.foldl_cons, ih, membersNamed_cons]
    by_cases hk : foldMatches k f.1 = true
    · -- the member sets this field
      rw [if_pos hk, List.foldl_cons]
      dsimp only [recordStep]
      rw [fieldOf_of_foldMatches hd hf hk, hself]
    · -- the member sets another field, or none
      rw [if_neg hk]
      dsimp only [recordStep]
      cases hg : fieldOf fields k with
      | none => rfl
      | some g =>
        obtain ⟨hgm, hgk⟩ := fieldOf_some hg
        have hgf : g ≠ f := by
          rintro rfl
          exact hk hgk
        rw [hother g hgm hgf]

/-- A field that accepts anything never stops a record from fitting. -/
@[simp] theorem all_const_true {α : Type} (l : List α) : (l.all fun _ => true) = true :=
  List.all_eq_true.2 fun _ _ => rfl

/-- A field that each member selecting it replaces by what `g` reads from it, when `g` reads
anything, ends as the last such value. -/
theorem get_recordStep_filterMap {α : Type} (hd : NamesApart fields) {f : String × FieldReader σ}
    (hf : f ∈ fields) (src : ByteArray) (get : σ → α) (g : Node → Option α)
    (hself : ∀ b v, get ((f.2 b v).value src) = (g v).getD (get b))
    (hother : ∀ h ∈ fields, h ≠ f → ∀ b v, get ((h.2 b v).value src) = get b)
    (ms : List (String × Node)) (b : σ) :
    get (ms.foldl (recordStep fields src) b) =
      ((membersNamed f.1 ms).filterMap g).getLastD (get b) :=
  (get_recordStep hd hf src get (fun cur v => (g v).getD cur) hself hother ms b).trans
    (foldl_getD g _ _)

/-- A field that every member selecting it replaces by what `g` reads from it ends as the last
one. -/
theorem get_recordStep_map {α : Type} (hd : NamesApart fields) {f : String × FieldReader σ}
    (hf : f ∈ fields) (src : ByteArray) (get : σ → α) (g : Node → α)
    (hself : ∀ b v, get ((f.2 b v).value src) = g v)
    (hother : ∀ h ∈ fields, h ≠ f → ∀ b v, get ((h.2 b v).value src) = get b)
    (ms : List (String × Node)) (b : σ) :
    get (ms.foldl (recordStep fields src) b) = ((membersNamed f.1 ms).map g).getLastD (get b) :=
  (get_recordStep hd hf src get (fun _ v => g v) hself hother ms b).trans (foldl_last g _ _)

/-- With names apart, a record's members all fit exactly when each field's members fit it. -/
theorem memberFits_all (hd : NamesApart fields) (src : ByteArray) (ms : List (String × Node)) :
    ms.all (memberFits fields fits src) =
      fields.all fun f => (membersNamed f.1 ms).all fun v => fits f.1 v src := by
  rw [Bool.eq_iff_iff]
  simp only [List.all_eq_true, membersNamed, List.mem_map, List.mem_filter]
  constructor
  · rintro h f hf v ⟨⟨k, w⟩, ⟨hm, hk⟩, rfl⟩
    have := h (k, w) hm
    rwa [memberFits, fieldOf_of_foldMatches hd hf hk] at this
  · rintro h ⟨k, w⟩ hm
    unfold memberFits
    cases hg : fieldOf fields k with
    | none => rfl
    | some g => exact h g (fieldOf_some hg).1 w ⟨(k, w), ⟨hm, (fieldOf_some hg).2⟩, rfl⟩

end Apart


/-! ## Loose values and dictionaries -/

mutual

/-- Whether a value is read as a loose value without a mismatch: every number in it is a
finite double. -/
def Node.looseFits (src : ByteArray) : Node → Bool
  | .number sp => (numberValue (numberText src sp)).isSome
  | .array _ items => Node.looseFitsItems src items
  | .object _ ms => Node.looseFitsMembers src ms
  | _ => true

/-- Whether every element of an array is read as a loose value without a mismatch. -/
def Node.looseFitsItems (src : ByteArray) : List Node → Bool
  | [] => true
  | n :: rest => n.looseFits src && Node.looseFitsItems src rest

/-- Whether every member value of an object is read as a loose value without a mismatch. -/
def Node.looseFitsMembers (src : ByteArray) : List (String × Node) → Bool
  | [] => true
  | (_, n) :: rest => n.looseFits src && Node.looseFitsMembers src rest

end

/-- Whether a value may be read into a dictionary field: `null`, or an object whose member
values are read as loose values without a mismatch. -/
def Node.dictFits (src : ByteArray) : Node → Bool
  | .object _ ms => Node.looseFitsMembers src ms
  | .null _ => true
  | _ => false

theorem readsAs_looseNumber (sp : Span) :
    ReadsAs (loose (.number sp)) fun src => (Node.number sp).looseFits src := by
  intro sc st
  unfold Decoder.value
  rw [loose, run_read_bind, run_read_bind]
  dsimp only
  rw [Node.looseFits, Scope.top_src]
  cases h : numberValue (numberText sc.src sp) <;> cases st <;> exact ⟨rfl, rfl⟩

mutual

theorem readsAs_loose : ∀ n : Node, ReadsAs (loose n) fun src => n.looseFits src
  | .null _ => readsAs_pure _
  | .bool _ _ => readsAs_pure _
  | .number sp => readsAs_looseNumber sp
  | .string _ _ => readsAs_pure _
  | .array _ items => by
    rw [loose]
    refine readsAs_congr (readsAs_bind (readsAs_looseItems 0 items) fun _ => readsAs_pure _) ?_
    intro src
    rw [Bool.and_true, Node.looseFits]
  | .object _ ms => by
    rw [loose]
    refine readsAs_congr (readsAs_bind (readsAs_looseMembers [] ms) fun _ => readsAs_pure _) ?_
    intro src
    rw [Bool.and_true, Node.looseFits]

theorem readsAs_looseItems (i : Nat) :
    ∀ items : List Node, ReadsAs (looseItems i items) fun src => Node.looseFitsItems src items
  | [] => readsAs_pure _
  | n :: rest => by
    rw [looseItems]
    refine readsAs_congr (readsAs_bind (readsAs_within (readsAs_loose n) _) fun _ =>
      readsAs_bind (readsAs_looseItems (i + 1) rest) fun _ => readsAs_pure _) ?_
    intro src
    rw [Bool.and_true, Node.looseFitsItems]

theorem readsAs_looseMembers (acc : Dict) :
    ∀ ms : List (String × Node),
      ReadsAs (looseMembers acc ms) fun src => Node.looseFitsMembers src ms
  | [] => readsAs_pure _
  | (k, n) :: rest => by
    rw [looseMembers]
    refine readsAs_congr (readsAs_bind (readsAs_within (readsAs_loose n) k) fun v =>
      readsAs_looseMembers (acc.insert k v) rest) ?_
    intro src
    rw [Node.looseFitsMembers]

end

theorem readsAs_dict (cur : Option Dict) (n : Node) :
    ReadsAs (dict cur n) fun src => n.dictFits src := by
  cases n with
  | object sp ms =>
    refine readsAs_congr (readsAs_bind (readsAs_looseMembers _ ms) fun _ => readsAs_pure _) ?_
    intro src
    rw [Bool.and_true, Node.dictFits]
  | null => exact readsAs_pure _
  | _ => exact readsAs_bind (readsAs_mismatch _ _) fun _ => readsAs_pure cur


/-! ## Lists -/

section List

variable {α : Type} {elem : Node → Decoder α} {efits : Node → ByteArray → Bool}

theorem readsAs_mapM (h : ∀ n, ReadsAs (elem n) (efits n)) (l : List (Node × Nat)) :
    ReadsAs (l.mapM fun p => Decoder.within (toString p.2) (elem p.1))
      fun src => l.all fun p => efits p.1 src := by
  induction l with
  | nil => exact readsAs_pure []
  | cons p l ih =>
    rw [List.mapM_cons]
    refine readsAs_congr (readsAs_bind (readsAs_within (h p.1) _) fun _ =>
      readsAs_bind ih fun _ => readsAs_pure _) ?_
    intro src
    rw [Bool.and_true, List.all_cons]

theorem value_mapM (h : ∀ n, ReadsAs (elem n) (efits n)) (l : List (Node × Nat))
    (src : ByteArray) :
    (l.mapM fun p => Decoder.within (toString p.2) (elem p.1)).value src =
      l.map fun p => (elem p.1).value src := by
  induction l with
  | nil => rfl
  | cons p l ih =>
    rw [List.mapM_cons,
      value_bind (fun _ => readsAs_bind (readsAs_mapM h l) fun _ => readsAs_pure _),
      value_bind (fun _ => readsAs_pure _), ih, value_within (h p.1)]
    rfl

/-- Whether a value may be read into a list field whose elements fit `efits`: `null`, or an
array whose elements all fit. -/
def listFits (efits : Node → ByteArray → Bool) (src : ByteArray) : Node → Bool
  | .array _ items => items.all fun n => efits n src
  | .null _ => true
  | _ => false

theorem readsAs_list (h : ∀ n, ReadsAs (elem n) (efits n)) (tn : String)
    (cur : Option (List α)) (n : Node) :
    ReadsAs (list tn elem cur n) fun src => listFits efits src n := by
  cases n with
  | array sp items =>
    refine readsAs_congr (readsAs_bind (readsAs_mapM h items.zipIdx) fun _ => readsAs_pure _) ?_
    intro src
    rw [Bool.and_true, listFits]
    conv => rhs; rw [← List.zipIdx_map_fst 0 items, List.all_map]
    rfl
  | null => exact readsAs_pure _
  | _ => exact readsAs_bind (readsAs_mismatch _ _) fun _ => readsAs_pure cur

/-- A list field read from an array holds each element as its reader reads it. -/
theorem value_list_array (h : ∀ n, ReadsAs (elem n) (efits n)) (tn : String)
    (cur : Option (List α)) (sp : Span) (items : List Node) (src : ByteArray) :
    (list tn elem cur (.array sp items)).value src =
      some (items.map fun n => (elem n).value src) := by
  show ((items.zipIdx.mapM fun p => Decoder.within (toString p.2) (elem p.1)) >>=
    fun xs => pure (some xs)).value src = _
  rw [value_bind (fun _ => readsAs_pure _), value_mapM h, value_pure]
  conv => rhs; rw [← List.zipIdx_map_fst 0 items, List.map_map]
  rfl

end List


/-! ## Reading a whole document -/

section Read

variable {α : Type} {reader : Node → Decoder α} {fits : Node → ByteArray → Bool}

/-- A document that is not JSON is read as the syntax error, whatever the reader. -/
theorem read_eq_notJson {src : ByteArray} {e : SyntaxError} (hp : parse src = .error e)
    (root : String) (reader : Node → Decoder α) :
    Decoder.read src root reader = .error (.notJson e) := by
  unfold Decoder.read
  rw [hp]

/-- A document whose value fits the reader is read as the reader's value. -/
theorem read_eq_ok (h : ∀ n, ReadsAs (reader n) (fits n)) {src : ByteArray} {n : Node}
    (hp : parse src = .ok n) (hfit : fits n src = true) (root : String) :
    Decoder.read src root reader = .ok ((reader n).value src) := by
  obtain ⟨h1, h2⟩ := h n ⟨src, root, []⟩ none
  unfold Decoder.read Decoder.run
  rw [hp]
  dsimp only
  cases hr : (ReaderT.run (reader n) ⟨src, root, []⟩).run none with
  | mk v e =>
    rw [hr] at h1 h2
    cases e with
    | none => exact congrArg Except.ok h1
    | some e => simp [hfit] at h2

/-- A document whose value does not fit the reader is a mismatch. -/
theorem read_eq_mismatch (h : ∀ n, ReadsAs (reader n) (fits n)) {src : ByteArray} {n : Node}
    (hp : parse src = .ok n) (hfit : fits n src = false) (root : String) :
    ∃ e, Decoder.read src root reader = .error (.mismatch e) := by
  obtain ⟨-, h2⟩ := h n ⟨src, root, []⟩ none
  unfold Decoder.read Decoder.run
  rw [hp]
  dsimp only
  cases hr : (ReaderT.run (reader n) ⟨src, root, []⟩).run none with
  | mk v e =>
    rw [hr] at h2
    cases e with
    | none => simp [hfit] at h2
    | some e => exact ⟨e, rfl⟩

end Read

end TurnRelay.Json
