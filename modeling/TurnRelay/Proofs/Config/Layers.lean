import Mathlib
import TurnRelay.Config.Load

/-!
# The layers of the settings

The settings are the defaults, then what the configuration file gives, then the environment's
variables, then the checks. This module says what each variable does to its field, field by field
and apart from the order in which the variables are applied (`envLayer`), and proves that loading
computes exactly that:

* `applyOverrides_eq_ok_iff`: applying the environment succeeds exactly when every integer,
  boolean and duration variable that is set and not empty parses (`EnvParses`), and then gives
  `envLayer`.
* `load_eq_ok_iff_layers`: loading succeeds exactly when the file, its references replaced, reads
  as settings over the defaults (or there is no file), every such variable parses, and the checks
  accept the result; the settings are then `envLayer` over what the file gives.

The variables are applied one after another, with a failure that, once set, stays. Each kind of
variable gets one lemma that says what it does to its field (`Override.apply_text`,
`Override.apply_reading`, `Override.apply_list`), through the field's pointer, so that the run
over all of them is one rewrite and no case split.
-/

namespace TurnRelay.Config

/-! ## What each variable gives its field -/

/-- The value of a variable that is set and not empty. -/
def givenValue (env : Environment) (name : String) : Option String :=
  (env.lookup name).filter (· != "")

/-- A text field: the variable's bytes when it is set and not empty, else `current`. -/
def textVar (env : Environment) (name : String) (current : ByteArray) : ByteArray :=
  ((givenValue env name).map String.toUTF8).getD current

/-- A field whose variable must parse: the parsed value when the variable is set and not empty,
else `current`. -/
def parsedVar {α : Type} (env : Environment) (name : String) (read : String → Option α)
    (current : α) : α :=
  ((givenValue env name).bind read).getD current

/-- A tool list: the variable's parts whenever it is set, even to the empty text, which clears
the list; else `current`. -/
def listVar (env : Environment) (name : String) (current : Option (List ByteArray)) :
    Option (List ByteArray) :=
  ((env.lookup name).map fun v => (splitList v).map (·.map String.toUTF8)).getD current

/-- An integer as a variable spells it. -/
def readWord (v : String) : Option Int := (Decimal.parseWord v).toOption

/-- A duration as a variable spells it: whole seconds, or a duration text. -/
def readDuration (v : String) : Option Int := (overrideDuration v).toOption

/-- A variable that is set and not empty is accepted by `read`. -/
def Parses {α : Type} (env : Environment) (name : String) (read : String → Option α) : Prop :=
  ∀ v, givenValue env name = some v → (read v).isSome

/-- Every integer, boolean and duration variable that is set and not empty parses. -/
structure EnvParses (env : Environment) : Prop where
  port : Parses env "CLAUDE_PROXY_PORT" readWord
  idleTimeout : Parses env "CLAUDE_PROXY_IDLE_TIMEOUT" readDuration
  keepalive : Parses env "CLAUDE_PROXY_KEEPALIVE_INTERVAL" readDuration
  maxTurns : Parses env "CLAUDE_PROXY_MAX_TURNS" readWord
  allowUnsafeSkip : Parses env "CLAUDE_PROXY_ALLOW_UNSAFE_SKIP" Decimal.parseFlag
  debug : Parses env "CLAUDE_PROXY_DEBUG" Decimal.parseFlag
  admissionLimit : Parses env admissionLimitVariable readWord

/-- The settings the environment gives over `base`, field by field: a variable that is set and
not empty gives its field its value (a tool list's variable, whenever it is set); an admission
limit given so also turns admission on exactly when it is positive; every other field keeps the
value it has in `base`. -/
def envLayer (env : Environment) (base : Settings) : Settings :=
  let limit := parsedVar env admissionLimitVariable readWord base.admission.maxPendingPerClient
  { listener := { base.listener with
      host := textVar env "CLAUDE_PROXY_HOST" base.listener.host
      portNumber := parsedVar env "CLAUDE_PROXY_PORT" readWord base.listener.portNumber
      idleTimeout := parsedVar env "CLAUDE_PROXY_IDLE_TIMEOUT" readDuration
        base.listener.idleTimeout }
    assistant := { base.assistant with
      programPath := textVar env "CLAUDE_PROXY_CLI_PATH" base.assistant.programPath
      maxTurns := parsedVar env "CLAUDE_PROXY_MAX_TURNS" readWord base.assistant.maxTurns
      permissionMode := textVar env "CLAUDE_PROXY_PERMISSION_MODE" base.assistant.permissionMode
      allowUnsafeSkip := parsedVar env "CLAUDE_PROXY_ALLOW_UNSAFE_SKIP" Decimal.parseFlag
        base.assistant.allowUnsafeSkip
      allowedTools := listVar env "CLAUDE_PROXY_ALLOWED_TOOLS" base.assistant.allowedTools
      disallowedTools := listVar env "CLAUDE_PROXY_DISALLOWED_TOOLS" base.assistant.disallowedTools
      workDir := textVar env "CLAUDE_PROXY_WORK_DIR" base.assistant.workDir }
    keepalive :=
      { interval := parsedVar env "CLAUDE_PROXY_KEEPALIVE_INTERVAL" readDuration
          base.keepalive.interval }
    admission := { base.admission with
      maxPendingPerClient := limit
      enabled := if (givenValue env admissionLimitVariable).isSome then decide (limit > 0)
        else base.admission.enabled }
    store := { base.store with
      address := textVar env "CLAUDE_PROXY_REDIS_ADDR" base.store.address
      password := textVar env "CLAUDE_PROXY_REDIS_PASSWORD" base.store.password }
    telemetry := { base.telemetry with
      debug := parsedVar env "CLAUDE_PROXY_DEBUG" Decimal.parseFlag base.telemetry.debug
      logLevel := textVar env "CLAUDE_PROXY_LOG_LEVEL" base.telemetry.logLevel } }

/-- Whether a variable parses is checked by reading its value, if it is given. -/
theorem parses_iff_all {α : Type} (env : Environment) (name : String) (read : String → Option α) :
    Parses env name read ↔ ((givenValue env name).all fun v => (read v).isSome) = true := by
  unfold Parses
  cases givenValue env name <;> simp

instance {α : Type} (env : Environment) (name : String) (read : String → Option α) :
    Decidable (Parses env name read) :=
  decidable_of_iff _ (parses_iff_all env name read).symm

theorem envParses_iff (env : Environment) :
    EnvParses env ↔
      Parses env "CLAUDE_PROXY_PORT" readWord ∧ Parses env "CLAUDE_PROXY_IDLE_TIMEOUT" readDuration ∧
        Parses env "CLAUDE_PROXY_KEEPALIVE_INTERVAL" readDuration ∧
        Parses env "CLAUDE_PROXY_MAX_TURNS" readWord ∧
        Parses env "CLAUDE_PROXY_ALLOW_UNSAFE_SKIP" Decimal.parseFlag ∧
        Parses env "CLAUDE_PROXY_DEBUG" Decimal.parseFlag ∧
        Parses env admissionLimitVariable readWord :=
  ⟨fun h => ⟨h.port, h.idleTimeout, h.keepalive, h.maxTurns, h.allowUnsafeSkip, h.debug,
      h.admissionLimit⟩,
    fun ⟨h1, h2, h3, h4, h5, h6, h7⟩ => ⟨h1, h2, h3, h4, h5, h6, h7⟩⟩

instance (env : Environment) : Decidable (EnvParses env) :=
  decidable_of_iff _ (envParses_iff env).symm

theorem givenValue_eq_none {env : Environment} {name : String} (h : env.lookup name = none) :
    givenValue env name = none := by
  simp [givenValue, h]

theorem givenValue_of_empty {env : Environment} {name : String} (h : env.lookup name = some "") :
    givenValue env name = none := by
  simp [givenValue, h]

/-- A variable is given exactly when it is set to a text that is not empty. -/
theorem givenValue_eq_some_iff {env : Environment} {name v : String} :
    givenValue env name = some v ↔ env.lookup name = some v ∧ v ≠ "" := by
  simp [givenValue, Option.filter_eq_some_iff]

theorem givenValue_of_ne {env : Environment} {name v : String} (h : env.lookup name = some v)
    (hv : v ≠ "") : givenValue env name = some v :=
  givenValue_eq_some_iff.2 ⟨h, hv⟩

/-! ## One variable -/

section Step

variable {env : Environment}

/-- A text variable writes its field's value. -/
theorem Override.apply_text (name : String) (f : Field ByteArray) (s : Settings)
    (failure : Option OverrideError) :
    (Override.text name f).apply env ⟨s, failure⟩ =
      ⟨f.set s (textVar env name (f.get s)), failure⟩ := by
  rcases h : env.lookup name with _ | v
  · simp [Override.apply, textVar, givenValue_eq_none h, h, f.set_get]
  · by_cases hv : v = ""
    · subst hv
      simp [Override.apply, textVar, givenValue_of_empty h, h, f.set_get]
    · simp [Override.apply, textVar, givenValue_of_ne h hv, h, hv]

/-- A tool list variable writes its field's value. -/
theorem Override.apply_list (name : String) (f : Field (Option (List ByteArray))) (s : Settings)
    (failure : Option OverrideError) :
    (Override.list name f).apply env ⟨s, failure⟩ =
      ⟨f.set s (listVar env name (f.get s)), failure⟩ := by
  rcases h : env.lookup name with _ | v
  · simp [Override.apply, listVar, h, f.set_get]
  · simp [Override.apply, listVar, h]

/-- A variable that must parse, and does, writes its field's value while no variable before it
failed. The variable is read by `read`, whose successes `read'` gives. -/
theorem Override.apply_reading {α : Type} (read : String → Except String α)
    (read' : String → Option α) (hread : ∀ v, (read v).toOption = read' v) (name : String)
    (f : Field α) (s : Settings) (hp : Parses env name read') :
    (Override.reading read name f).apply env ⟨s, none⟩ =
      ⟨f.set s (parsedVar env name read' (f.get s)), none⟩ := by
  rcases h : env.lookup name with _ | v
  · simp [Override.reading, Override.apply, parsedVar, givenValue_eq_none h, h, f.set_get]
  · by_cases hv : v = ""
    · subst hv
      simp [Override.reading, Override.apply, parsedVar, givenValue_of_empty h, h, f.set_get]
    · -- the variable is given, so it parses
      obtain ⟨x, hx⟩ := Option.isSome_iff_exists.mp (hp v (givenValue_of_ne h hv))
      have hok : read v = .ok x := by
        have := hread v
        cases hr : read v <;> simp_all [Except.toOption]
      simp [Override.reading, Override.apply, parsedVar, givenValue_of_ne h hv, h, hv, hok, hx]

/-- A variable that must parse and does not leaves a failure, whatever came before. -/
theorem Override.apply_reading_failure {α : Type} (read : String → Except String α)
    (name : String) (f : Field α) (o : Overriding) {v : String}
    (hv : givenValue env name = some v) (hread : (read v).toOption = none) :
    ((Override.reading read name f).apply env o).failure.isSome := by
  obtain ⟨hlookup, hne⟩ := givenValue_eq_some_iff.1 hv
  obtain ⟨e, he⟩ : ∃ e, read v = .error e := by
    cases hr : read v <;> simp_all [Except.toOption]
  cases hfail : o.failure with
  | none => simp [Override.reading, Override.apply, hlookup, hne, hfail, he]
  | some e' => simp [Override.reading, Override.apply, hlookup, hfail]

/-- A failure, once there, stays. -/
theorem Override.apply_failure (x : Override) {o : Overriding} (h : o.failure.isSome) :
    (x.apply env o).failure = o.failure := by
  cases x with
  | text name f =>
    simp only [Override.apply]
    split
    · split <;> rfl
    · rfl
  | parsed name apply =>
    simp only [Override.apply]
    split
    · simp [h]
    · rfl
  | list name f =>
    simp only [Override.apply]
    split <;> rfl

end Step

/-! ## The run over all variables -/

section Run

variable {env : Environment}

/-- A failure, once there, stays to the end of the run. -/
theorem foldl_failure (os : List Override) {o : Overriding} (h : o.failure.isSome) :
    (os.foldl (Override.apply env) o).failure = o.failure := by
  induction os generalizing o with
  | nil => rfl
  | cons x os ih =>
    rw [List.foldl_cons, ih (by rwa [Override.apply_failure x h]), Override.apply_failure x h]

/-- A variable that always leaves a failure leaves one at the end of any run it is part of. -/
theorem foldl_failure_of_mem {x : Override} {os : List Override} (hx : x ∈ os)
    (hfail : ∀ o, (x.apply env o).failure.isSome) (o : Overriding) :
    (os.foldl (Override.apply env) o).failure.isSome := by
  induction os generalizing o with
  | nil => simp at hx
  | cons y os ih =>
    rw [List.foldl_cons]
    rcases List.mem_cons.mp hx with rfl | hx
    · rw [foldl_failure os (hfail o)]
      exact hfail o
    · exact ih hx _

theorem overrideNumber_toOption (v : String) :
    (overrideNumber v).toOption = readWord v := by
  unfold overrideNumber readWord
  split <;> simp_all [Except.toOption]

theorem overrideFlag_toOption (v : String) : (overrideFlag v).toOption = Decimal.parseFlag v := by
  unfold overrideFlag
  split <;> simp_all [Except.toOption]

theorem Override.apply_number (name : String) (f : Field Int) (s : Settings)
    (hp : Parses env name readWord) :
    (Override.number name f).apply env ⟨s, none⟩ =
      ⟨f.set s (parsedVar env name readWord (f.get s)), none⟩ :=
  Override.apply_reading overrideNumber readWord overrideNumber_toOption name f s hp

theorem Override.apply_flag (name : String) (f : Field Bool) (s : Settings)
    (hp : Parses env name Decimal.parseFlag) :
    (Override.flag name f).apply env ⟨s, none⟩ =
      ⟨f.set s (parsedVar env name Decimal.parseFlag (f.get s)), none⟩ :=
  Override.apply_reading overrideFlag Decimal.parseFlag overrideFlag_toOption name f s hp

theorem Override.apply_duration (name : String) (f : Field Int) (s : Settings)
    (hp : Parses env name readDuration) :
    (Override.duration name f).apply env ⟨s, none⟩ =
      ⟨f.set s (parsedVar env name readDuration (f.get s)), none⟩ :=
  Override.apply_reading overrideDuration readDuration (fun _ => rfl) name f s hp

/-- The admission limit, when it parses, is written with admission turned on exactly when it is
positive. -/
theorem applyAdmissionLimit_of_parses (s : Settings)
    (hp : Parses env admissionLimitVariable readWord) :
    applyAdmissionLimit env ⟨s, none⟩ =
      let limit := parsedVar env admissionLimitVariable readWord s.admission.maxPendingPerClient
      ⟨{ s with admission := { s.admission with
          maxPendingPerClient := limit
          enabled := if (givenValue env admissionLimitVariable).isSome then decide (limit > 0)
            else s.admission.enabled } }, none⟩ := by
  rcases h : env.lookup admissionLimitVariable with _ | v
  · simp [applyAdmissionLimit, parsedVar, givenValue_eq_none h, h]
  · by_cases hv : v = ""
    · subst hv
      simp [applyAdmissionLimit, parsedVar, givenValue_of_empty h, h]
    · simp only [applyAdmissionLimit, h, beq_iff_eq, hv, if_false]
      rw [Override.apply_number _ _ s hp]
      simp [givenValue_of_ne h hv]

/-- With every variable parsing, the run writes each field the value `envLayer` gives it. -/
theorem applyOverrides_run (hp : EnvParses env) (base : Settings) :
    applyAdmissionLimit env (overrides.foldl (Override.apply env) ⟨base, none⟩) =
      ⟨envLayer env base, none⟩ := by
  simp only [overrides, List.foldl_cons, List.foldl_nil, Override.apply_text, Override.apply_list,
    Override.apply_number _ _ _ hp.port, Override.apply_number _ _ _ hp.maxTurns,
    Override.apply_duration _ _ _ hp.idleTimeout, Override.apply_duration _ _ _ hp.keepalive,
    Override.apply_flag _ _ _ hp.allowUnsafeSkip, Override.apply_flag _ _ _ hp.debug]
  rw [applyAdmissionLimit_of_parses _ hp.admissionLimit]
  rfl

/-- Applying the admission limit keeps a failure that is there. -/
theorem applyAdmissionLimit_failure {o : Overriding} (h : o.failure.isSome) :
    (applyAdmissionLimit env o).failure = o.failure := by
  unfold applyAdmissionLimit
  split
  · split
    · rfl
    · exact Override.apply_failure _ h
  · rfl

/-- An admission limit that is given and does not parse leaves a failure. -/
theorem applyAdmissionLimit_failure_of_given {o : Overriding} {v : String}
    (hv : givenValue env admissionLimitVariable = some v) (hread : readWord v = none) :
    (applyAdmissionLimit env o).failure.isSome := by
  obtain ⟨hlookup, hne⟩ := givenValue_eq_some_iff.1 hv
  have hfail := Override.apply_reading_failure overrideNumber admissionLimitVariable
    ⟨(·.admission.maxPendingPerClient),
      fun s n => { s with admission := { s.admission with maxPendingPerClient := n } },
      fun _ => rfl⟩ o hv (by rw [overrideNumber_toOption, hread])
  simp only [applyAdmissionLimit, hlookup, beq_iff_eq, hne, if_false]
  exact hfail

/-- A variable that must parse does, when the run it is part of ends without a failure. -/
theorem parses_of_run {α : Type} (read : String → Except String α) (read' : String → Option α)
    (hread : ∀ v, (read v).toOption = read' v) (name : String) (f : Field α)
    (hx : Override.reading read name f ∈ overrides) {base : Settings}
    (h : (applyAdmissionLimit env (overrides.foldl (Override.apply env) ⟨base, none⟩)).failure =
      none) :
    Parses env name read' := by
  intro v hv
  rw [Option.isSome_iff_ne_none]
  intro hnone
  have hrun := foldl_failure_of_mem hx
    (fun o => Override.apply_reading_failure read name f o hv ((hread v).trans hnone)) ⟨base, none⟩
  rw [applyAdmissionLimit_failure hrun] at h
  simp [h] at hrun

/-- A run without a failure leaves every variable that must parse parsing. -/
theorem envParses_of_run {base : Settings}
    (h : (applyAdmissionLimit env (overrides.foldl (Override.apply env) ⟨base, none⟩)).failure =
      none) :
    EnvParses env := by
  -- each variable by its place in the list of those applied
  refine
    { port := parses_of_run overrideNumber readWord overrideNumber_toOption _ _
        (List.getElem_mem (by decide : 1 < overrides.length)) h
      idleTimeout := parses_of_run overrideDuration readDuration (fun _ => rfl) _ _
        (List.getElem_mem (by decide : 2 < overrides.length)) h
      keepalive := parses_of_run overrideDuration readDuration (fun _ => rfl) _ _
        (List.getElem_mem (by decide : 3 < overrides.length)) h
      maxTurns := parses_of_run overrideNumber readWord overrideNumber_toOption _ _
        (List.getElem_mem (by decide : 4 < overrides.length)) h
      allowUnsafeSkip := parses_of_run overrideFlag Decimal.parseFlag overrideFlag_toOption _ _
        (List.getElem_mem (by decide : 6 < overrides.length)) h
      debug := parses_of_run overrideFlag Decimal.parseFlag overrideFlag_toOption _ _
        (List.getElem_mem (by decide : 11 < overrides.length)) h
      admissionLimit := ?_ }
  intro v hv
  rw [Option.isSome_iff_ne_none]
  intro hread
  have hrun : (applyAdmissionLimit env (overrides.foldl (Override.apply env)
      ⟨base, none⟩)).failure.isSome := applyAdmissionLimit_failure_of_given hv hread
  simp [h] at hrun

/-- Applying the environment succeeds exactly when every variable that must parse does, and then
gives each field the value `envLayer` gives it. -/
theorem applyOverrides_eq_ok_iff (env : Environment) (base s : Settings) :
    applyOverrides env base = .ok s ↔ EnvParses env ∧ s = envLayer env base := by
  constructor
  · intro h
    have hnone : (applyAdmissionLimit env (overrides.foldl (Override.apply env) ⟨base, none⟩)).failure =
        none := by
      simp only [applyOverrides] at h
      split at h
      · simp at h
      · assumption
    have hp := envParses_of_run hnone
    refine ⟨hp, ?_⟩
    simp only [applyOverrides, applyOverrides_run hp, Except.ok.injEq] at h
    exact h.symm
  · rintro ⟨hp, rfl⟩
    simp only [applyOverrides, applyOverrides_run hp]

end Run

/-! ## Loading -/

/-- The settings before the environment: the defaults when there is no file, or what a file
that could be read gives over the defaults once its references are replaced. -/
theorem baseSettings_eq_ok_iff (env : Environment) (source : Source) (base : Settings) :
    baseSettings env source = .ok base ↔
      source = .none ∧ base = Settings.defaults ∨
        ∃ path text, source = .file path (.ok text) ∧
          Settings.defaults.readYaml (expandReferences (fun n => env.lookup n) text) = .ok base := by
  -- `baseSettings` is opened by `unfold`: `simp` on its equations runs out of time
  cases source with
  | none =>
    unfold baseSettings
    simp only [Except.ok.injEq, true_and, reduceCtorEq, false_and, exists_false, or_false]
    exact eq_comm
  | file path contents =>
    cases contents with
    | error fault =>
      unfold baseSettings
      simp
    | ok text =>
      have hfile : (∃ p t, Source.file path (.ok text) = .file p (.ok t) ∧
          Settings.defaults.readYaml (expandReferences (fun n => env.lookup n) t) = .ok base) ↔
          fileSettings env text = .ok base := by
        simp [fileSettings]
      unfold baseSettings
      simp only [reduceCtorEq, false_and, false_or, hfile]
      split <;> simp_all

/-- Loading is the settings before the environment, then the environment, then the checks; the
first of them to fail is the failure. -/
theorem load_eq_ok_iff (source : Source) (env : Environment) (s : Settings) :
    load source env = .ok s ↔
      ∃ base, baseSettings env source = .ok base ∧ applyOverrides env base = .ok s ∧
        s.validate = .ok () := by
  unfold load
  split
  · next e he => simp [he]
  · next base hbase =>
    split
    · next e he => simp [hbase, he]
    · next s' hs' =>
      split
      · next e he =>
        simp only [reduceCtorEq, false_iff, not_exists, not_and]
        intro b hb hs hv
        simp_all
      · next hv =>
        simp only [Except.ok.injEq]
        constructor
        · rintro rfl
          exact ⟨base, hbase, hs', hv⟩
        · rintro ⟨b, hb, hs, -⟩
          simp_all

/-- Loading succeeds exactly when three things hold: the settings before the environment are
there (the defaults, when there is no file; otherwise the file, its environment references
replaced, reads as settings over the defaults); every integer, boolean and duration variable that
is set and not empty parses; and the checks accept the settings the environment then gives. Those
settings are the ones loaded: each variable that is set and not empty gives its field its parsed
value (a tool list's variable, whenever it is set, so that an empty value clears the list), an
admission limit given so also turns admission on exactly when it is positive, and every other
field keeps what the file gives it, or else its default. -/
theorem load_eq_ok_iff_layers (source : Source) (env : Environment) (s : Settings) :
    load source env = .ok s ↔
      ∃ base : Settings,
        (source = .none ∧ base = Settings.defaults ∨
          ∃ path text, source = .file path (.ok text) ∧
            Settings.defaults.readYaml (expandReferences (fun n => env.lookup n) text) = .ok base) ∧
        EnvParses env ∧ (envLayer env base).validate = .ok () ∧ s = envLayer env base := by
  rw [load_eq_ok_iff]
  constructor
  · rintro ⟨base, hbase, hs, hv⟩
    obtain ⟨hp, rfl⟩ := (applyOverrides_eq_ok_iff env base s).mp hs
    exact ⟨base, (baseSettings_eq_ok_iff env source base).mp hbase, hp, hv, rfl⟩
  · rintro ⟨base, hbase, hp, hv, rfl⟩
    exact ⟨base, (baseSettings_eq_ok_iff env source base).mpr hbase,
      (applyOverrides_eq_ok_iff env base _).mpr ⟨hp, rfl⟩, hv⟩

end TurnRelay.Config
