import Mathlib
import TurnRelay.Proofs.Config.Layers

/-!
# Durations given as whole seconds

A duration variable may give a whole number `n` of seconds. Its nanoseconds are counted in
signed 64-bit arithmetic, which wraps around: the field gets `wrapWord (n * second)`
(`load_whole_seconds`). That is `n` seconds exactly when `n * second` fits a signed 64-bit word,
that is when `|n| ≤ 9223372036`; any other `n` gives some other duration, and loading accepts it
when it is not negative: 18446744074 seconds load as 290448384 nanoseconds
(`huge_idle_timeout_wraps`).

The wrap itself is the identity on the word and lands in it (`wrapWord_of_fits`,
`wrapWord_bounds`).
-/

namespace TurnRelay.Config

open Decimal

/-- The word bounds as literals, for `omega`. -/
theorem wordMin_eq : wordMin = -9223372036854775808 := by
  norm_num [wordMin]

theorem wordMax_eq : wordMax = 9223372036854775807 := by
  norm_num [wordMax]

theorem wrapWord_eq (x : Int) :
    wrapWord x =
      if x % 18446744073709551616 ≥ 9223372036854775808 then
        x % 18446744073709551616 - 18446744073709551616
      else x % 18446744073709551616 := by
  norm_num [wrapWord]

/-- Wrapping lands in the signed 64-bit range. -/
theorem wrapWord_bounds (x : Int) : wordMin ≤ wrapWord x ∧ wrapWord x ≤ wordMax := by
  rw [wrapWord_eq, wordMin_eq, wordMax_eq]
  split <;> omega

/-- Wrapping changes nothing in the signed 64-bit range. -/
theorem wrapWord_of_fits {x : Int} (hmin : wordMin ≤ x) (hmax : x ≤ wordMax) : wrapWord x = x := by
  rw [wordMin_eq] at hmin
  rw [wordMax_eq] at hmax
  rw [wrapWord_eq]
  split <;> omega

/-- Wrapping changes exactly the integers outside the signed 64-bit range. -/
theorem wrapWord_eq_self_iff (x : Int) : wrapWord x = x ↔ wordMin ≤ x ∧ x ≤ wordMax :=
  ⟨fun h => h ▸ wrapWord_bounds x, fun h => wrapWord_of_fits h.1 h.2⟩

/-- A whole number of seconds is read as its nanoseconds, wrapped at 64 bits. -/
theorem readDuration_of_word {v : String} {n : Int} (h : parseWord v = .ok n) :
    readDuration v = some (wrapWord (n * second)) := by
  simp [readDuration, overrideDuration, h, Except.toOption]

theorem ne_empty_of_parseWord {v : String} {n : Int} (h : parseWord v = .ok n) : v ≠ "" := by
  rintro rfl
  have hempty : parseWord "" = .error .malformed := rfl
  rw [hempty] at h
  cases h

/-- A duration variable that reads as whole seconds gives its field those seconds, wrapped. -/
theorem parsedVar_whole_seconds {env : Environment} {name v : String} {n : Int}
    (hv : env.lookup name = some v) (h : parseWord v = .ok n) (current : Int) :
    parsedVar env name readDuration current = wrapWord (n * second) := by
  simp [parsedVar, givenValue_of_ne hv (ne_empty_of_parseWord h), readDuration_of_word h]

/-- Loaded settings give a duration variable that reads as whole seconds those seconds, wrapped
at 64 bits. -/
theorem load_whole_seconds {source : Source} {env : Environment} {s : Settings}
    (hload : load source env = .ok s) {v : String} {n : Int} (h : parseWord v = .ok n) :
    (env.lookup "CLAUDE_PROXY_IDLE_TIMEOUT" = some v →
        s.listener.idleTimeout = wrapWord (n * second)) ∧
      (env.lookup "CLAUDE_PROXY_KEEPALIVE_INTERVAL" = some v →
        s.keepalive.interval = wrapWord (n * second)) := by
  obtain ⟨base, -, hs, -⟩ := (load_eq_ok_iff source env s).mp hload
  obtain ⟨-, rfl⟩ := (applyOverrides_eq_ok_iff env base s).mp hs
  exact ⟨fun hv => parsedVar_whole_seconds hv h _, fun hv => parsedVar_whole_seconds hv h _⟩

/-- An idle timeout or keepalive interval given as a whole number `n` of seconds, when loading
succeeds, is `n * second` wrapped into a signed 64-bit count of nanoseconds; and that is exactly
`n` seconds when, and only when, `n * second` fits such a count. -/
theorem load_whole_seconds_exact_iff (source : Source) (env : Environment) (v : String) (n : Int)
    (hword : parseWord v = .ok n) (s : Settings) (hload : load source env = .ok s) :
    (env.lookup "CLAUDE_PROXY_IDLE_TIMEOUT" = some v →
        s.listener.idleTimeout = wrapWord (n * second)) ∧
      (env.lookup "CLAUDE_PROXY_KEEPALIVE_INTERVAL" = some v →
        s.keepalive.interval = wrapWord (n * second)) ∧
      (wrapWord (n * second) = n * second ↔ wordMin ≤ n * second ∧ n * second ≤ wordMax) :=
  ⟨(load_whole_seconds hload hword).1, (load_whole_seconds hload hword).2,
    wrapWord_eq_self_iff (n * second)⟩

/-- Loading with only the idle timeout given, as `secs`, gives the settings the variable makes of
the defaults. -/
theorem load_idle_timeout_only (secs : String)
    (hp : EnvParses [("CLAUDE_PROXY_IDLE_TIMEOUT", secs)])
    (hv : (envLayer [("CLAUDE_PROXY_IDLE_TIMEOUT", secs)] Settings.defaults).validate = .ok ()) :
    load .none [("CLAUDE_PROXY_IDLE_TIMEOUT", secs)] =
      .ok (envLayer [("CLAUDE_PROXY_IDLE_TIMEOUT", secs)] Settings.defaults) := by
  have hbase : baseSettings [("CLAUDE_PROXY_IDLE_TIMEOUT", secs)] .none = .ok Settings.defaults := by
    unfold baseSettings
    rfl
  exact (load_eq_ok_iff _ _ _).mpr
    ⟨Settings.defaults, hbase, (applyOverrides_eq_ok_iff _ _ _).mpr ⟨hp, rfl⟩, hv⟩

/-- Two minutes given as `120` load as exactly two minutes. -/
theorem two_minute_idle_timeout_exact :
    let env : Environment := [("CLAUDE_PROXY_IDLE_TIMEOUT", "120")]
    let s := envLayer env Settings.defaults
    parseWord "120" = .ok 120 ∧ load .none env = .ok s ∧
      (env.lookup "CLAUDE_PROXY_IDLE_TIMEOUT" = some "120" →
          s.listener.idleTimeout = wrapWord (120 * second)) ∧
        (env.lookup "CLAUDE_PROXY_KEEPALIVE_INTERVAL" = some "120" →
          s.keepalive.interval = wrapWord (120 * second)) ∧
        (wrapWord (120 * second) = 120 * second ↔
          wordMin ≤ 120 * second ∧ 120 * second ≤ wordMax) :=
  have hload := load_idle_timeout_only "120" (by decide +kernel) (by decide +kernel)
  ⟨rfl, hload, load_whole_seconds_exact_iff .none _ "120" 120 rfl _ hload⟩

/-- 18446744074 seconds, too many for a 64-bit count of nanoseconds, load as an idle timeout of
290448384 nanoseconds: loading neither fails nor gives that many seconds. -/
theorem huge_idle_timeout_wraps :
    parseWord "18446744074" = .ok 18446744074 ∧
      ∃ s, load .none [("CLAUDE_PROXY_IDLE_TIMEOUT", "18446744074")] = .ok s ∧
        s.listener.idleTimeout = 290448384 ∧ s.listener.idleTimeout ≠ 18446744074 * second :=
  ⟨rfl, _, load_idle_timeout_only "18446744074" (by decide +kernel) (by decide +kernel),
    by decide +kernel, by decide +kernel⟩

end TurnRelay.Config
