import VaultOperator.Proofs.Backoff.Table
import VaultOperator.Proofs.Duration.Grammar
import VaultOperator.Proofs.Engine.Convergence
import VaultOperator.Proofs.Text.Number
import VaultOperator.Proofs.Time.Range
import VaultOperator.Proofs.Watch.Pass

/-!
# How far ahead a pass looks

A pass looks ahead by a refresh period and by the delay until the next pass. Spans that are longer
than any that a date can be moved by are told apart, but shorter ones may still lead past the end of
the calendar, where a pass is aborted (`aborts_past_calendar`).
-/

namespace VaultOperator

open Program (Exec)

namespace RandomSecret

variable {r : RandomSecret} {last? : Option String} {now : Instant}

/-- The refresh period in seconds. -/
def refreshSeconds? (r : RandomSecret) : Option Nat :=
  r.spec.refreshPeriod.bind fun text => (Duration.parse text).toOption

theorem refreshDue?_eq_none_iff : refreshDue? r.spec.refreshPeriod last? now = none ↔
    ∃ period last, r.refreshSeconds? = some period ∧ last?.bind Instant.read? = some last ∧
      last.LeavesCalendar period := by
  unfold refreshDue? refreshSeconds?
  cases r.spec.refreshPeriod with
  | none => simp
  | some text =>
    cases hparse : Duration.parse text with
    | error e => simp [hparse, Except.toOption]
    | ok period =>
      cases hlast : last?.bind Instant.read? with
      | none => simp [hparse]
      | some last =>
        by_cases hlong : Instant.maxSpanSeconds < period
        · simp [hparse, Except.toOption, Instant.leavesCalendar_iff, hlong]
        · simp [hparse, Except.toOption, Instant.leavesCalendar_iff, hlong, Nat.le_of_not_lt hlong]

/-- The periods that never lead past the calendar are those that do not from the latest time that
can be recorded, and those that are too long for any date. -/
theorem refreshDue?_total_iff :
    (∀ last? now, refreshDue? r.spec.refreshPeriod last? now ≠ none) ↔
      ∀ period, r.refreshSeconds? = some period →
        period ≤ 7956864489660 ∨ Instant.maxSpanSeconds < period := by
  simp only [Ne, refreshDue?_eq_none_iff, Instant.LeavesCalendar, Instant.lastSecond_eq]
  constructor
  · intro h period hperiod
    by_contra hbetween
    obtain ⟨hfar, hspan⟩ := not_or.1 hbetween
    refine h (some "9999-12-31T23:59:60-23:59") ⟨0, 0⟩
      ⟨period, _, hperiod, Instant.read?_latest, ?_⟩
    dsimp only
    omega
  · rintro h last? now ⟨period, last, hperiod, hlast, hspan, hpast⟩
    obtain ⟨text, rfl, hread⟩ := Option.bind_eq_some_iff.1 hlast
    have hlatest := Instant.second_le_of_read? hread
    rcases h period hperiod with hnear | hlong <;> omega

/-- A secret that is made anew after so many seconds. -/
def refreshedAfter (seconds : Nat) : RandomSecret :=
  { Object.token with
    spec := { Object.token.spec with refreshPeriod := some (toString seconds ++ "s") } }

theorem refreshSeconds?_refreshedAfter (hpositive : 0 < seconds) (hroom : seconds < 2 ^ 64) :
    (refreshedAfter seconds).refreshSeconds? = some seconds := by
  simp only [refreshSeconds?, refreshedAfter, Option.bind_some,
    Duration.parse_toString hpositive hroom]
  rfl

theorem validate_refreshedAfter (hpositive : 0 < seconds) (hroom : seconds < 2 ^ 64) :
    (refreshedAfter seconds).validate = .ok () := by
  have hpath : vaultPath (refreshedAfter seconds) = vaultPath Object.token := by
    simp only [vaultPath, refreshedAfter]
  have hperiod : Validation.optionalDuration "spec.refreshPeriod"
      (refreshedAfter seconds).spec.refreshPeriod = .ok () := by
    simp only [refreshedAfter, Validation.optionalDuration,
      Duration.parse_toString hpositive hroom]
  have hvalid : Object.token.validate = .ok () := by decide +kernel
  rw [validate] at hvalid
  rw [validate, hpath, hperiod]
  exact hvalid

/-- The periods that valid secrets are declared with. -/
theorem exists_refreshSeconds_iff :
    (∃ r : RandomSecret, r.validate = .ok () ∧ r.refreshSeconds? = some period) ↔
      0 < period ∧ period < 2 ^ 64 := by
  constructor
  · rintro ⟨r, -, hperiod⟩
    obtain ⟨text, -, hread⟩ := Option.bind_eq_some_iff.1 hperiod
    cases hparse : Duration.parse text with
    | error e => simp [hparse, Except.toOption] at hread
    | ok n =>
      obtain rfl : n = period := by simpa [hparse, Except.toOption] using hread
      exact (Duration.parse_eq_ok_iff.1 hparse).2
  · rintro ⟨hpositive, hroom⟩
    exact ⟨refreshedAfter period, validate_refreshedAfter hpositive hroom,
      refreshSeconds?_refreshedAfter hpositive hroom⟩

end RandomSecret

namespace Watch

open RandomSecret (refreshDue? refreshedAfter)

/-- What a pass may wait for with these settings, once it succeeded or failed. -/
inductive MayWait (c : Config) : Nat → Prop
  | resync : MayWait c c.resyncSeconds.toNat
  | failed (o : Object) (e : ReconcileError) (ops : List Backoff.Operation)
    (h : (failureDelay c o e).run.run
      ((Backoff.Table.new c.backoffMinMinutes c.backoffMaxMinutes).afterAll ops) =
        .done (.ok seconds, counted)) : MayWait c seconds

theorem mayWait_iff :
    (∃ env, MayWait (Config.ofEnvironment env) delay) ↔ delay < UInt64.size := by
  constructor
  · rintro ⟨env, hwait⟩
    cases hwait with
    | resync => exact UInt64.toNat_lt_size _
    | failed o e ops h =>
      unfold failureDelay at h
      split at h <;> cases h <;> exact UInt64.toNat_lt_size _
  · intro hdelay
    let env := (∅ : Dict String).insert "RESYNC_INTERVAL_SECS" (toString delay)
    have hread : Text.readUnsigned (UInt64.size - 1) (toString delay).toList = .ok delay :=
      Text.readUnsigned_toString (Nat.le_sub_one_of_lt hdelay)
    have hresync : (Config.ofEnvironment env).resyncSeconds = UInt64.ofNat delay := by
      simp only [Config.ofEnvironment, Config.readUInt64, env, Dict.get?_insert, if_true,
        Option.map_some, hread]
    have hwait : MayWait _ (Config.ofEnvironment env).resyncSeconds.toNat := .resync
    rw [hresync, UInt64.toNat_ofNat_of_lt' hdelay] at hwait
    exact ⟨env, hwait⟩

theorem scheduleAfter_aborts_iff :
    Exec (scheduleAfter delay) es none ↔
      ∃ now, es = [clockEvent now] ∧ now.LeavesCalendar delay := by
  rw [exec_scheduleAfter]
  refine exists_congr fun now => and_congr_right fun _ => ?_
  by_cases hlong : Instant.maxSpanSeconds < delay <;>
    simp [Instant.leavesCalendar_iff, hlong, eq_comm]

/-- The delays that never lead past the calendar are those that do not from the last second that a
clock shows, and those that are too long for any date. -/
theorem scheduleAfter_total_iff :
    (∀ now, now.IsOrdinary → ¬ Exec (scheduleAfter delay) [clockEvent now] none) ↔
      delay ≤ 7956864576000 ∨ Instant.maxSpanSeconds < delay := by
  have haborts (now : Instant) : Exec (scheduleAfter delay) [clockEvent now] none ↔
      now.LeavesCalendar delay := by
    rw [scheduleAfter_aborts_iff]
    constructor
    · rintro ⟨_, hnow, hleaves⟩
      cases hnow
      exact hleaves
    · exact fun hleaves => ⟨now, rfl, hleaves⟩
  simp only [haborts, Instant.LeavesCalendar, Instant.lastSecond_eq]
  constructor
  · intro h
    by_contra hbetween
    obtain ⟨hfar, hspan⟩ := not_or.1 hbetween
    refine h Instant.lastOrdinary Instant.isOrdinary_lastOrdinary ?_
    simp only [Instant.lastOrdinary]
    omega
  · rintro h now hordinary ⟨hspan, hpast⟩
    have hlatest := hordinary.second_le
    rcases h with hnear | hlong <;> omega

/-- A pass is aborted where a refresh period or a delay leads past the calendar that is not too long
for any date. Valid secrets are declared with all periods that fit into a word, and there are
settings for all delays that do. -/
theorem aborts_past_calendar (r : RandomSecret) (period delay : Nat) :
    (∀ (last? : Option String) (now : Instant),
      refreshDue? r.spec.refreshPeriod last? now = none ↔
        ∃ period last, r.refreshSeconds? = some period ∧ last?.bind Instant.read? = some last ∧
          last.LeavesCalendar period) ∧
    ((∀ last? now, refreshDue? r.spec.refreshPeriod last? now ≠ none) ↔
      ∀ period, r.refreshSeconds? = some period →
        period ≤ 7956864489660 ∨ Instant.maxSpanSeconds < period) ∧
    ((∃ r : RandomSecret, r.validate = .ok () ∧ r.refreshSeconds? = some period) ↔
      0 < period ∧ period < 2 ^ 64) ∧
    (∀ es : List Event, Exec (scheduleAfter delay) es none ↔
      ∃ now, es = [clockEvent now] ∧ now.LeavesCalendar delay) ∧
    ((∀ now, now.IsOrdinary → ¬ Exec (scheduleAfter delay) [clockEvent now] none) ↔
      delay ≤ 7956864576000 ∨ Instant.maxSpanSeconds < delay) ∧
    ((∃ env, MayWait (Config.ofEnvironment env) delay) ↔ delay < UInt64.size) :=
  ⟨fun _ _ => RandomSecret.refreshDue?_eq_none_iff, RandomSecret.refreshDue?_total_iff,
    RandomSecret.exists_refreshSeconds_iff, fun _ => scheduleAfter_aborts_iff,
    scheduleAfter_total_iff, mayWait_iff⟩

/-- One second more is too much. -/
theorem aborts_past_calendar_sharp :
    (∀ last? now,
      refreshDue? (refreshedAfter 7956864489660).spec.refreshPeriod last? now ≠ none) ∧
      ¬ (∀ last? now,
        refreshDue? (refreshedAfter 7956864489661).spec.refreshPeriod last? now ≠ none) ∧
      Instant.lastOrdinary.IsOrdinary ∧
      ¬ Exec (scheduleAfter 7956864576000) [clockEvent Instant.lastOrdinary] none ∧
      Exec (scheduleAfter 7956864576001) [clockEvent Instant.lastOrdinary] none ∧
      ∃ env, MayWait (Config.ofEnvironment env) 7956864576001 := by
  obtain ⟨-, hnear, -, -, hsafe, -⟩ :=
    aborts_past_calendar (refreshedAfter 7956864489660) 7956864489660 7956864576000
  obtain ⟨-, hfar, -, haborts, -, hwait⟩ :=
    aborts_past_calendar (refreshedAfter 7956864489661) 7956864489661 7956864576001
  have hlast := Instant.isOrdinary_lastOrdinary
  refine ⟨hnear.2 fun period hperiod => ?_, fun hnever => ?_, hlast,
    hsafe.2 (.inl (Nat.le_refl _)) _ hlast,
    (haborts _).2 ⟨Instant.lastOrdinary, rfl, by decide +kernel⟩, hwait.2 (by decide)⟩
  · rw [RandomSecret.refreshSeconds?_refreshedAfter (by decide) (by decide)] at hperiod
    cases hperiod
    exact .inl (Nat.le_refl _)
  · have hperiod := hfar.1 hnever _
      (RandomSecret.refreshSeconds?_refreshedAfter (by decide) (by decide))
    revert hperiod
    decide

/-- A valid secret whose refresh is past the end of the calendar, and settings with which each delay
after a success is. -/
theorem refresh_past_calendar :
    (refreshedAfter 9000000000000).validate = .ok () ∧
      refreshDue? (refreshedAfter 9000000000000).spec.refreshPeriod
        (some "2026-07-01T12:00:00Z") ⟨1782907200, 0⟩ = none ∧
      Exec (scheduleAfter (Config.ofEnvironment ((∅ : Dict String).insert "RESYNC_INTERVAL_SECS"
        "9000000000000")).resyncSeconds.toNat) [clockEvent ⟨1782907200, 0⟩] none := by
  have hread : Instant.read? "2026-07-01T12:00:00Z" = some ⟨1782907200, 0⟩ := by decide +kernel
  refine ⟨RandomSecret.validate_refreshedAfter (by decide) (by decide),
    RandomSecret.refreshDue?_eq_none_iff.2 ⟨9000000000000, _,
      RandomSecret.refreshSeconds?_refreshedAfter (by decide) (by decide), hread,
      by decide +kernel⟩,
    scheduleAfter_aborts_iff.2 ⟨_, rfl, by decide +kernel⟩⟩

end Watch

end VaultOperator
