import EchoMetrics.Proofs.Binary.Product
import EchoMetrics.Proofs.Decimal.Canonical
import EchoMetrics.Proofs.Settings.Fields

/-! # The command line of accepted settings

Settings that were accepted satisfy the rules on every field, whichever way their targets came, and
what was read of their period and interval can be written again. Main statement: with accepted
settings the prober is called with its options, two counts and the targets, none of which it can
take for an option. -/

namespace EchoMetrics

/-! ## Numbers that were read -/

namespace Numeral

theorem natAbs_lt_of_plainInt? {cs : List Char} {n : Int} (h : plainInt? cs = .ok n) :
    n.natAbs < 10 ^ maxDigits := by
  unfold plainInt? at h
  split at h
  rename_i negative ds _
  have hd : ∀ c ∈ ds.takeWhile Char.isDigit, c.isDigit = true :=
    List.all_eq_true.1 List.all_takeWhile
  split at h
  · cases h
  · split at h
    · cases h
      exact Nat.pow_pos (by decide)
    · cases h
  · split at h
    · cases h
    · rename_i hl
      split at h
      · cases h
      · cases h
        have hlt := (natOfAscii_lt hd).trans_le (Nat.pow_le_pow_right (by decide) (not_lt.1 hl))
        split <;> omega

theorem natAbs_lt_of_int? {s : String} {n : Int} (h : int? s = .ok n) :
    n.natAbs < 10 ^ maxDigits := by
  unfold int? at h
  split at h
  · cases hform : (plainForm? s.toList).bind fun cs => (plainInt? cs).toOption with
    | none =>
      rw [hform] at h
      cases h
    | some m =>
      rw [hform] at h
      cases h
      obtain ⟨cs, -, hcs⟩ := Option.bind_eq_some_iff.1 hform
      cases hplain : plainInt? cs with
      | error =>
        rw [hplain] at hcs
        cases hcs
      | ok m =>
        rw [hplain] at hcs
        cases hcs
        exact natAbs_lt_of_plainInt? hplain
  · exact natAbs_lt_of_plainInt? h

end Numeral

open Numeral

/-- A value that is no whole number of too many digits. -/
def Value.Writable (v : Value) : Prop := ∀ n, v = .int n → n.natAbs < 10 ^ maxDigits

theorem Check.natAbs_lt_of_int {ρ : Type} {v : Value} {n : Int} (hv : v.Writable)
    (h : (Check.int v : Check ρ Int) = .ok n) : n.natAbs < 10 ^ maxDigits := by
  have hsmall {m : Nat} (hm : m ≤ Check.floatLimit) : m < 10 ^ maxDigits :=
    calc m ≤ 2 ^ 63 := hm
      _ < 10 ^ 63 := Nat.pow_lt_pow_left (by decide) (by decide)
      _ ≤ 10 ^ maxDigits := Nat.pow_le_pow_right (by decide) (by decide)
  cases v with
  | null | list | record => cases h
  | int =>
    cases h
    exact hv n rfl
  | bool b =>
    cases h
    refine hsmall ?_
    cases b <;> decide
  | float x =>
    rw [Check.int] at h
    split at h
    · cases h
    · split at h
      · cases h
      · split at h
        · rename_i hlt
          cases h
          exact hsmall hlt.le
        · cases h
  | text s =>
    rw [Check.int] at h
    split at h
    · rename_i hs
      cases h
      exact natAbs_lt_of_int? hs
    · cases h
    · cases h

theorem Check.lt_of_count {ρ : Type} {bound n : Nat} {v : Value} (hv : v.Writable)
    (h : (Check.count bound v : Check ρ Nat) = .ok n) : n < 10 ^ maxDigits := by
  obtain ⟨m, hm, h⟩ := bind_eq_ok_iff.1 h
  have hlt := Check.natAbs_lt_of_int hv hm
  obtain ⟨-, rfl⟩ := Check.atLeast_eq_ok_iff.1 h
  exact hlt

namespace Settings

variable {r : Record} {s : Settings} {env : Environment} {args ts : List String}

/-- The period and the interval are short enough to be written. -/
structure Writable (s : Settings) : Prop where
  period : s.periodMs < 10 ^ maxDigits
  summaryInterval : s.summaryIntervalS < 10 ^ maxDigits

theorem lt_of_withDefault {name : String} {d bound n : Nat} (hd : d < 10 ^ maxDigits)
    (hr : ∀ v, r.lookup name = some v → v.Writable)
    (h : r.withDefault name d (Check.count bound : Value → Check Rule Nat) = .valid n) :
    n < 10 ^ maxDigits := by
  rcases Record.withDefault_eq_valid_iff.1 h with ⟨-, rfl⟩ | ⟨v, hv, hcheck⟩
  · exact hd
  · exact Check.lt_of_count (hr v hv) hcheck

theorem writable_of_ofRecord (h : ofRecord r = .ok s)
    (hperiod : ∀ v, r.lookup "period_ms" = some v → v.Writable)
    (hinterval : ∀ v, r.lookup "summary_interval_s" = some v → v.Writable) : s.Writable := by
  have hdefault {d : Nat} (hd : d < 10 ^ 4) : d < 10 ^ maxDigits :=
    hd.trans_le (Nat.pow_le_pow_right (by decide) (by decide))
  obtain ⟨hreads, -⟩ := reads_of_ofRecord h
  exact ⟨lt_of_withDefault (hdefault (by decide)) hperiod hreads.period,
    lt_of_withDefault (hdefault (by decide)) hinterval hreads.summaryInterval⟩

/-- The environment holds texts only. -/
theorem writable_of_lookup_recordOfEnvironment {name : String} {v : Value}
    (h : (recordOfEnvironment env).lookup name = some v) : v.Writable := by
  obtain ⟨front, back, hsplit, -⟩ := List.lookup_eq_some_iff.1 h
  have hmem : (name, v) ∈ recordOfEnvironment env := by
    rw [hsplit]
    exact List.mem_append_right _ List.mem_cons_self
  rintro n rfl
  rcases List.mem_append.1 hmem with hmem | hmem
  · obtain ⟨⟨name, field⟩, -, hq⟩ := List.mem_filterMap.1 hmem
    simp only at hq
    split at hq
    · split at hq <;> cases hq
    · cases hq
  · cases List.mem_singleton.1 hmem

theorem writable_of_ofEnvironment (h : ofEnvironment env = .ok s) : s.Writable :=
  writable_of_ofRecord h (fun _ => writable_of_lookup_recordOfEnvironment)
    fun _ => writable_of_lookup_recordOfEnvironment

/-- The second check finds the counts that the first one let through. -/
theorem writable_of_withTargets {s' : Settings} (hs : s.Writable) (h : s.withTargets ts = .ok s') :
    s'.Writable := by
  have hint {n : Nat} (hn : n < 10 ^ maxDigits) {v : Value}
      (hv : some (Value.int n) = some v) : v.Writable := by
    obtain rfl := Option.some.inj hv
    intro m hm
    cases hm
    exact hn
  exact writable_of_ofRecord h (fun _ => hint hs.period) fun _ => hint hs.summaryInterval

theorem writable_of_load (h : load env args = .ok s) : s.Writable := by
  obtain ⟨-, s', henv, rfl | ⟨ts, hwith⟩⟩ := cases_of_load h
  · exact writable_of_ofEnvironment henv
  · exact writable_of_withTargets (writable_of_ofEnvironment henv) hwith

/-! ## Accepted settings -/

/-- An argument that begins like an option. -/
def IsFlag (arg : String) : Prop := arg.toList.head? = some '-'

/-- A target that a program takes for one word and for no option. -/
structure IsPlain (t : String) : Prop where
  ne_empty : t ≠ ""
  not_isBlank : ∀ c ∈ t.toList, Text.isBlank c = false
  not_isFlag : ¬ IsFlag t

theorem isPlain_of_targetFault? {t : String} (h : targetFault? t = none) : IsPlain t := by
  rw [targetFault?] at h
  split at h
  · cases h
  · rename_i hword
    rw [Bool.or_eq_true, not_or, decide_eq_true_iff, List.any_eq_true, not_exists] at hword
    split at h
    · cases h
    · rename_i hdash
      refine ⟨hword.1, fun c hc => Bool.eq_false_iff.2 fun hb => hword.2 c ⟨hc, hb⟩, hdash⟩

/-- The floats that a rule keeps above or at zero. -/
def boundedFloats (s : Settings) : List Float :=
  [s.versionTimeoutS, s.backoffBaseS, s.backoffCapS, s.shutdownGraceS, s.shutdownTimeoutS] ++
    (s.stabilityThresholdS.toList ++ s.runtimeLimitS.toList)

/-- Settings with which the prober can be run and supervised. -/
structure Runnable (s : Settings) : Prop extends s.Valid where
  targets_ne_nil : s.targets ≠ []
  isPlain : ∀ t ∈ s.targets, IsPlain t
  backoffBase_le : s.backoffBaseS ≤ s.backoffCapS
  threshold_pos : 0.0 < s.stabilityThreshold
  isNaN : ∀ x ∈ s.boundedFloats, x.isNaN = false

theorem Valid.isNaN (h : s.Valid) : ∀ x ∈ s.boundedFloats, x.isNaN = false := by
  have hpos {x : Float} (hx : 0.0 < x) : x.isNaN = false :=
    Binary.isNaN_of_zero_le (Binary.zero_le_of_pos hx)
  intro x hx
  simp only [boundedFloats, List.mem_append, List.mem_cons, List.not_mem_nil, or_false,
    Option.mem_toList] at hx
  rcases hx with (rfl | rfl | rfl | rfl | rfl) | hx | hx
  · exact hpos h.versionTimeout
  · exact hpos h.backoffBase
  · exact hpos h.backoffCap
  · exact Binary.isNaN_of_zero_le h.shutdownGrace
  · exact Binary.isNaN_of_zero_le h.shutdownTimeout
  · exact hpos (h.stabilityThreshold x hx)
  · exact hpos (h.runtimeLimit x hx)

theorem Valid.runnable (h : s.Valid) (hne : s.targets ≠ []) : s.Runnable where
  toValid := h
  targets_ne_nil := hne
  isPlain t ht := isPlain_of_targetFault? (h.targets t ht)
  backoffBase_le := Binary.le_of_not_lt_of_zero_le (Binary.zero_le_of_pos h.backoffBase)
    (Binary.zero_le_of_pos h.backoffCap) h.backoff
  threshold_pos := by
    show 0.0 < s.stabilityThresholdS.getD s.backoffCapS
    cases hs : s.stabilityThresholdS with
    | none => exact h.backoffCap
    | some x => exact h.stabilityThreshold x hs
  isNaN := h.isNaN

/-- Accepted settings can be run. The prober is called with its options, the period and the interval
as counts, and the targets; nothing behind the interval is an option. -/
theorem runnable_of_load (h : load env args = .ok s) :
    s.Runnable ∧ ∀ binary, ∃ period interval,
      s.command binary = [binary, "-l", "-D", "-p", period, "-Q", interval] ++ s.targets ∧
      Count period.toList s.periodMs ∧ Canonical period.toList s.periodMs ∧
      Count interval.toList s.summaryIntervalS ∧ Canonical interval.toList s.summaryIntervalS ∧
      ∀ arg ∈ (s.command binary).drop 7, ¬ IsFlag arg := by
  have hrunnable := (valid_of_load h).runnable (cases_of_load h).1
  have hwritable := writable_of_load h
  refine ⟨hrunnable, fun binary => ⟨toString s.periodMs, toString s.summaryIntervalS, rfl,
    count_toString hwritable.period, canonical_toString _,
    count_toString hwritable.summaryInterval, canonical_toString _, ?_⟩⟩
  intro arg harg
  exact (hrunnable.isPlain arg harg).not_isFlag

theorem runnable_of_load_infinite :
    ∃ s, load [("FPING_TARGETS", " dns ,, a-b"), ("FPING_PERIOD_MS", " +5_00.0"),
        ("BACKOFF_CAP_S", "inf"), ("METRICS_PATH", "//m/ ")] [] = .ok s ∧
      s.Runnable ∧ s.backoffCapS.isInf ∧ s.metricsPath = "/m" ∧
      s.command "fping" = ["fping", "-l", "-D", "-p", "500", "-Q", "10", "dns", "a-b"] ∧
      ∀ arg ∈ (s.command "fping").drop 7, ¬ IsFlag arg := by
  have hload : load [("FPING_TARGETS", " dns ,, a-b"), ("FPING_PERIOD_MS", " +5_00.0"),
      ("BACKOFF_CAP_S", "inf"), ("METRICS_PATH", "//m/ ")] [] =
      .ok { targets := ["dns", "a-b"], periodMs := 500, backoffCapS := 1.0 / 0.0,
            metricsPath := "/m" } := by
    decide +kernel
  obtain ⟨hrunnable, hcommand⟩ := runnable_of_load hload
  obtain ⟨_, _, -, -, -, -, -, hflag⟩ := hcommand "fping"
  exact ⟨_, hload, hrunnable, by decide +kernel, rfl, by decide +kernel, hflag⟩

end Settings

end EchoMetrics
