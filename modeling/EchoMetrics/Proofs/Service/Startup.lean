import EchoMetrics.Proofs.Service.Foreseen
import EchoMetrics.Proofs.Service.Script

/-! # Probers that cannot be used

A prober is looked up and called for its version. Main statement: the exporter takes a prober that
it cannot use for a failure to start, unless something escapes from the look for the version. -/

namespace EchoMetrics.Service

open Prober

section

variable {w : Surroundings} {s : Settings} {f : VersionFault}

theorem exitCode?_prober_eq_startupFailure_iff :
    (Cause.prober f).exitCode? = some startupFailure ↔ ∃ p, f = .prober p := by
  cases f with
  | prober p => exact iff_of_true rfl ⟨p, rfl⟩
  | call | tooManyDigits =>
    refine iff_of_false (Option.some_ne_none _).symm ?_
    rintro ⟨p, h⟩
    cases h

theorem exitCode?_run_eq_startupFailure_iff {b : Behaviour}
    (hb : w.version = fun path timeout => call path timeout b)
    (h : Settings.load w.environment w.arguments = .ok s) (hf : findProber w s = .error f) :
    (run w).cause.exitCode? = some startupFailure ↔
      ∀ path, w.lookUp s.program = some path → ∀ f', ¬ Escapes path s.versionTimeoutS b f' := by
  rw [cause_run_of_refused h hf, exitCode?_prober_eq_startupFailure_iff]
  constructor
  · rintro ⟨p, rfl⟩ path hpath f' hescapes
    obtain ⟨hversion, hne⟩ := escapes_iff.1 hescapes
    have hf' : findProber w s = .error f' :=
      (findProber_eq_error_iff hne).2 ⟨path, hpath, by rw [hb, hversion]⟩
    exact hne p (Except.error.inj (hf'.symm.trans hf))
  · intro hnone
    by_contra hne
    obtain ⟨path, hpath, hversion⟩ := (findProber_eq_error_iff (not_exists.1 hne)).1 hf
    rw [hb] at hversion
    exact hnone path hpath f (escapes_iff.2 ⟨hversion, not_exists.1 hne⟩)

end

/-- A call for the version fails for the prober's fault, and so the exporter for a failure to start,
unless something escapes: the path cannot be passed on, the timeout cannot be waited, an output is
no text, or the prober announces a number that is too long. -/
theorem unusable_prober_fails_startup (binary : String) (timeout : Float) (b : Behaviour) :
    (((∃ v, readVersion binary timeout (call binary timeout b) = .ok v) ∨
        ∃ p, readVersion binary timeout (call binary timeout b) = .error (.prober p)) ↔
      ∀ f, ¬ Escapes binary timeout b f) ∧
    (∀ f, Escapes binary timeout b f ↔
      readVersion binary timeout (call binary timeout b) = .error f ∧ ∀ p, f ≠ .prober p) ∧
    ∀ (w : Surroundings) (s : Settings) (f : VersionFault),
      (w.version = fun path timeout => call path timeout b) →
      Settings.load w.environment w.arguments = .ok s → findProber w s = .error f →
        ((run w).cause.exitCode? = some startupFailure ↔
          ∀ path, w.lookUp s.program = some path →
            ∀ f', ¬ Escapes path s.versionTimeoutS b f') :=
  ⟨readVersion_ok_or_prober_iff, fun _ => escapes_iff,
    fun _ _ _ hb h hf => exitCode?_run_eq_startupFailure_iff hb h hf⟩

/-- A single target, and a prober that behaves in this way. -/
def calling (b : Behaviour) : Surroundings where
  environment := []
  arguments := ["dns"]
  lookUp _ := some "/usr/bin/fping"
  fileExists _ := true
  version path timeout := call path timeout b
  clock := 0.0

/-- The answer of another program. -/
theorem unusable_prober_fails_startup_echo :
    let b : Behaviour := .exited 0 (.ok "hello: Version 5") (.ok "")
    Settings.load [] ["dns"] = .ok { targets := ["dns"] } ∧
      findProber (calling b) { targets := ["dns"] } =
        .error (.prober (.noVersion "hello: Version 5")) ∧
      (run (calling b)).cause.exitCode? = some startupFailure := by
  intro b
  have hfind : findProber (calling b) { targets := ["dns"] } =
      .error (.prober (.noVersion "hello: Version 5")) := by
    decide +kernel
  have hanswer : readVersion "/usr/bin/fping" 2.0 (call "/usr/bin/fping" 2.0 b) =
      .error (.prober (.noVersion "hello: Version 5")) := by
    decide +kernel
  obtain ⟨hescapes, -, hcode⟩ := unusable_prober_fails_startup "/usr/bin/fping" 2.0 b
  refine ⟨load_single, hfind, (hcode _ _ _ rfl load_single hfind).2 ?_⟩
  rintro _ ⟨⟩
  exact hescapes.1 (.inr ⟨_, hanswer⟩)

/-- A version whose major number has one digit too many. -/
def overlong : Version.Digits := ⟨List.replicate 4301 '1', ['0'], ['0']⟩

def overlongOutput : String := "fping" ++ ": Version " ++ String.ofList overlong.text

theorem rows_overlong : overlong.Rows where
  major := row_replicate (by decide) 4300
  minor := row_replicate (by decide) 0
  patch := row_replicate (by decide) 0

theorem tooLong?_overlong : overlong.tooLong? = some 4301 := by
  have hlength : overlong.major.length = 4301 := List.length_replicate
  rw [Version.Digits.tooLong?, hlength]
  rfl

/-- A number that is too long is neither read nor taken for the prober's fault. -/
theorem run_of_overlong_version :
    let b : Behaviour := .exited 0 (.ok overlongOutput) (.ok "")
    readVersion "/usr/bin/fping" 2.0 (call "/usr/bin/fping" 2.0 b) =
        .error (.tooManyDigits 4301) ∧
      (run (calling b)).cause.exitCode? = none := by
  intro b
  have hescapes : Escapes "/usr/bin/fping" 2.0 b (.tooManyDigits 4301) :=
    .number (by decide) ⟨by decide +kernel, by decide +kernel⟩
      (announced_append (by decide) (by decide) rows_overlong) tooLong?_overlong
  obtain ⟨hversion, hne⟩ := escapes_iff.1 hescapes
  have hfind : findProber (calling b) { targets := ["dns"] } = .error (.tooManyDigits 4301) :=
    (findProber_eq_error_iff hne).2 ⟨_, rfl, hversion⟩
  rw [cause_run_of_refused load_single hfind]
  exact ⟨hversion, rfl⟩

end EchoMetrics.Service
