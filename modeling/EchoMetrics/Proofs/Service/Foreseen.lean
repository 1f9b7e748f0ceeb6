import EchoMetrics.Proofs.Binary.Product
import EchoMetrics.Proofs.Prober.Call
import EchoMetrics.Proofs.Settings.Load
import EchoMetrics.Service.Serving

/-! # Surroundings in which everything is foreseen

Main statements: without a version the prober is at fault, unless the call for it breaks off, and
where the longest delay can be waited for every delay can. -/

namespace EchoMetrics

namespace Service

open Prober

variable {w : Surroundings} {s : Settings}

/-- What is not the prober's fault comes of reading its version. -/
theorem findProber_eq_error_iff {f : VersionFault} (hf : ∀ p, f ≠ .prober p) :
    findProber w s = .error f ↔ ∃ path, w.lookUp s.program = some path ∧
      readVersion path s.versionTimeoutS (w.version path s.versionTimeoutS) = .error f := by
  rw [findProber]
  constructor
  · intro h
    rcases bind_eq_error_iff.1 h with hpath | ⟨path, hpath, h⟩
    · obtain ⟨p, -, hp⟩ := mapError_eq_error_iff.1 hpath
      exact absurd hp.symm (hf p)
    · rcases bind_eq_error_iff.1 h with hversion | ⟨_, -, h⟩
      · cases hfound : w.lookUp s.program with
        | none =>
          rw [hfound] at hpath
          cases hpath
        | some path' =>
          rw [hfound] at hpath
          cases hpath
          exact ⟨_, rfl, hversion⟩
      · cases h
  · rintro ⟨path, hpath, hversion⟩
    rw [hpath]
    exact bind_eq_error_iff.2 (.inr ⟨path, rfl, bind_eq_error_iff.2 (.inl hversion)⟩)

theorem findProber_eq_call_iff {f : CallFault} : findProber w s = .error (.call f) ↔
    ∃ path, w.lookUp s.program = some path ∧ w.version path s.versionTimeoutS = .broken f := by
  rw [findProber_eq_error_iff fun p h => by cases h]
  simp only [readVersion_eq_call_iff]

/-- The call is that of the prober that is found. -/
theorem Surroundings.callBreaks_iff (h : Settings.load w.environment w.arguments = .ok s) :
    w.CallBreaks ↔ ∃ f, findProber w s = .error (.call f) := by
  constructor
  · rintro ⟨s', path, f, hs, hpath, hf⟩
    cases h.symm.trans hs
    exact ⟨f, findProber_eq_call_iff.2 ⟨path, hpath, hf⟩⟩
  · rintro ⟨f, hf⟩
    obtain ⟨path, hpath, hf⟩ := findProber_eq_call_iff.1 hf
    exact ⟨s, path, f, h, hpath, hf⟩

theorem Surroundings.callBreaks_iff_escapes {b : Behaviour}
    (h : w.version = fun path timeout => call path timeout b) :
    w.CallBreaks ↔ ∃ s path f, Settings.load w.environment w.arguments = .ok s ∧
      w.lookUp s.program = some path ∧ Escapes path s.versionTimeoutS b (.call f) := by
  simp only [CallBreaks, h, call_eq_broken_iff]

/-- Unless the call breaks off, the prober is at fault if no path or version of it is found. -/
theorem Surroundings.Foreseen.prober_or_call (hw : w.Foreseen) {f : VersionFault}
    (h : Settings.load w.environment w.arguments = .ok s) (hf : findProber w s = .error f) :
    (∃ p, f = .prober p) ∨ ∃ f', f = .call f' := by
  cases f with
  | prober p => exact .inl ⟨p, rfl⟩
  | call f' => exact .inr ⟨f', rfl⟩
  | tooManyDigits n =>
    obtain ⟨path, hpath, hversion⟩ := (findProber_eq_error_iff fun p h => by cases h).1 hf
    obtain ⟨stdout, stderr, d, ha, hd, hlong⟩ := readVersion_eq_tooManyDigits_iff.1 hversion
    have hshort : d.Short :=
      hw.version s path 0 stdout stderr d h hpath ha (announcedIn?_or_eq_some_iff.2 hd)
    cases hlong.symm.trans (Version.Digits.tooLong?_eq_none_iff.2 hshort)

theorem canWait_delay {b : Backoff} (hbase : 0.0 < b.base) (hcap : 0.0 < b.cap)
    (h : canWait b.cap = true) (k : Nat) : canWait (b.delay k) = true := by
  rw [Backoff.delay]
  split
  · rename_i hlt
    have hpower := Binary.floatOfNat_pos (Nat.two_pow_pos k)
    exact decide_eq_true (Binary.mul_lt_of_lt (Binary.zero_le_mul hbase hpower) hlt
      (Binary.zero_le_of_pos hcap) (by decide +kernel) (by decide +kernel)
      (Binary.zero_le_floatOfNat _) (of_decide_eq_true h))
  · exact h

/-- All settings but the target are the defaults. -/
theorem load_single : Settings.load [] ["dns"] = .ok { targets := ["dns"] } := by decide +kernel

end Service

end EchoMetrics
