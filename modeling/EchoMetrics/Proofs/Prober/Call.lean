import EchoMetrics.Proofs.Binary.Product
import EchoMetrics.Proofs.Prober.Version

/-! # What escapes from a look for the version

Main statement: without a version the prober is at fault, unless the call for the version cannot be
made, its output is no text, or a number of the version is too long to be read. -/

namespace EchoMetrics.Prober

/-- The time can be waited. -/
structure Waitable (timeout : Float) : Prop where
  pos : 0.0 < timeout
  le : timeout * 1000.0 ≤ longestWait

/-- The program at the path is started. -/
structure Starts (binary : String) (b : Behaviour) : Prop where
  nul : '\x00' ∉ binary.toList
  started : ∀ reason, b ≠ .refused reason

/-- What escapes from a look for the version of a prober that behaves in this way. -/
inductive Escapes (binary : String) (timeout : Float) : Behaviour → VersionFault → Prop
  | nulInPath {b : Behaviour} (h : '\x00' ∈ binary.toList) :
      Escapes binary timeout b (.call .nulInPath)
  | timeoutNaN {b : Behaviour} (hb : Starts binary b) (ht : timeout.isNaN = true) :
      Escapes binary timeout b (.call .timeoutNaN)
  | timeoutTooLong {b : Behaviour} (hb : Starts binary b) (h0 : 0.0 < timeout)
      (ht : ¬ timeout * 1000.0 ≤ longestWait) :
      Escapes binary timeout b (.call (.timeoutTooLong timeout))
  | stdout {code : Int} {reason : String} {stderr : Except String String}
      (hp : '\x00' ∉ binary.toList) (ht : Waitable timeout) :
      Escapes binary timeout (.exited code (.error reason) stderr) (.call (.undecodable reason))
  | stderr {code : Int} {stdout reason : String} (hp : '\x00' ∉ binary.toList)
      (ht : Waitable timeout) :
      Escapes binary timeout (.exited code (.ok stdout) (.error reason))
        (.call (.undecodable reason))
  | number {stdout stderr : String} {d : Version.Digits} {n : Nat} (hp : '\x00' ∉ binary.toList)
      (ht : Waitable timeout) (hd : Announced stdout stderr d) (hn : d.tooLong? = some n) :
      Escapes binary timeout (.exited 0 (.ok stdout) (.ok stderr)) (.tooManyDigits n)

section

variable {binary : String} {timeout : Float} {a : Answer} {b : Behaviour} {f : CallFault}

/-! ## Waiting -/

theorem isNaN_of_pos (h : 0.0 < timeout) : timeout.isNaN = false :=
  Binary.isNaN_of_zero_le (Binary.zero_le_of_pos h)

theorem wait_of_waitable (h : Waitable timeout) : wait timeout a = a := by
  rw [wait, if_pos h.pos, if_pos h.le]

theorem wait_of_tooLong (h0 : 0.0 < timeout) (h : ¬ timeout * 1000.0 ≤ longestWait) :
    wait timeout a = .broken (.timeoutTooLong timeout) := by
  rw [wait, if_pos h0, if_neg h]

theorem wait_of_isNaN (h : timeout.isNaN = true) : wait timeout a = .broken .timeoutNaN := by
  have hpos : ¬ 0.0 < timeout := fun h0 => Bool.false_ne_true ((isNaN_of_pos h0).symm.trans h)
  rw [wait, if_neg hpos, if_pos h]

theorem wait_eq_broken_iff : wait timeout a = .broken f ↔
    timeout.isNaN = true ∧ f = .timeoutNaN ∨
      0.0 < timeout ∧ ¬ timeout * 1000.0 ≤ longestWait ∧ f = .timeoutTooLong timeout ∨
      Waitable timeout ∧ a = .broken f := by
  constructor
  · intro h
    by_cases h0 : 0.0 < timeout
    · by_cases hle : timeout * 1000.0 ≤ longestWait
      · rw [wait_of_waitable ⟨h0, hle⟩] at h
        exact .inr (.inr ⟨⟨h0, hle⟩, h⟩)
      · rw [wait_of_tooLong h0 hle] at h
        exact .inr (.inl ⟨h0, hle, (Answer.broken.inj h).symm⟩)
    · by_cases hnan : timeout.isNaN = true
      · rw [wait_of_isNaN hnan] at h
        exact .inl ⟨hnan, (Answer.broken.inj h).symm⟩
      · rw [wait, if_neg h0, if_neg hnan] at h
        cases h
  · rintro (⟨hnan, rfl⟩ | ⟨h0, hle, rfl⟩ | ⟨ht, rfl⟩)
    · exact wait_of_isNaN hnan
    · exact wait_of_tooLong h0 hle
    · exact wait_of_waitable ht

theorem wait_eq_exited_iff {code : Int} {stdout stderr : String} :
    wait timeout a = .exited code stdout stderr ↔
      Waitable timeout ∧ a = .exited code stdout stderr := by
  constructor
  · intro h
    rw [wait] at h
    split_ifs at h with h0 hle hnan
    exact ⟨⟨h0, hle⟩, h⟩
  · rintro ⟨ht, rfl⟩
    exact wait_of_waitable ht

/-! ## Calls that break off -/

/-- How a program ends that is started and waited for as long as it takes. -/
def Behaviour.answer : Behaviour → Answer
  | .refused reason => .refused reason
  | .silent => .silent
  | .exited code stdout stderr => decoded code stdout stderr

theorem call_of_nul (h : '\x00' ∈ binary.toList) : call binary timeout b = .broken .nulInPath :=
  if_pos h

theorem call_refused (h : '\x00' ∉ binary.toList) (reason : String) :
    call binary timeout (.refused reason) = .refused reason :=
  if_neg h

theorem call_of_starts (h : Starts binary b) : call binary timeout b = wait timeout b.answer := by
  cases b with
  | refused reason => exact absurd rfl (h.started reason)
  | silent | exited => exact if_neg h.nul

theorem call_exited (hp : '\x00' ∉ binary.toList) (ht : Waitable timeout) {code : Int}
    {stdout stderr : Except String String} :
    call binary timeout (.exited code stdout stderr) = decoded code stdout stderr :=
  (if_neg hp).trans (wait_of_waitable ht)

/-- Where a program is not started, its call is over at once. -/
theorem call_cases (binary : String) (timeout : Float) (b : Behaviour) :
    ('\x00' ∈ binary.toList ∧ call binary timeout b = .broken .nulInPath) ∨
      (∃ reason, call binary timeout b = .refused reason) ∨
      (Starts binary b ∧ call binary timeout b = wait timeout b.answer) := by
  by_cases hnul : '\x00' ∈ binary.toList
  · exact .inl ⟨hnul, call_of_nul hnul⟩
  by_cases hb : ∃ reason, b = .refused reason
  · obtain ⟨reason, rfl⟩ := hb
    exact .inr (.inl ⟨reason, call_refused hnul reason⟩)
  · have hstarts : Starts binary b := ⟨hnul, not_exists.1 hb⟩
    exact .inr (.inr ⟨hstarts, call_of_starts hstarts⟩)

theorem call_eq_broken_iff :
    call binary timeout b = .broken f ↔ Escapes binary timeout b (.call f) := by
  constructor
  · intro h
    rcases call_cases binary timeout b with ⟨hnul, hcall⟩ | ⟨reason, hcall⟩ | ⟨hstarts, hcall⟩
    · cases hcall.symm.trans h
      exact .nulInPath hnul
    · cases hcall.symm.trans h
    rcases wait_eq_broken_iff.1 (hcall.symm.trans h) with ⟨hnan, rfl⟩ | ⟨h0, hle, rfl⟩ | ⟨ht, h⟩
    · exact .timeoutNaN hstarts hnan
    · exact .timeoutTooLong hstarts h0 hle
    -- The program has exited, and one of its outputs is no text.
    · cases b with
      | refused | silent => cases h
      | exited code stdout stderr =>
        cases stdout with
        | error reason =>
          cases h
          exact .stdout hstarts.nul ht
        | ok stdout =>
          cases stderr with
          | error reason =>
            cases h
            exact .stderr hstarts.nul ht
          | ok stderr => cases h
  · intro h
    cases h with
    | nulInPath hnul => exact call_of_nul hnul
    | timeoutNaN hb hnan => rw [call_of_starts hb, wait_of_isNaN hnan]
    | timeoutTooLong hb h0 hle => rw [call_of_starts hb, wait_of_tooLong h0 hle]
    | stdout hnul ht | stderr hnul ht =>
      rw [call_exited hnul ht]
      rfl

/-! ## Calls that are answered -/

theorem decoded_eq_exited_iff {code code' : Int} {stdout stderr : Except String String}
    {output complaint : String} : decoded code stdout stderr = .exited code' output complaint ↔
      code = code' ∧ stdout = .ok output ∧ stderr = .ok complaint := by
  constructor
  · intro h
    cases stdout with
    | error => cases h
    | ok =>
      cases stderr with
      | error => cases h
      | ok =>
        cases h
        exact ⟨rfl, rfl, rfl⟩
  · rintro ⟨rfl, rfl, rfl⟩
    rfl

theorem call_eq_exited_iff {code : Int} {stdout stderr : String} :
    call binary timeout b = .exited code stdout stderr ↔
      '\x00' ∉ binary.toList ∧ Waitable timeout ∧ b = .exited code (.ok stdout) (.ok stderr) := by
  constructor
  · intro h
    rcases call_cases binary timeout b with ⟨-, hcall⟩ | ⟨reason, hcall⟩ | ⟨hstarts, hcall⟩
    · cases hcall.symm.trans h
    · cases hcall.symm.trans h
    obtain ⟨ht, h⟩ := wait_eq_exited_iff.1 (hcall.symm.trans h)
    refine ⟨hstarts.nul, ht, ?_⟩
    cases b with
    | refused | silent => cases h
    | exited =>
      obtain ⟨rfl, rfl, rfl⟩ := decoded_eq_exited_iff.1 h
      rfl
  · rintro ⟨hnul, ht, rfl⟩
    exact call_exited hnul ht

theorem overlong_call_iff {n : Nat} :
    (call binary timeout b).Overlong n ↔ Escapes binary timeout b (.tooManyDigits n) := by
  constructor
  · rintro ⟨stdout, stderr, d, h, hd, hlong⟩
    obtain ⟨hnul, ht, rfl⟩ := call_eq_exited_iff.1 h
    exact .number hnul ht hd hlong
  · intro h
    cases h with
    | number hnul ht hd hlong => exact ⟨_, _, _, call_eq_exited_iff.2 ⟨hnul, ht, rfl⟩, hd, hlong⟩

/-! ## The look for the version -/

/-- What escapes is all that is not the prober's fault. -/
theorem escapes_iff {f : VersionFault} : Escapes binary timeout b f ↔
    readVersion binary timeout (call binary timeout b) = .error f ∧ ∀ p, f ≠ .prober p := by
  cases f with
  | prober p =>
    refine iff_of_false ?_ fun h => h.2 p rfl
    intro h
    cases h
  | call f =>
    rw [readVersion_eq_call_iff, call_eq_broken_iff, and_iff_left]
    intro p h
    cases h
  | tooManyDigits n =>
    rw [readVersion_eq_tooManyDigits_iff, overlong_call_iff, and_iff_left]
    intro p h
    cases h

theorem readVersion_ok_or_prober_iff :
    ((∃ v, readVersion binary timeout (call binary timeout b) = .ok v) ∨
        ∃ p, readVersion binary timeout (call binary timeout b) = .error (.prober p)) ↔
      ∀ f, ¬ Escapes binary timeout b f := by
  constructor
  · rintro (⟨v, h⟩ | ⟨p, h⟩) f hf
    · cases h.symm.trans (escapes_iff.1 hf).1
    · cases h.symm.trans (escapes_iff.1 hf).1
      exact (escapes_iff.1 hf).2 p rfl
  · intro hnone
    cases h : readVersion binary timeout (call binary timeout b) with
    | ok v => exact .inl ⟨v, rfl⟩
    | error f =>
      by_cases hf : ∃ p, f = .prober p
      · obtain ⟨p, rfl⟩ := hf
        exact .inr ⟨p, rfl⟩
      · exact absurd (escapes_iff.2 ⟨h, not_exists.1 hf⟩) (hnone f)

end

end EchoMetrics.Prober
