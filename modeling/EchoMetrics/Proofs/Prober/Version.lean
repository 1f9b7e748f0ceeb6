import EchoMetrics.Proofs.Decimal.Canonical
import EchoMetrics.Proofs.Field.Check
import EchoMetrics.Proofs.Prober.Announcement

/-! # Versions that are read and written

The numbers of a version are read in any script and written in ASCII, without zeros in front. Main
statement: what is written of a version that was read is canonical, and is read as the same version
wherever it is announced at the end of a line. -/

namespace EchoMetrics.Prober

open Text Numeral

/-! ## Numbers in the digits of any script -/

/-- The number that digits of any script stand for. -/
def Stands (ds : List Char) (n : Nat) : Prop :=
  ∃ values, ds.map digit? = values.map some ∧ Decimal.ofDigits values = n

section

variable {ds : List Char} {n : Nat}

theorem Row.stands (h : Row ds) :
    Stands ds (Decimal.ofDigits (ds.map fun c => (digit? c).getD 0)) := by
  refine ⟨_, ?_, rfl⟩
  rw [List.map_map]
  refine List.map_congr_left fun c hc => ?_
  obtain ⟨d, hd⟩ := Option.isSome_iff_exists.1 (h.2 c hc)
  rw [Function.comp_apply, hd, Option.getD_some]

theorem Stands.eq (h : Stands ds n) : Decimal.ofDigits (ds.map fun c => (digit? c).getD 0) = n := by
  obtain ⟨values, hmap, rfl⟩ := h
  have hget : ds.map (fun c => (digit? c).getD 0) = (ds.map digit?).map (·.getD 0) := by
    rw [List.map_map]
    rfl
  have hsome : (values.map some).map (·.getD 0) = values := by
    rw [List.map_map]
    exact List.map_id values
  rw [hget, hmap, hsome]

theorem Stands.lt (h : Stands ds n) : n < 10 ^ ds.length := by
  obtain ⟨values, hmap, rfl⟩ := h
  have hlength := congrArg List.length hmap
  rw [List.length_map, List.length_map] at hlength
  rw [hlength]
  refine Decimal.ofDigits_lt fun d hd => ?_
  have hmem : some d ∈ ds.map digit? := hmap ▸ List.mem_map_of_mem hd
  obtain ⟨c, -, hc⟩ := List.mem_map.1 hmem
  exact digit?_lt hc

theorem row_replicate {c : Char} (hc : isDigit c = true) (n : Nat) :
    Row (List.replicate (n + 1) c) := by
  refine ⟨List.cons_ne_nil _ _, fun c' hc' => ?_⟩
  rw [List.eq_of_mem_replicate hc', hc]

theorem row_of_digits (h : Digits ds) : Row ds := by
  refine ⟨h.1, fun c hc => ?_⟩
  rw [isDigit, digit?_of_isDigit (h.2 c hc)]
  rfl

theorem stands_of_digits (h : Digits ds) : Stands ds (natOfAscii ds) := by
  refine ⟨ds.map asciiDigit, ?_, rfl⟩
  rw [List.map_map]
  exact List.map_congr_left fun c hc => digit?_of_isDigit (h.2 c hc)

/-- Numbers are read in turn, up to the first that is too long. -/
theorem bind_number_eq_error_iff {α : Type} {k : Nat → Except VersionFault α} {f : VersionFault}
    {more : List Nat}
    (hk : ∀ n, k n = .error f ↔
      ∃ m, more.find? (maxDigits < ·) = some m ∧ f = .tooManyDigits m) :
    number ds >>= k = .error f ↔
      ∃ m, (ds.length :: more).find? (maxDigits < ·) = some m ∧ f = .tooManyDigits m := by
  rw [number, List.find?_cons]
  split
  · rename_i hlt
    rw [decide_eq_true hlt]
    constructor
    · intro h
      cases h
      exact ⟨_, rfl, rfl⟩
    · rintro ⟨m, h, rfl⟩
      cases h
      rfl
  · rename_i hle
    rw [decide_eq_false hle]
    exact hk _

theorem number_eq_ok_iff (h : Row ds) :
    number ds = .ok n ↔ ds.length ≤ maxDigits ∧ Stands ds n := by
  rw [number]
  split
  · rename_i hlt
    refine iff_of_false ?_ fun hle => hlt.not_ge hle.1
    intro h
    cases h
  · rename_i hle
    constructor
    · intro hn
      cases hn
      exact ⟨not_lt.1 hle, h.stands⟩
    · rintro ⟨-, hn⟩
      rw [hn.eq]

end

/-! ## Versions -/

namespace Version.Digits

/-- All that is written of a version. -/
def text (d : Digits) : List Char := d.major ++ '.' :: (d.minor ++ '.' :: d.patch)

structure Rows (d : Digits) : Prop where
  major : Row d.major
  minor : Row d.minor
  patch : Row d.patch

/-- No number is too long to be read. -/
def Short (d : Digits) : Prop :=
  d.major.length ≤ maxDigits ∧ d.minor.length ≤ maxDigits ∧ d.patch.length ≤ maxDigits

/-- How many digits the first number has that is too long to be read. -/
def tooLong? (d : Digits) : Option Nat :=
  [d.major.length, d.minor.length, d.patch.length].find? (maxDigits < ·)

structure StandFor (d : Digits) (v : Version) : Prop where
  major : Stands d.major v.major
  minor : Stands d.minor v.minor
  patch : Stands d.patch v.patch

variable {d : Digits} {v : Version}

theorem tooLong?_eq_none_iff : d.tooLong? = none ↔ d.Short := by
  simp [tooLong?, Short]

theorem version_eq_error_iff {f : VersionFault} :
    d.version = .error f ↔ ∃ n, d.tooLong? = some n ∧ f = .tooManyDigits n := by
  refine bind_number_eq_error_iff fun major => bind_number_eq_error_iff fun minor =>
    bind_number_eq_error_iff fun patch => iff_of_false ?_ ?_
  · intro h
    cases h
  · rintro ⟨n, h, -⟩
    cases h

theorem version_eq_ok_iff (h : d.Rows) : d.version = .ok v ↔ d.Short ∧ d.StandFor v := by
  rw [version]
  constructor
  · intro hv
    obtain ⟨major, hmajor, hv⟩ := bind_eq_ok_iff.1 hv
    obtain ⟨minor, hminor, hv⟩ := bind_eq_ok_iff.1 hv
    obtain ⟨patch, hpatch, hv⟩ := bind_eq_ok_iff.1 hv
    cases hv
    obtain ⟨hmajor, hm⟩ := (number_eq_ok_iff h.major).1 hmajor
    obtain ⟨hminor, hn⟩ := (number_eq_ok_iff h.minor).1 hminor
    obtain ⟨hpatch, hp⟩ := (number_eq_ok_iff h.patch).1 hpatch
    exact ⟨⟨hmajor, hminor, hpatch⟩, hm, hn, hp⟩
  · rintro ⟨⟨hmajor, hminor, hpatch⟩, hm, hn, hp⟩
    rw [(number_eq_ok_iff h.major).2 ⟨hmajor, hm⟩, (number_eq_ok_iff h.minor).2 ⟨hminor, hn⟩,
      (number_eq_ok_iff h.patch).2 ⟨hpatch, hp⟩]
    rfl

end Version.Digits

section

variable {stdout stderr : String} {d : Version.Digits}

theorem Patch.row {patch rest : List Char} (h : Patch patch rest) : Row patch := by
  cases h with
  | present hrow => exact hrow
  | absent => exact row_replicate (by decide) 0

theorem LastIn.rows {line : List Char} (h : LastIn d line) : d.Rows := by
  obtain ⟨_, _, -, -, hd, -⟩ := h
  cases hd with
  | mk hmajor hminor hpatch => exact ⟨hmajor, hminor, hpatch.row⟩

theorem Announced.rows (h : Announced stdout stderr d) : d.Rows := by
  obtain ⟨_, _, _, -, -, h⟩ | ⟨-, _, _, _, -, -, h⟩ := h
  · exact h.rows
  · exact h.rows

variable {binary : String} {timeout : Float} {v : Version}

theorem readVersion_of_announced (h : Announced stdout stderr d) :
    readVersion binary timeout (.exited 0 stdout stderr) = d.version := by
  have hd := announcedIn?_or_eq_some_iff.2 h
  rw [readVersion, if_neg (by decide), if_neg (by decide), hd]

theorem readVersion_of_not_announced (h : ∀ d, ¬ Announced stdout stderr d) :
    readVersion binary timeout (.exited 0 stdout stderr) =
      .error (.prober (.noVersion (trim stdout))) := by
  have hnone : (announcedIn? stdout <|> announcedIn? stderr) = none :=
    Option.eq_none_iff_forall_ne_some.2 fun d hd => h d (announcedIn?_or_eq_some_iff.1 hd)
  rw [readVersion, if_neg (by decide), if_neg (by decide), hnone]

theorem readVersion_eq_ok_iff :
    readVersion binary timeout (.exited 0 stdout stderr) = .ok v ↔
      ∃ d, Announced stdout stderr d ∧ d.Short ∧ d.StandFor v := by
  constructor
  · intro h
    by_cases hd : ∃ d, Announced stdout stderr d
    · obtain ⟨d, hd⟩ := hd
      rw [readVersion_of_announced hd] at h
      exact ⟨d, hd, (Version.Digits.version_eq_ok_iff hd.rows).1 h⟩
    · rw [readVersion_of_not_announced (not_exists.1 hd)] at h
      cases h
  · rintro ⟨d, hd, hv⟩
    rw [readVersion_of_announced hd, (Version.Digits.version_eq_ok_iff hd.rows).2 hv]

/-- The call succeeds, and the first number announced that is too long to be read has so many
digits. -/
def Answer.Overlong (a : Answer) (n : Nat) : Prop :=
  ∃ stdout stderr d, a = .exited 0 stdout stderr ∧ Announced stdout stderr d ∧ d.tooLong? = some n

/-- Without a version the prober is at fault, the call broke off, or a number is too long. -/
theorem readVersion_eq_error_cases {a : Answer} {f : VersionFault}
    (h : readVersion binary timeout a = .error f) :
    (∃ p, f = .prober p) ∨ (∃ f', a = .broken f' ∧ f = .call f') ∨
      ∃ n, a.Overlong n ∧ f = .tooManyDigits n := by
  cases a with
  | refused | silent =>
    cases h
    exact .inl ⟨_, rfl⟩
  | broken f' =>
    cases h
    exact .inr (.inl ⟨f', rfl, rfl⟩)
  | exited code stdout stderr =>
    by_cases hcode : code = dependenciesMissing
    · rw [readVersion, if_pos hcode] at h
      cases h
      exact .inl ⟨_, rfl⟩
    by_cases hzero : code = 0
    · subst hzero
      by_cases hd : ∃ d, Announced stdout stderr d
      · obtain ⟨d, hd⟩ := hd
        rw [readVersion_of_announced hd] at h
        obtain ⟨n, hlong, rfl⟩ := Version.Digits.version_eq_error_iff.1 h
        exact .inr (.inr ⟨n, ⟨stdout, stderr, d, rfl, hd, hlong⟩, rfl⟩)
      · rw [readVersion_of_not_announced (not_exists.1 hd)] at h
        cases h
        exact .inl ⟨_, rfl⟩
    · rw [readVersion, if_neg hcode, if_pos hzero] at h
      cases h
      exact .inl ⟨_, rfl⟩

theorem readVersion_eq_tooManyDigits_iff {a : Answer} {n : Nat} :
    readVersion binary timeout a = .error (.tooManyDigits n) ↔ a.Overlong n := by
  constructor
  · intro h
    rcases readVersion_eq_error_cases h with ⟨p, hf⟩ | ⟨f', -, hf⟩ | ⟨n, ha, hf⟩
    · cases hf
    · cases hf
    · cases hf
      exact ha
  · rintro ⟨stdout, stderr, d, rfl, hd, hlong⟩
    rw [readVersion_of_announced hd]
    exact Version.Digits.version_eq_error_iff.2 ⟨n, hlong, rfl⟩

theorem readVersion_eq_call_iff {a : Answer} {f : CallFault} :
    readVersion binary timeout a = .error (.call f) ↔ a = .broken f := by
  constructor
  · intro h
    rcases readVersion_eq_error_cases h with ⟨p, hf⟩ | ⟨f', ha, hf⟩ | ⟨n, -, hf⟩
    · cases hf
    · cases hf
      exact ha
    · cases hf
  · rintro rfl
    rfl

end

/-! ## Versions that are announced again -/

namespace Version

/-- The numerals that a version is written with. -/
def digits (v : Version) : Digits where
  major := (toString v.major).toList
  minor := (toString v.minor).toList
  patch := (toString v.patch).toList

variable {v : Version} {d : Digits}

theorem toList_text (v : Version) : v.text.toList = v.digits.text := by
  have hpoint : ".".toList = ['.'] := rfl
  simp only [text, String.toList_append, hpoint, List.append_assoc, List.singleton_append]
  rfl

theorem rows_digits (v : Version) : v.digits.Rows where
  major := row_of_digits (canonical_toString v.major).digits
  minor := row_of_digits (canonical_toString v.minor).digits
  patch := row_of_digits (canonical_toString v.patch).digits

theorem stands_toString (n : Nat) : Stands (toString n).toList n := by
  have h := canonical_toString n
  have hstands := stands_of_digits h.digits
  rwa [h.value] at hstands

theorem standFor_digits (v : Version) : v.digits.StandFor v where
  major := stands_toString v.major
  minor := stands_toString v.minor
  patch := stands_toString v.patch

/-- No number is written with more digits than it was read from. -/
theorem length_toString_le {ds : List Char} {n : Nat} (h : Stands ds n)
    (hds : ds.length ≤ maxDigits) : (toString n).toList.length ≤ maxDigits :=
  (length_toString_le_iff (by decide)).2 (h.lt.trans_le (Nat.pow_le_pow_right (by decide) hds))

theorem Digits.StandFor.short (h : d.StandFor v) (hd : d.Short) : v.digits.Short :=
  ⟨length_toString_le h.major hd.1, length_toString_le h.minor hd.2.1,
    length_toString_le h.patch hd.2.2⟩

theorem Digits.Rows.isDigit_or_eq (h : d.Rows) {c : Char} (hc : c ∈ d.text) :
    isDigit c = true ∨ c = '.' := by
  simp only [Digits.text, List.mem_append, List.mem_cons] at hc
  rcases hc with hc | rfl | hc | rfl | hc
  · exact .inl (h.major.2 c hc)
  · exact .inr rfl
  · exact .inl (h.minor.2 c hc)
  · exact .inr rfl
  · exact .inl (h.patch.2 c hc)

theorem Digits.Rows.not_mem_text (h : d.Rows) {c : Char} (hd : isDigit c = false)
    (hne : c ≠ '.') : c ∉ d.text := by
  intro hc
  rcases h.isDigit_or_eq hc with hc | hc
  · exact Bool.false_ne_true (hd.symm.trans hc)
  · exact hne hc

theorem Digits.Rows.announces (h : d.Rows) : Announces d (": Version ".toList ++ d.text) := by
  have hends : EndsRow [] := fun c hc => by cases hc
  have hpatch : Patch d.patch ('.' :: (d.patch ++ [])) := .present h.patch hends
  rw [List.append_nil] at hpatch
  exact .mk h.major h.minor hpatch

end Version

theorem Occurs.mem {cs : List Char} (h : Occurs cs) : ':' ∈ cs := by
  obtain ⟨_, _, _, -, -, rfl⟩ := h
  exact List.mem_cons_self

/-- An announcement that ends a line is the last one there, as it holds no colon but the first. -/
theorem lastIn_append {front : List Char} {d : Version.Digits} (hne : front ≠ []) (h : d.Rows) :
    LastIn d (front ++ (": Version ".toList ++ d.text)) := by
  refine ⟨front, _, hne, rfl, h.announces, ?_⟩
  intro front' cs' hsplit hlt hoccurs
  have htail : ": Version ".toList ++ d.text = ':' :: (" Version ".toList ++ d.text) := rfl
  rw [htail] at hsplit
  obtain ⟨more, rfl, hrest⟩ | ⟨more, rfl, -⟩ := List.append_eq_append_iff.1 hsplit
  · cases more with
    | nil => exact absurd hlt (by simp)
    | cons c more =>
      have hmem : ':' ∈ " Version ".toList ++ d.text := by
        rw [(List.cons.inj hrest).2]
        exact List.mem_append_right more hoccurs.mem
      rcases List.mem_append.1 hmem with hmem | hmem
      · exact absurd hmem (by decide)
      · exact h.not_mem_text (by decide) (by decide) hmem
  · rw [List.length_append] at hlt
    exact absurd hlt (by omega)

/-- A version that ends a text of one line is announced there. -/
theorem announced_append {front stderr : String} {d : Version.Digits} (hne : front ≠ "")
    (hfront : '\n' ∉ front.toList) (h : d.Rows) :
    Announced (front ++ ": Version " ++ String.ofList d.text) stderr d := by
  have hchars : (front ++ ": Version " ++ String.ofList d.text).toList =
      front.toList ++ (": Version ".toList ++ d.text) := by
    rw [String.toList_append, String.toList_append, List.append_assoc, @String.toList_ofList d.text]
  have hlines : lines (front ++ ": Version " ++ String.ofList d.text) =
      [front.toList ++ (": Version ".toList ++ d.text)] := by
    rw [lines, hchars]
    refine pieces_of_forall_not fun c hc => beq_false_of_ne ?_
    rintro rfl
    rcases List.mem_append.1 hc with hc | hc
    · exact hfront hc
    rcases List.mem_append.1 hc with hc | hc
    · exact absurd hc (by decide)
    · exact h.not_mem_text (by decide) (by decide) hc
  refine .onOutput ⟨[], _, [], hlines, List.forall_mem_nil _, lastIn_append ?_ h⟩
  rwa [Ne, String.toList_eq_nil_iff]

/-- A version that was read is written in canonical numerals, and is read again wherever it is
announced. -/
theorem readVersion_canonical {binary stdout stderr : String} {timeout : Float} {v : Version}
    (h : readVersion binary timeout (.exited 0 stdout stderr) = .ok v) :
    (∃ d, Announced stdout stderr d ∧ d.StandFor v) ∧
      (∃ d : Version.Digits, v.text.toList = d.text ∧ Canonical d.major v.major ∧
        Canonical d.minor v.minor ∧ Canonical d.patch v.patch) ∧
      ∀ (binary' : String) (timeout' : Float) (front stderr' : String), front ≠ "" →
        '\n' ∉ front.toList →
        readVersion binary' timeout' (.exited 0 (front ++ ": Version " ++ v.text) stderr') =
          .ok v := by
  obtain ⟨d, hd, hshort, hstand⟩ := readVersion_eq_ok_iff.1 h
  refine ⟨⟨d, hd, hstand⟩, ⟨v.digits, v.toList_text, canonical_toString _, canonical_toString _,
    canonical_toString _⟩, ?_⟩
  intro binary' timeout' front stderr' hne hfront
  have hagain := @announced_append _ stderr' _ hne hfront v.rows_digits
  rw [← v.toList_text, String.ofList_toList] at hagain
  exact readVersion_eq_ok_iff.2 ⟨v.digits, hagain, hstand.short hshort, v.standFor_digits⟩

/-- The last of two announcements in a line, with digits of another script, zeros in front and no
patch. -/
theorem readVersion_canonical_arabic :
    let stdout := "fping\nfping: Version 1.2: Version ٠٤.007 (2.3)\nfping: Version 9.9"
    readVersion "fping" 2.0 (.exited 0 stdout "fping: Version 8.8.8") = .ok ⟨4, 7, 0⟩ ∧
      (⟨4, 7, 0⟩ : Version).text = "4.7.0" ∧
      ∀ front : String, front ≠ "" → '\n' ∉ front.toList →
        readVersion "fping" 2.0 (.exited 0 (front ++ ": Version " ++ "4.7.0") "") =
          .ok ⟨4, 7, 0⟩ := by
  have h : readVersion "fping" 2.0
      (.exited 0 "fping\nfping: Version 1.2: Version ٠٤.007 (2.3)\nfping: Version 9.9"
        "fping: Version 8.8.8") = .ok ⟨4, 7, 0⟩ := by
    decide +kernel
  exact ⟨h, by decide +kernel, fun front => (readVersion_canonical h).2.2 "fping" 2.0 front ""⟩

end EchoMetrics.Prober
