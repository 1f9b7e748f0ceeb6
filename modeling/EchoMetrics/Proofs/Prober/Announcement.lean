import EchoMetrics.Prober.Version
import EchoMetrics.Proofs.Text.Words

/-! # Which texts announce a version

An announcement is a few words and two or three numbers in the digits of any script, with something
in front of it on its line. Main statement: the digits that are read off two texts are those of the
last announcement in the first line that holds one, of the first text or else of the second. -/

namespace EchoMetrics.Prober

open Text Text.Scanner

/-- A row of digits. -/
def Row (ds : List Char) : Prop := ds ≠ [] ∧ ∀ c ∈ ds, isDigit c = true

/-- A text that does not go on with a digit. -/
def EndsRow (cs : List Char) : Prop := ∀ c ∈ cs.head?, isDigit c = false

/-- The patch that stands in front of the rest of a text: the digits behind a point, or zero. -/
inductive Patch : List Char → List Char → Prop
  | present {ds rest : List Char} : Row ds → EndsRow rest → Patch ds ('.' :: (ds ++ rest))
  | absent {rest : List Char} :
      EndsRow rest → (∀ ds more, Row ds → rest ≠ '.' :: (ds ++ more)) → Patch ['0'] rest

/-- A text that begins with an announcement, whose numbers have all digits that there are. -/
inductive Announces (d : Version.Digits) : List Char → Prop
  | mk {rest : List Char} :
      Row d.major → Row d.minor → Patch d.patch rest →
      Announces d (": Version ".toList ++ (d.major ++ '.' :: (d.minor ++ rest)))

/-- A text that begins with the words and two numbers, whatever follows. -/
def Occurs (cs : List Char) : Prop :=
  ∃ major minor rest, Row major ∧ Row minor ∧
    cs = ": Version ".toList ++ (major ++ '.' :: (minor ++ rest))

/-- A line in which an announcement has something in front of it. -/
def Mentions (line : List Char) : Prop := ∃ front cs, front ≠ [] ∧ line = front ++ cs ∧ Occurs cs

/-- The last announcement of a line. -/
def LastIn (d : Version.Digits) (line : List Char) : Prop :=
  ∃ front cs, front ≠ [] ∧ line = front ++ cs ∧ Announces d cs ∧
    ∀ front' cs', line = front' ++ cs' → front.length < front'.length → ¬ Occurs cs'

def lines (s : String) : List (List Char) := pieces (· == '\n') s.toList

/-- The last announcement of the first line that holds one. -/
def FirstIn (d : Version.Digits) (s : String) : Prop :=
  ∃ before line after, lines s = before ++ line :: after ∧ (∀ l ∈ before, ¬ Mentions l) ∧
    LastIn d line

/-- What is announced on the output, or else among the errors. -/
inductive Announced (stdout stderr : String) (d : Version.Digits) : Prop
  | onOutput : FirstIn d stdout → Announced stdout stderr d
  | amongErrors : (∀ line ∈ lines stdout, ¬ Mentions line) → FirstIn d stderr →
      Announced stdout stderr d

/-! ## Rows of digits -/

section

variable {cs rest ds : List Char} {d : Version.Digits}

theorem run_eq_some_iff_row :
    run isDigit cs = some (ds, rest) ↔ cs = ds ++ rest ∧ Row ds ∧ EndsRow rest := by
  rw [run_eq_some_iff, Row, EndsRow, and_assoc]

theorem dotted_eq_some_iff :
    dotted cs = some (ds, rest) ↔ cs = '.' :: (ds ++ rest) ∧ Row ds ∧ EndsRow rest := by
  have hpoint : ".".toList = ['.'] := rfl
  simp only [dotted, bind_eq_some_iff, lit_eq_some_iff, run_eq_some_iff_row, hpoint,
    List.singleton_append]
  constructor
  · rintro ⟨-, _, rfl, rfl, h⟩
    exact ⟨rfl, h⟩
  · rintro ⟨rfl, h⟩
    exact ⟨(), _, rfl, rfl, h⟩

/-- A row of digits can be read on to its end. -/
theorem exists_row_append (h : Row ds) (rest : List Char) :
    ∃ more rest', rest = more ++ rest' ∧ Row (ds ++ more) ∧ EndsRow rest' := by
  refine ⟨rest.takeWhile isDigit, rest.dropWhile isDigit, List.takeWhile_append_dropWhile.symm,
    ⟨List.append_ne_nil_of_left_ne_nil h.1 _, ?_⟩, ?_⟩
  · exact List.forall_mem_append.2 ⟨h.2, List.all_eq_true.1 List.all_takeWhile⟩
  · intro c hc
    have hhead := List.head?_dropWhile_not isDigit rest
    rw [Option.mem_def.1 hc] at hhead
    exact hhead

theorem dotted_eq_none_iff :
    dotted cs = none ↔ ∀ ds more, Row ds → cs ≠ '.' :: (ds ++ more) := by
  constructor
  · rintro hnone ds more hds rfl
    obtain ⟨more, rest, rfl, hrow, hends⟩ := exists_row_append hds more
    have hsome := dotted_eq_some_iff.2 ⟨rfl, hrow, hends⟩
    rw [List.append_assoc, hnone] at hsome
    cases hsome
  · intro h
    cases hd : dotted cs with
    | none => rfl
    | some p =>
      obtain ⟨hcs, hrow, -⟩ := dotted_eq_some_iff.1 hd
      exact absurd hcs (h _ _ hrow)

theorem endsRow_point : EndsRow ('.' :: rest) := by
  intro c hc
  obtain rfl := Option.some.inj hc
  decide

theorem Patch.endsRow (h : Patch ds rest) : EndsRow rest := by
  cases h with
  | present => exact endsRow_point
  | absent hends => exact hends

theorem exists_patch (h : EndsRow rest) : ∃ ds, Patch ds rest := by
  cases hd : dotted rest with
  | none => exact ⟨['0'], .absent h (dotted_eq_none_iff.1 hd)⟩
  | some p =>
    obtain ⟨rfl, hrow, hends⟩ := dotted_eq_some_iff.1 hd
    exact ⟨p.1, .present hrow hends⟩

/-! ## Announcements -/

theorem announcement_eq_some_iff :
    (∃ rest, announcement cs = some (d, rest)) ↔ Announces d cs := by
  simp only [announcement, bind_eq_some_iff, lit_eq_some_iff, run_eq_some_iff_row,
    dotted_eq_some_iff, maybe_eq_some_iff, pure_eq_some_iff]
  constructor
  · rintro ⟨rest, -, _, rfl, major, _, ⟨rfl, hmajor, -⟩, minor, middle, ⟨rfl, hminor, hends⟩, patch,
      _, hpatch, rfl, rfl⟩
    refine .mk hmajor hminor ?_
    rcases hpatch with ⟨ds, ⟨rfl, hds, hrest⟩, rfl⟩ | ⟨hnone, rfl, rfl⟩
    · exact .present hds hrest
    · exact .absent hends (dotted_eq_none_iff.1 hnone)
  · rintro ⟨hmajor, hminor, hpatch⟩
    obtain ⟨major, minor, patch⟩ := d
    have hends := hpatch.endsRow
    cases hpatch with
    | present hds hrest =>
      exact ⟨_, (), _, rfl, major, _, ⟨rfl, hmajor, endsRow_point⟩, minor, _,
        ⟨rfl, hminor, hends⟩, some patch, _, .inl ⟨patch, ⟨rfl, hds, hrest⟩, rfl⟩, rfl, rfl⟩
    | absent _ hnone =>
      exact ⟨_, (), _, rfl, major, _, ⟨rfl, hmajor, endsRow_point⟩, minor, _,
        ⟨rfl, hminor, hends⟩, none, _, .inr ⟨dotted_eq_none_iff.2 hnone, rfl, rfl⟩, rfl, rfl⟩

theorem Announces.occurs (h : Announces d cs) : Occurs cs := by
  cases h with
  | mk hmajor hminor _ => exact ⟨_, _, _, hmajor, hminor, rfl⟩

theorem Occurs.exists_announces (h : Occurs cs) : ∃ d, Announces d cs := by
  obtain ⟨major, minor, rest, hmajor, hminor, rfl⟩ := h
  obtain ⟨more, rest, rfl, hrow, hends⟩ := exists_row_append hminor rest
  obtain ⟨patch, hpatch⟩ := exists_patch hends
  rw [← List.append_assoc minor]
  exact ⟨⟨major, minor ++ more, patch⟩, .mk hmajor hrow hpatch⟩

theorem map_announcement_eq_some_iff :
    (announcement cs).map Prod.fst = some d ↔ Announces d cs := by
  rw [← announcement_eq_some_iff, Option.map_eq_some_iff]
  constructor
  · rintro ⟨⟨_, rest⟩, h, rfl⟩
    exact ⟨rest, h⟩
  · rintro ⟨rest, h⟩
    exact ⟨_, h, rfl⟩

theorem map_announcement_eq_none_iff : (announcement cs).map Prod.fst = none ↔ ¬ Occurs cs := by
  rw [Option.eq_none_iff_forall_ne_some]
  constructor
  · intro h hoccurs
    obtain ⟨d, hd⟩ := hoccurs.exists_announces
    exact h d (map_announcement_eq_some_iff.2 hd)
  · intro h d hd
    exact h (map_announcement_eq_some_iff.1 hd).occurs

/-! ## Lines -/

theorem not_mentions_nil : ¬ Mentions [] := by
  rintro ⟨front, cs, hne, h, -⟩
  exact hne (List.append_eq_nil_iff.1 h.symm).1

/-- Behind the first character of a line an announcement stands at once or later. -/
theorem mentions_cons_iff {c : Char} : Mentions (c :: cs) ↔ Occurs cs ∨ Mentions cs := by
  constructor
  · rintro ⟨front, cs', hne, h, hoccurs⟩
    obtain ⟨c', front, rfl⟩ := List.exists_cons_of_ne_nil hne
    obtain ⟨rfl, rfl⟩ := List.cons.inj h
    cases front with
    | nil => exact .inl hoccurs
    | cons c'' front => exact .inr ⟨_, _, List.cons_ne_nil c'' front, rfl, hoccurs⟩
  · rintro (h | ⟨front, cs', -, rfl, hoccurs⟩)
    · exact ⟨[c], cs, List.cons_ne_nil c [], rfl, h⟩
    · exact ⟨c :: front, cs', List.cons_ne_nil c front, rfl, hoccurs⟩

theorem lastIn_cons_iff {c : Char} :
    LastIn d (c :: cs) ↔ LastIn d cs ∨ ¬ Mentions cs ∧ Announces d cs := by
  constructor
  · rintro ⟨front, cs', hne, h, hd, hlater⟩
    obtain ⟨c', front, rfl⟩ := List.exists_cons_of_ne_nil hne
    obtain ⟨rfl, rfl⟩ := List.cons.inj h
    cases front with
    | nil =>
      refine .inr ⟨?_, hd⟩
      rintro ⟨front', cs'', hne', h', hoccurs⟩
      exact hlater (c :: front') cs'' (congrArg (c :: ·) h')
        (Nat.succ_lt_succ (List.length_pos_iff.2 hne')) hoccurs
    | cons c'' front =>
      refine .inl ⟨_, _, List.cons_ne_nil c'' front, rfl, hd, ?_⟩
      intro front' cs'' h' hlt
      exact hlater (c :: front') cs'' (congrArg (c :: ·) h') (Nat.succ_lt_succ hlt)
  · rintro (⟨front, cs', -, rfl, hd, hlater⟩ | ⟨hnot, hd⟩)
    · refine ⟨c :: front, cs', List.cons_ne_nil c front, rfl, hd, ?_⟩
      intro front' cs'' h' hlt
      cases front' with
      | nil => cases hlt
      | cons c' front' => exact hlater front' cs'' (List.cons.inj h').2 (Nat.lt_of_succ_lt_succ hlt)
    · refine ⟨[c], cs, List.cons_ne_nil c [], rfl, hd, ?_⟩
      intro front' cs'' h' hlt hoccurs
      cases front' with
      | nil => cases hlt
      | cons c' front' =>
        exact hnot ⟨front', cs'', List.length_pos_iff.1 (Nat.lt_of_succ_lt_succ hlt),
          (List.cons.inj h').2, hoccurs⟩

theorem announced?_cons (c : Char) (cs : List Char) :
    announced? (c :: cs) = (announced? cs).or ((announcement cs).map Prod.fst) := by
  rw [Option.or_eq_orElse]
  rfl

theorem announced?_eq_none_iff {line : List Char} : announced? line = none ↔ ¬ Mentions line := by
  induction line with
  | nil => exact iff_of_true rfl not_mentions_nil
  | cons c cs ih =>
    rw [announced?_cons, Option.or_eq_none_iff, ih, map_announcement_eq_none_iff, mentions_cons_iff,
      not_or, and_comm]

theorem announced?_eq_some_iff {line : List Char} : announced? line = some d ↔ LastIn d line := by
  induction line with
  | nil =>
    constructor
    · intro h
      cases h
    · rintro ⟨front, cs, hne, h, -⟩
      exact absurd (List.append_eq_nil_iff.1 h.symm).1 hne
  | cons c cs ih =>
    rw [announced?_cons, Option.or_eq_some_iff, ih, announced?_eq_none_iff,
      map_announcement_eq_some_iff, lastIn_cons_iff]

/-! ## Texts -/

theorem announcedIn?_eq_none_iff {s : String} :
    announcedIn? s = none ↔ ∀ line ∈ lines s, ¬ Mentions line := by
  rw [announcedIn?, List.findSome?_eq_none_iff]
  exact forall₂_congr fun line _ => announced?_eq_none_iff

theorem announcedIn?_eq_some_iff {s : String} : announcedIn? s = some d ↔ FirstIn d s := by
  rw [announcedIn?, List.findSome?_eq_some_iff]
  constructor
  · rintro ⟨before, line, after, h, hline, hbefore⟩
    exact ⟨before, line, after, h, fun l hl => announced?_eq_none_iff.1 (hbefore l hl),
      announced?_eq_some_iff.1 hline⟩
  · rintro ⟨before, line, after, h, hbefore, hline⟩
    exact ⟨before, line, after, h, announced?_eq_some_iff.2 hline,
      fun l hl => announced?_eq_none_iff.2 (hbefore l hl)⟩

/-- The digits that are read are those of the first line that announces a version. -/
theorem announcedIn?_or_eq_some_iff {stdout stderr : String} :
    (announcedIn? stdout <|> announcedIn? stderr) = some d ↔ Announced stdout stderr d := by
  change (announcedIn? stdout).orElse (fun _ => announcedIn? stderr) = some d ↔ _
  rw [← Option.or_eq_orElse, Option.or_eq_some_iff, announcedIn?_eq_some_iff,
    announcedIn?_eq_none_iff, announcedIn?_eq_some_iff]
  constructor
  · rintro (h | ⟨hnone, h⟩)
    · exact .onOutput h
    · exact .amongErrors hnone h
  · rintro (h | ⟨hnone, h⟩)
    · exact .inl h
    · exact .inr ⟨hnone, h⟩

end

end EchoMetrics.Prober
