import EchoMetrics.Proofs.Settings.Command
import EchoMetrics.Proofs.Settings.Precedence

/-! # Targets from the environment

One variable names all targets. Between them stand commas, and blanks may stand around each of them
or make up an item of their own. Main statement: where no other variable is set, the settings are
the default ones with the targets that the variable lists; and whatever is set, the targets of
accepted settings are those that the variable lists. -/

namespace EchoMetrics

theorem Text.pieces_eq_splitOnP (p : Char → Bool) (cs : List Char) :
    pieces p cs = cs.splitOnP p := by
  induction cs with
  | nil => rfl
  | cons c cs ih =>
    rw [pieces, List.splitOnP_cons_eq_if_modifyHead, ih]
    split
    · rfl
    · cases h : cs.splitOnP p with
      | nil => exact absurd h (List.splitOnP_ne_nil p cs)
      | cons piece more => rfl

namespace Settings

/-! ## Listed targets -/

/-- The items that list these targets: each of them is a target with blanks around it, or blank. -/
inductive Listed : List String → List (List Char) → Prop
  | nil : Listed [] []
  | blank {ts : List String} {items : List (List Char)} {item : List Char}
      (hblank : ∀ c ∈ item, Text.isBlank c = true) (h : Listed ts items) :
      Listed ts (item :: items)
  | target {ts : List String} {items : List (List Char)} {front back : List Char} (t : String)
      (hfront : ∀ c ∈ front, Text.isBlank c = true) (hback : ∀ c ∈ back, Text.isBlank c = true)
      (h : Listed ts items) : Listed (t :: ts) ((front ++ (t.toList ++ back)) :: items)

/-- The items with commas in between. -/
def joined (items : List (List Char)) : String := String.ofList (List.intercalate [','] items)

/-- The target that an item is, unless it is blank. -/
def targetOf? (item : List Char) : Option String :=
  if (Text.trimBy Text.isBlank item).isEmpty then none
  else some (String.ofList (Text.trimBy Text.isBlank item))

variable {ts : List String} {items : List (List Char)}

theorem targetList_eq (text : String) :
    targetList text = (text.toList.splitOn ',').filterMap targetOf? := by
  rw [targetList, Text.pieces_eq_splitOnP, List.filterMap_map]
  rfl

theorem targetOf?_of_blank {item : List Char} (h : ∀ c ∈ item, Text.isBlank c = true) :
    targetOf? item = none := by
  rw [targetOf?, Text.trimBy_of_forall h]
  rfl

theorem targetOf?_of_isPlain {t : String} (h : IsPlain t) {front back : List Char}
    (hfront : ∀ c ∈ front, Text.isBlank c = true) (hback : ∀ c ∈ back, Text.isBlank c = true) :
    targetOf? (front ++ (t.toList ++ back)) = some t := by
  have hne : t.toList ≠ [] := by
    rw [Ne, String.toList_eq_nil_iff]
    exact h.ne_empty
  rw [targetOf?, Text.trimBy_append_append hfront hback hne h.not_isBlank,
    if_neg (by simpa using hne), String.ofList_toList]

theorem Listed.filterMap_eq (h : Listed ts items) (hts : ∀ t ∈ ts, IsPlain t) :
    items.filterMap targetOf? = ts := by
  induction h with
  | nil => rfl
  | blank hblank _ ih => rw [List.filterMap_cons_none (targetOf?_of_blank hblank), ih hts]
  | target t hfront hback _ ih =>
    obtain ⟨ht, hts⟩ := List.forall_mem_cons.1 hts
    rw [List.filterMap_cons_some (targetOf?_of_isPlain ht hfront hback), ih hts]

/-- Blanks hold no comma, so only the targets could. -/
theorem Listed.notMem_comma (h : Listed ts items) (hts : ∀ t ∈ ts, ',' ∉ t.toList) :
    ∀ item ∈ items, ',' ∉ item := by
  have hblank {cs : List Char} (h : ∀ c ∈ cs, Text.isBlank c = true) : ',' ∉ cs :=
    fun hc => absurd (h ',' hc) (by decide)
  induction h with
  | nil => nofun
  | blank hb _ ih => exact List.forall_mem_cons.2 ⟨hblank hb, ih hts⟩
  | target t hfront hback _ ih =>
    obtain ⟨ht, hts⟩ := List.forall_mem_cons.1 hts
    refine List.forall_mem_cons.2 ⟨?_, ih hts⟩
    rw [List.mem_append, List.mem_append]
    rintro (hc | hc | hc)
    · exact hblank hfront hc
    · exact ht hc
    · exact hblank hback hc

/-- A target is part of an item. -/
theorem Listed.notMem_of_mem (h : Listed ts items) {c : Char} (hc : ∀ item ∈ items, c ∉ item)
    {t : String} (ht : t ∈ ts) : c ∉ t.toList := by
  induction h with
  | nil => cases ht
  | blank _ _ ih => exact ih (List.forall_mem_cons.1 hc).2 ht
  | target t' _ _ _ ih =>
    obtain ⟨hitem, hc⟩ := List.forall_mem_cons.1 hc
    rcases List.mem_cons.1 ht with rfl | ht
    · intro hmem
      exact hitem (List.mem_append_right _ (List.mem_append_left _ hmem))
    · exact ih hc ht

theorem Listed.targetList_joined (h : Listed ts items) (hts : ∀ t ∈ ts, IsPlain t)
    (hcomma : ∀ t ∈ ts, ',' ∉ t.toList) : targetList (joined items) = ts := by
  have hitems := h.notMem_comma hcomma
  have hfound := h.filterMap_eq hts
  rw [targetList_eq, joined, String.toList_ofList]
  cases h with
  | nil => rfl
  | blank | target =>
    rw [List.splitOn_intercalate ',' hitems (List.cons_ne_nil _ _), hfound]

/-- Every list of items lists the targets that are found in them. -/
theorem listed_filterMap (items : List (List Char)) : Listed (items.filterMap targetOf?) items := by
  induction items with
  | nil => exact .nil
  | cons item items ih =>
    obtain ⟨front, back, hfront, hback, hitem⟩ := Text.exists_append_trimBy_append Text.isBlank item
    by_cases hnil : Text.trimBy Text.isBlank item = []
    · have hblank : ∀ c ∈ item, Text.isBlank c = true := by
        rw [hitem, hnil, List.nil_append]
        intro c hc
        exact (List.mem_append.1 hc).elim (hfront c) (hback c)
      rw [List.filterMap_cons_none (targetOf?_of_blank hblank)]
      exact .blank hblank ih
    · have hsome : targetOf? item = some (String.ofList (Text.trimBy Text.isBlank item)) :=
        if_neg (by simpa using hnil)
      rw [List.filterMap_cons_some hsome]
      have htarget := Listed.target (String.ofList (Text.trimBy Text.isBlank item)) hfront hback ih
      rwa [String.toList_ofList, ← hitem] at htarget

theorem exists_listed_targetList (text : String) :
    ∃ items, joined items = text ∧ (∀ item ∈ items, ',' ∉ item) ∧
      Listed (targetList text) items := by
  refine ⟨text.toList.splitOn ',', ?_, ?_, ?_⟩
  · rw [joined, List.intercalate_splitOn, String.ofList_toList]
  · intro item hitem hcomma
    have hpiece : item ∈ Text.pieces (· == ',') text.toList := by
      rwa [Text.pieces_eq_splitOnP]
    exact absurd (Text.not_of_mem_pieces hpiece hcomma) (by decide)
  · rw [targetList_eq]
    exact listed_filterMap _

/-! ## Settings of an environment -/

variable {env : Environment} {s : Settings}

theorem targetFault?_of_isPlain {t : String} (h : IsPlain t) : targetFault? t = none := by
  have hword : ¬ (t = "" || t.toList.any Text.isBlank) = true := by
    rw [Bool.or_eq_true, decide_eq_true_iff, List.any_eq_true]
    rintro (he | ⟨c, hc, hb⟩)
    · exact h.ne_empty he
    · exact absurd (h.not_isBlank c hc) (ne_false_of_eq_true hb)
  rw [targetFault?, if_neg hword]
  exact if_neg h.not_isFlag

theorem recordOfEnvironment_of_apart (h : ∀ p ∈ fieldVariables, env.lookup p.1 = none) :
    recordOfEnvironment env =
      [("targets", .list ((targetList ((env.lookup "FPING_TARGETS").getD "")).map .text))] := by
  rw [recordOfEnvironment, List.filterMap_eq_nil_iff.2, List.nil_append]
  intro p hp
  simp only [h p hp]

theorem ofRecord_targets (hts : ∀ t ∈ ts, IsPlain t) :
    ofRecord [("targets", .list (ts.map .text))] = .ok { targets := ts } := by
  have htexts : Record.texts [("targets", .list (ts.map .text))] "targets" checkTargets =
      .valid ts := by
    rw [Record.texts_of_lookup rfl,
      checkTargets_of_targetFault? fun t ht => targetFault?_of_isPlain (hts t ht)]
    rfl
  have hfields : fields [("targets", .list (ts.map .text))] = .valid { targets := ts } := by
    rw [fields, htexts]
    rfl
  have hbackoff : checkBackoff { targets := ts } = .ok { targets := ts } :=
    if_neg (show ¬ (30.0 : Float) < 1.0 by decide +kernel)
  rw [ofRecord, hfields, Checked.andThen, hbackoff]
  rfl

/-- The targets of accepted settings are those of the variable. -/
theorem targets_of_ofEnvironment (h : ofEnvironment env = .ok s) :
    s.targets = targetList ((env.lookup "FPING_TARGETS").getD "") := by
  have htexts := (reads_of_ofRecord h).1.targets
  rw [texts_eq, Checked.ofCheck_eq_valid_iff, mapError_eq_ok_iff, checkTargets] at htexts
  split at htexts
  · cases htexts
  · exact (Except.ok.inj htexts).symm

/-- Targets that are listed in the variable are the targets of the settings, and if nothing else is
set the settings have no fault. The targets of accepted settings are listed in the variable, and
each of them can stand in a list. -/
theorem ofEnvironment_listed (env : Environment) :
    (∀ ts items, Listed ts items → (∀ t ∈ ts, IsPlain t ∧ ',' ∉ t.toList) →
        env.lookup "FPING_TARGETS" = some (joined items) →
        (∀ p ∈ fieldVariables, env.lookup p.1 = none) →
        ofEnvironment env = .ok { targets := ts }) ∧
      ∀ s, ofEnvironment env = .ok s →
        ∃ items, joined items = (env.lookup "FPING_TARGETS").getD "" ∧
          (∀ item ∈ items, ',' ∉ item) ∧ Listed s.targets items ∧
          ∀ t ∈ s.targets, IsPlain t ∧ ',' ∉ t.toList := by
  constructor
  · intro ts items hlisted hts hset hapart
    have hplain : ∀ t ∈ ts, IsPlain t := fun t ht => (hts t ht).1
    have hlist := hlisted.targetList_joined hplain fun t ht => (hts t ht).2
    rw [ofEnvironment, recordOfEnvironment_of_apart hapart, hset, Option.getD_some, hlist,
      ofRecord_targets hplain]
  · intro s hs
    obtain ⟨items, hjoined, hcomma, hlisted⟩ :=
      exists_listed_targetList ((env.lookup "FPING_TARGETS").getD "")
    rw [← targets_of_ofEnvironment hs] at hlisted
    refine ⟨items, hjoined, hcomma, hlisted, ?_⟩
    intro t ht
    exact ⟨isPlain_of_targetFault? ((valid_of_ofRecord hs).targets t ht),
      hlisted.notMem_of_mem hcomma ht⟩

theorem ofEnvironment_listed_padded :
    ofEnvironment [("PATH", "/bin"), ("FPING_TARGETS", " dns ,,\ta-b\u001f, ")] =
      .ok { targets := ["dns", "a-b"] } ∧
    ∃ items, joined items = " dns ,,\ta-b\u001f, " ∧ (∀ item ∈ items, ',' ∉ item) ∧
      Listed ["dns", "a-b"] items := by
  have hblank {cs : List Char} (h : cs.all Text.isBlank = true) :
      ∀ c ∈ cs, Text.isBlank c = true := List.all_eq_true.1 h
  have hlisted : Listed ["dns", "a-b"]
      [[' '] ++ ("dns".toList ++ [' ']), [], ['\t'] ++ ("a-b".toList ++ ['\x1f']), [' ']] :=
    .target "dns" (hblank rfl) (hblank rfl) <| .blank (hblank rfl) <|
      .target "a-b" (hblank rfl) (hblank rfl) <| .blank (hblank rfl) .nil
  have hplain : ∀ t ∈ ["dns", "a-b"], IsPlain t ∧ ',' ∉ t.toList := by
    refine List.forall_mem_cons.2 ⟨?_, List.forall_mem_cons.2 ⟨?_, nofun⟩⟩
    · exact ⟨isPlain_of_targetFault? rfl, by decide⟩
    · exact ⟨isPlain_of_targetFault? rfl, by decide⟩
  have hload := (ofEnvironment_listed [("PATH", "/bin"),
    ("FPING_TARGETS", " dns ,,\ta-b\u001f, ")]).1 _ _ hlisted hplain rfl (by decide)
  obtain ⟨items, hjoined, hcomma, hitems, -⟩ := (ofEnvironment_listed _).2 _ hload
  exact ⟨hload, items, hjoined, hcomma, hitems⟩

end Settings

end EchoMetrics
