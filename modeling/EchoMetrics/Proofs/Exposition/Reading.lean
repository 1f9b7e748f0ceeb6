import EchoMetrics.Exposition.Reader
import EchoMetrics.Proofs.Decimal.Form
import EchoMetrics.Proofs.Line.Scanning

/-! # The text form reads back

Label values may be any texts, since whatever could end a value or a line is escaped. Main
statement: the text form of families whose metric and label names are plain words is read back, line
by line, as what the families hold. -/

namespace EchoMetrics

namespace Exposition

open Text Text.Scanner Line

/-! ## Plain words -/

def wordChar (c : Char) : Bool := c.isAlphanum || c == '_'

/-- A nonempty text of letters, digits and underscores. -/
def Plain (s : String) : Prop := s.toList ≠ [] ∧ s.toList.all wordChar = true

instance (s : String) : Decidable (Plain s) := inferInstanceAs (Decidable (_ ∧ _))

namespace Plain

variable {s : String} {c : Char} {rest : List Char}

theorem wordChar (h : Plain s) (hc : c ∈ s.toList) : Exposition.wordChar c = true :=
  List.all_eq_true.1 h.2 c hc

/-- A word is free of every character that words do not have. -/
theorem ne (h : Plain s) (hc : c ∈ s.toList) {d : Char} (hd : Exposition.wordChar d = false) :
    c ≠ d := by
  rintro rfl
  rw [h.wordChar hc] at hd
  cases hd

/-- A run over a word ends where a character stops it. -/
theorem run_append (h : Plain s) {p : Char → Bool} (hp : ∀ c ∈ s.toList, p c = true)
    (hc : p c = false) : run p (s.toList ++ c :: rest) = some (s.toList, c :: rest) := by
  refine run_eq_some_iff.2 ⟨rfl, h.1, hp, ?_⟩
  rintro d ⟨⟩
  exact hc

theorem nameUpTo_append (h : Plain s) {stop : Char → Bool} (hs : ∀ c ∈ s.toList, stop c = false)
    (hc : stop c = true) :
    Reader.nameUpTo stop (s.toList ++ c :: rest) = some (s, c :: rest) := by
  refine map_eq_some_iff.2 ⟨s.toList, h.run_append ?_ ?_, String.ofList_toList⟩
  · intro d hd
    rw [hs d hd]
    rfl
  · rw [hc]
    rfl

end Plain

/-! ## Labels -/

namespace Reader

variable {rest : List Char} {l : String × String}

theorem label_append (h : Plain l.1) : label (writeLabel l ++ rest) = some (l, rest) := by
  have hrun : run (fun c => c != '=')
      (l.1.toList ++ '=' :: '"' :: (l.2.toList.flatMap escapeLabel ++ '"' :: rest)) =
        some (l.1.toList, '=' :: '"' :: (l.2.toList.flatMap escapeLabel ++ '"' :: rest)) := by
    refine h.run_append ?_ rfl
    intro c hc
    simpa using h.ne hc (d := '=') rfl
  have hlit : lit "=\"" ('=' :: '"' :: (l.2.toList.flatMap escapeLabel ++ '"' :: rest)) =
      some ((), l.2.toList.flatMap escapeLabel ++ '"' :: rest) := lit_append "=\"" _
  simp only [writeLabel, List.append_assoc, List.cons_append, List.nil_append]
  rw [label, bind_of_some hrun, bind_of_some hlit, bind_of_some (labelValue_append _ _),
    String.ofList_toList, String.ofList_toList]
  rfl

/-- Labels are read up to the brace if there may be as many as there are. -/
theorem labelsUpTo_append {ls : List (String × String)} (h : ∀ l ∈ ls, Plain l.1) (hne : ls ≠ [])
    {n : Nat} (hn : ls.length ≤ n) :
    labelsUpTo n (List.intercalate [','] (ls.map writeLabel) ++ '\x7d' :: rest) =
      some (ls, rest) := by
  induction ls generalizing n with
  | nil => exact absurd rfl hne
  | cons l ls ih =>
    obtain ⟨hl, hls⟩ := List.forall_mem_cons.1 h
    cases n with
    | zero => exact absurd hn (Nat.not_succ_le_zero _)
    | succ n =>
      cases ls with
      | nil =>
        rw [labelsUpTo, List.map_singleton, List.intercalate_singleton,
          bind_of_some (label_append hl)]
        refine orElse_eq_some_iff.2 (.inl ?_)
        change (lit "\x7d" >>= fun _ => pure [l]) _ = _
        rw [bind_of_some (lit_cons rfl)]
        rfl
      | cons l' ls =>
        rw [labelsUpTo, List.map_cons, List.map_cons, List.intercalate_cons_cons,
          List.append_assoc, List.append_assoc, bind_of_some (label_append hl)]
        refine orElse_eq_some_iff.2 (.inr ⟨?_, ?_⟩)
        · change (lit "\x7d" >>= fun _ => pure [l]) _ = none
          exact bind_of_none (lit_of_head_ne (by decide) (by simp))
        · change (lit "," >>= fun _ => (l :: ·) <$> labelsUpTo n) _ = _
          rw [List.singleton_append, bind_of_some (lit_cons rfl)]
          exact map_eq_some_iff.2
            ⟨l' :: ls, ih hls (List.cons_ne_nil _ _) (Nat.le_of_succ_le_succ hn), rfl⟩

theorem length_le_intercalate (ls : List (String × String)) :
    ls.length ≤ (List.intercalate [','] (ls.map writeLabel)).length + 1 := by
  induction ls with
  | nil => exact Nat.zero_le _
  | cons l ls ih =>
    have hpos : 0 < (writeLabel l).length := List.length_pos_iff.2 (by simp [writeLabel])
    cases ls with
    | nil => simp
    | cons l' ls =>
      rw [List.map_cons, List.map_cons, List.intercalate_cons_cons, ← List.map_cons]
      simp only [List.length_append, List.length_cons, List.length_nil] at *
      omega

theorem labels_append {ls : List (String × String)} (h : ∀ l ∈ ls, Plain l.1) :
    labels (writeLabels ls ++ ' ' :: rest) = some (ls, ' ' :: rest) := by
  cases ls with
  | nil => rfl
  | cons l ls =>
    simp only [writeLabels, List.cons_append, List.append_assoc, List.nil_append, labels]
    refine labelsUpTo_append h (List.cons_ne_nil _ _) ?_
    have hlen := length_le_intercalate (l :: ls)
    simp only [List.length_append, List.length_cons] at *
    omega

/-! ## Lines -/

theorem ofLine?_help {name : String} (h : Plain name) (text : String) :
    Entry.ofLine? ("# HELP ".toList ++ (name.toList ++ ' ' :: text.toList)) =
      some (.help name text) := by
  have hs : ∀ c ∈ name.toList, (c == ' ') = false := fun c hc => by simpa using h.ne hc rfl
  have hhelp : help ("# HELP ".toList ++ (name.toList ++ ' ' :: text.toList)) =
      some (.help name text, []) := by
    rw [help, bind_of_some (lit_append _ _), bind_of_some (h.nameUpTo_append hs rfl),
      bind_of_some (lit_cons rfl)]
    change some (Entry.help name (String.ofList text.toList), []) = _
    rw [String.ofList_toList]
  rw [Entry.ofLine?, orElse_eq_some_iff.2 (.inl hhelp)]
  rfl

theorem ofLine?_type {name : String} (h : Plain name) (kind : String) :
    Entry.ofLine? ("# TYPE ".toList ++ (name.toList ++ ' ' :: kind.toList)) =
      some (.type name kind) := by
  have hs : ∀ c ∈ name.toList, (c == ' ') = false := fun c hc => by simpa using h.ne hc rfl
  have htype : type ("# TYPE ".toList ++ (name.toList ++ ' ' :: kind.toList)) =
      some (.type name kind, []) := by
    rw [type, bind_of_some (lit_append _ _), bind_of_some (h.nameUpTo_append hs rfl),
      bind_of_some (lit_cons rfl)]
    change some (Entry.type name (String.ofList kind.toList), []) = _
    rw [String.ofList_toList]
  have hhelp : help ("# TYPE ".toList ++ (name.toList ++ ' ' :: kind.toList)) = none :=
    bind_of_none rfl
  rw [Entry.ofLine?, orElse_eq_some_iff.2 (.inr ⟨hhelp, orElse_eq_some_iff.2 (.inl htype)⟩)]
  rfl

/-- The line of a series is not taken for one of a heading, whose names begin with a mark. -/
theorem ofLine?_series {name : String} {ls : List (String × String)} (h : Plain name)
    (hls : ∀ l ∈ ls, Plain l.1) (value : String) :
    Entry.ofLine? (name.toList ++ (writeLabels ls ++ ' ' :: value.toList)) =
      some (.series name ls value) := by
  have hs : ∀ c ∈ name.toList, (c == ' ' || c == '\x7b') = false := by
    intro c hc
    simp [h.ne hc (d := ' ') rfl, h.ne hc (d := '\x7b') rfl]
  obtain ⟨c, cs, hhead⟩ := List.exists_cons_of_ne_nil h.1
  have hmark (s : String) (hs : s.toList.head? = some '#') {β : Type} {f : Unit → Scanner β} :
      (lit s >>= f) (name.toList ++ (writeLabels ls ++ ' ' :: value.toList)) = none := by
    refine bind_of_none (lit_of_head_ne ?_ ?_)
    · intro hnil
      rw [hnil] at hs
      cases hs
    · have hc : c ≠ '#' := h.ne (by rw [hhead]; exact List.mem_cons_self) rfl
      rw [hs, hhead]
      exact fun e => hc (Option.some.inj e)
  have hname : nameUpTo (fun c => c == ' ' || c == '\x7b')
      (name.toList ++ (writeLabels ls ++ ' ' :: value.toList)) =
        some (name, writeLabels ls ++ ' ' :: value.toList) := by
    cases ls with
    | nil => exact h.nameUpTo_append hs rfl
    | cons => exact h.nameUpTo_append hs rfl
  have hseries : series (name.toList ++ (writeLabels ls ++ ' ' :: value.toList)) =
      some (.series name ls value, []) := by
    rw [series, bind_of_some hname, bind_of_some (labels_append hls), bind_of_some (lit_cons rfl)]
    change some (Entry.series name ls (String.ofList value.toList), []) = _
    rw [String.ofList_toList]
  have hhelp : help (name.toList ++ (writeLabels ls ++ ' ' :: value.toList)) = none := hmark _ rfl
  have htype : type (name.toList ++ (writeLabels ls ++ ' ' :: value.toList)) = none := hmark _ rfl
  rw [Entry.ofLine?, orElse_eq_some_iff.2 (.inr ⟨hhelp, orElse_eq_some_iff.2
    (.inr ⟨htype, hseries⟩)⟩)]
  rfl

end Reader

/-! ## Texts of lines -/

/-- A text of whole lines that say these entries, in this order. -/
inductive Says : List Char → List Entry → Prop
  | nil : Says [] []
  | cons {line cs : List Char} {e : Entry} {es : List Entry} (hline : Without '\n' line)
      (he : Entry.ofLine? line = some e) (h : Says cs es) : Says (line ++ '\n' :: cs) (e :: es)

namespace Says

variable {cs cs' : List Char} {es es' : List Entry}

theorem append (h : Says cs es) (h' : Says cs' es') : Says (cs ++ cs') (es ++ es') := by
  induction h with
  | nil => exact h'
  | cons hline he _ ih =>
    rw [List.append_assoc]
    exact .cons hline he ih

theorem exists_pieces (h : Says cs es) :
    ∃ lines, pieces (· == '\n') cs = lines ++ [[]] ∧ lines.mapM Entry.ofLine? = some es := by
  induction h with
  | nil => exact ⟨[], rfl, rfl⟩
  | @cons line cs e es hline he _ ih =>
    obtain ⟨lines, hpieces, hlines⟩ := ih
    refine ⟨line :: lines, ?_, ?_⟩
    · rw [pieces_append_cons cs (by simpa [Without] using hline) rfl, hpieces]
      rfl
    · rw [List.mapM_cons, he, hlines]
      rfl

theorem read? {text : String} (h : Says text.toList es) : read? text = some es := by
  obtain ⟨lines, hpieces, hlines⟩ := h.exists_pieces
  rw [Exposition.read?, hpieces, List.getLast?_concat, if_pos rfl, List.dropLast_concat, hlines]

/-- Parts that are written one after the other are read one after the other. -/
theorem mapM {α : Type} {write : α → Except EncodingFault (List Char)} {say : α → List Entry}
    {as : List α} {parts : List (List Char)} (h : as.mapM write = .ok parts)
    (hsay : ∀ a ∈ as, ∀ part, write a = .ok part → Says part (say a)) :
    Says parts.flatten (as.flatMap say) := by
  induction as generalizing parts with
  | nil =>
    cases h
    exact .nil
  | cons a as ih =>
    obtain ⟨ha, has⟩ := List.forall_mem_cons.1 hsay
    rw [List.mapM_cons] at h
    cases hpart : write a with
    | error e => rw [hpart] at h; cases h
    | ok part =>
      cases hrest : as.mapM write with
      | error e => rw [hpart, hrest] at h; cases h
      | ok rest =>
        rw [hpart, hrest] at h
        cases h
        exact (ha part hpart).append (ih hrest has)

end Says

/-! ## Families -/

theorem writeValue_numeric (x : Float) : Decimal.Numeric (writeValue x).toList := by
  have hform : Decimal.Numeric (form x).infinity.toList ∧ Decimal.Numeric (form x).nan.toList := by
    rw [form]
    split <;> exact ⟨List.all_eq_true.1 rfl, List.all_eq_true.1 rfl⟩
  exact .writeFloat hform.1 hform.2 x

/-- Names that can be told from what is written around them. -/
structure Series.Readable (s : Series) : Prop where
  name : Plain s.name
  labels : ∀ l ∈ s.labels, Plain l.1

structure Family.Readable (f : Family) : Prop where
  name : Plain f.exposedName
  help : Without '\n' f.help.toList
  series : ∀ s ∈ f.series, s.Readable

theorem Plain.ne_newline {s : String} (h : Plain s) : Without '\n' s.toList :=
  fun _ hc => h.ne hc rfl

theorem escapeLabel_ne_newline (c : Char) : Without '\n' (escapeLabel c) := by
  unfold escapeLabel
  split
  · decide
  · decide
  · decide
  · rename_i h
    intro d hd
    rw [List.mem_singleton.1 hd]
    exact h

theorem writeLabel_ne_newline {l : String × String} (h : Plain l.1) :
    Without '\n' (writeLabel l) := by
  intro c hc
  simp only [writeLabel, List.mem_append, List.mem_cons, List.not_mem_nil, or_false] at hc
  rcases hc with (hc | rfl | rfl | hc) | rfl
  · exact h.ne_newline c hc
  · decide
  · decide
  · obtain ⟨d, -, hc⟩ := List.mem_flatMap.1 hc
    exact escapeLabel_ne_newline d c hc
  · decide

theorem intercalate_ne_newline {ls : List (String × String)} (h : ∀ l ∈ ls, Plain l.1) :
    Without '\n' (List.intercalate [','] (ls.map writeLabel)) := by
  induction ls with
  | nil => exact List.forall_mem_nil _
  | cons l ls ih =>
    obtain ⟨hl, hls⟩ := List.forall_mem_cons.1 h
    cases ls with
    | nil =>
      rw [List.map_singleton, List.intercalate_singleton]
      exact writeLabel_ne_newline hl
    | cons l' ls =>
      rw [List.map_cons, List.map_cons, List.intercalate_cons_cons]
      have hcomma : Without '\n' [','] := by decide
      exact List.forall_mem_append.2
        ⟨List.forall_mem_append.2 ⟨writeLabel_ne_newline hl, hcomma⟩, ih hls⟩

theorem writeLabels_ne_newline {ls : List (String × String)} (h : ∀ l ∈ ls, Plain l.1) :
    Without '\n' (writeLabels ls) := by
  cases ls with
  | nil => exact List.forall_mem_nil _
  | cons l ls =>
    intro c hc
    simp only [writeLabels, List.cons_append, List.mem_cons, List.mem_append, List.not_mem_nil,
      or_false] at hc
    rcases hc with rfl | hc | rfl
    · decide
    · exact intercalate_ne_newline h c hc
    · decide

theorem Value.eq_toFloat_of_float {v : Value} {x : Float} (h : v.float = .ok x) :
    x = v.toFloat := by
  cases v with
  | real y =>
    cases h
    rfl
  | count n =>
    rw [float] at h
    split at h
    · cases h
    · cases h
      rfl

theorem Series.Readable.says_line {s : Series} (h : s.Readable) {line : List Char}
    (hline : s.line = .ok line) : Says line [s.entry] := by
  rw [Series.line] at hline
  cases hx : s.value.float with
  | error => rw [hx] at hline; cases hline
  | ok x =>
    rw [hx, Value.eq_toFloat_of_float hx] at hline
    cases hline
    have hvalue : Without '\n' (writeValue s.value.toFloat).toList := by
      rintro c hc rfl
      cases writeValue_numeric _ _ hc
    have hcs : s.key ++ ' ' :: (writeValue s.value.toFloat).toList ++ ['\n'] =
        s.name.toList ++ (writeLabels s.labels ++ ' ' :: (writeValue s.value.toFloat).toList) ++
          '\n' :: [] := by
      simp [Series.key]
    change Says (s.key ++ ' ' :: (writeValue s.value.toFloat).toList ++ ['\n']) _
    rw [hcs]
    refine .cons ?_ (Reader.ofLine?_series h.name h.labels _) .nil
    simp only [Without, List.forall_mem_append, List.forall_mem_cons]
    exact ⟨h.name.ne_newline, writeLabels_ne_newline h.labels, by decide, hvalue⟩

theorem Family.heading_eq (f : Family) : f.heading =
    "# HELP ".toList ++ (f.exposedName.toList ++ ' ' :: f.help.toList) ++ '\n' ::
      ("# TYPE ".toList ++ (f.exposedName.toList ++ ' ' :: f.kind.type.toList) ++ '\n' :: []) := by
  simp [heading]

theorem Family.Readable.says_heading {f : Family} (h : f.Readable) :
    Says f.heading [.help f.exposedName f.help, .type f.exposedName f.kind.type] := by
  have hkind : Without '\n' f.kind.type.toList := by cases f.kind <;> decide
  rw [heading_eq]
  refine .cons ?_ (Reader.ofLine?_help h.name _) (.cons ?_ (Reader.ofLine?_type h.name _) .nil)
  · have hmark : Without '\n' "# HELP ".toList := by decide
    simp only [Without, List.forall_mem_append, List.forall_mem_cons]
    exact ⟨hmark, h.name.ne_newline, by decide, h.help⟩
  · have hmark : Without '\n' "# TYPE ".toList := by decide
    simp only [Without, List.forall_mem_append, List.forall_mem_cons]
    exact ⟨hmark, h.name.ne_newline, by decide, hkind⟩

theorem Family.Readable.says_text {f : Family} (h : f.Readable) {text : List Char}
    (htext : f.text = .ok text) : Says text f.entries := by
  rw [Family.text] at htext
  cases hlines : f.series.mapM Series.line with
  | error => rw [hlines] at htext; cases htext
  | ok lines =>
    rw [hlines] at htext
    cases htext
    have hseries := Says.mapM hlines fun s hs line hline => (h.series s hs).says_line hline
    rw [← List.map_eq_flatMap] at hseries
    exact h.says_heading.append hseries

/-! ## Main statement -/

/-- A text form is read back as what the families hold, in their order. -/
theorem read?_encode {families : List Family} (h : ∀ f ∈ families, f.Readable) {text : String}
    (htext : encode families = .ok text) :
    read? text = some (families.flatMap Family.entries) := by
  rw [encode] at htext
  cases hparts : families.mapM Family.text with
  | error => rw [hparts] at htext; cases htext
  | ok parts =>
    rw [hparts] at htext
    cases htext
    refine Says.read? ?_
    rw [String.toList_ofList]
    exact Says.mapM hparts fun f hf part hpart => (h f hf).says_text hpart

end Exposition

end EchoMetrics
