import Mathlib.Data.List.Nodup
import EchoMetrics.Exposition.Catalogue
import EchoMetrics.Proofs.Exposition.Reading
import EchoMetrics.Proofs.Registry.Keyed

/-! # The series of a snapshot

The families of targets list their series target by target. Main statements, for targets that are
kept under their own names: every family of a snapshot is well formed; whatever the address is, no
two series are about the same; and the series about a target are those of its own state. -/

namespace EchoMetrics

namespace Exposition

variable {targets : List TargetState} {kind : Kind} {name help : String}

/-! ## Members -/

section

variable {s : Series}

theorem mem_perTarget_iff {value : TargetState → Option Value} :
    s ∈ (perTarget kind name help value targets).series ↔
      ∃ t ∈ targets, ∃ x ∈ value t,
        s = { name := name ++ kind.suffix, labels := hostLabels t, value := x } := by
  simp only [perTarget, List.mem_filterMap, Option.map_eq_some_iff]
  refine exists_congr fun t => and_congr_right fun _ => exists_congr fun x => ?_
  exact and_congr_right fun _ => eq_comm

theorem mem_durations_iff {tally : TargetState → Tally} :
    s ∈ (durations name help tally targets).series ↔
      ∃ t ∈ targets, t.current.isSome ∧ (tally t).count ≠ 0 ∧
        (s = { name := name ++ "_bucket"
               labels := [("addr", t.addr.getD ""), ("le", "+Inf"), ("target", t.name)]
               value := .count (tally t).count } ∨
          s = { name := name ++ "_count", labels := hostLabels t
                value := .count (tally t).count } ∨
          s = { name := name ++ "_sum", labels := hostLabels t
                value := .real (tally t).seconds }) := by
  simp only [durations, List.mem_flatMap]
  refine exists_congr fun t => and_congr_right fun _ => ?_
  cases hcurrent : t.current with
  | none => simp
  | some c =>
    by_cases hcount : (tally t).count = 0
    · simp [hcount]
    · simp [hcount]

theorem mem_roundTrips_iff :
    s ∈ (roundTrips targets).series ↔
      ∃ t ∈ targets, ∃ c ∈ t.current, ∃ rtt ∈ c.rtt,
        ∃ stat ∈ [("min", rtt.min), ("avg", rtt.avg), ("max", rtt.max)],
          s = { name := "fping_target_rtt_seconds"
                labels := [("addr", t.addr.getD ""), ("stat", stat.1), ("target", t.name)]
                value := .real (stat.2 / 1000.0) } := by
  simp only [roundTrips, List.mem_flatMap]
  refine exists_congr fun t => and_congr_right fun _ => ?_
  cases hcurrent : t.current with
  | none => simp
  | some c =>
    cases hrtt : c.rtt with
    | none => simp [hrtt]
    | some rtt => simp [hrtt]

theorem mem_errors_iff :
    s ∈ (errors targets).series ↔
      ∃ t ∈ targets, ∃ e ∈ t.errors.toList,
        s = { name := "fping_errors_total", labels := [("target", t.name), ("type", e.1)]
              value := .count e.2 } := by
  simp only [errors, List.mem_flatMap, List.mem_map, eq_comm]
  rfl

end

/-! ## Target by target -/

theorem lookup_filter_addr (labels : List (String × String)) :
    (labels.filter fun l => l.1 != "addr").lookup "target" = labels.lookup "target" := by
  induction labels with
  | nil => rfl
  | cons l ls ih =>
    by_cases hl : l.1 = "addr"
    · rw [List.filter_cons_of_neg (by simp [hl]), ih, List.lookup_cons, hl]
      rfl
    · rw [List.filter_cons_of_pos (by simp [hl]), List.lookup_cons, List.lookup_cons, ih]

theorem Series.target?_eq_of_about_eq {s s' : Series} (h : s.about = s'.about) :
    s.target? = s'.target? := by
  rw [target?, target?, ← lookup_filter_addr s.labels, ← lookup_filter_addr s'.labels]
  exact congrArg (fun a => a.2.lookup "target") h

/-- Series that are listed target by target, each with the name of its target. -/
structure ByTarget (F : List TargetState → Family) : Prop where
  append (targets targets' : List TargetState) :
    (F (targets ++ targets')).series = (F targets).series ++ (F targets').series
  target {t : TargetState} {s : Series} (h : s ∈ (F [t]).series) : s.target? = some t.name
  nodup (t : TargetState) : ((F [t]).series.map Series.about).Nodup

namespace ByTarget

variable {F : List TargetState → Family}

theorem nil (h : ByTarget F) : (F []).series = [] := by
  have hlen := congrArg List.length (h.append [] [])
  rw [List.nil_append, List.length_append] at hlen
  exact List.eq_nil_of_length_eq_zero (by omega)

theorem cons (h : ByTarget F) (t : TargetState) (ts : List TargetState) :
    (F (t :: ts)).series = (F [t]).series ++ (F ts).series := h.append [t] ts

theorem series_eq (h : ByTarget F) (targets : List TargetState) :
    (F targets).series = targets.flatMap fun t => (F [t]).series := by
  induction targets with
  | nil => exact h.nil
  | cons t ts ih => rw [h.cons, ih, List.flatMap_cons]

/-- Of different targets no two series are about the same. -/
theorem nodup_about (h : ByTarget F) (ht : (targets.map (·.name)).Nodup) :
    ((F targets).series.map Series.about).Nodup := by
  rw [h.series_eq, List.map_flatMap, List.nodup_flatMap]
  refine ⟨fun p _ => h.nodup p, (List.pairwise_map.1 ht).imp ?_⟩
  intro p p' hne a ha ha'
  obtain ⟨s, hs, rfl⟩ := List.mem_map.1 ha
  obtain ⟨s', hs', habout⟩ := List.mem_map.1 ha'
  have htarget := Series.target?_eq_of_about_eq habout
  rw [h.target hs, h.target hs'] at htarget
  exact hne (Option.some.inj htarget).symm

/-- The series about a target are listed with it. -/
theorem filter_target (h : ByTarget F) (name : String) :
    (F targets).series.filter (fun s => s.target? = some name) =
      (F (targets.filter fun t => t.name = name)).series := by
  induction targets with
  | nil => rw [List.filter_nil, h.nil, List.filter_nil]
  | cons t ts ih =>
    rw [h.cons, List.filter_append, ih]
    by_cases ht : t.name = name
    · have hall : ∀ s ∈ (F [t]).series, decide (s.target? = some name) = true := by
        intro s hs
        rw [h.target hs, ht]
        exact decide_eq_true rfl
      rw [List.filter_eq_self.2 hall, List.filter_cons_of_pos (by simpa using ht), ← h.cons]
    · have hnone : ∀ s ∈ (F [t]).series, ¬ decide (s.target? = some name) = true := by
        intro s hs
        rw [h.target hs, decide_eq_true_eq, Option.some.injEq]
        exact ht
      rw [List.filter_eq_nil_iff.2 hnone, List.filter_cons_of_neg (by simpa using ht),
        List.nil_append]

end ByTarget

theorem byTarget_perTarget (kind : Kind) (name help : String)
    (value : TargetState → Option Value) : ByTarget (perTarget kind name help value) := by
  constructor
  · intro targets targets'
    exact List.filterMap_append
  · intro t s hs
    obtain ⟨t, ht, x, -, rfl⟩ := mem_perTarget_iff.1 hs
    obtain rfl := List.mem_singleton.1 ht
    rfl
  · intro t
    simp only [perTarget, List.filterMap_cons, List.filterMap_nil]
    cases value t with
    | none => exact List.nodup_nil
    | some x => exact List.nodup_singleton _

theorem byTarget_durations (name help : String) (tally : TargetState → Tally) :
    ByTarget (durations name help tally) := by
  constructor
  · intro targets targets'
    exact List.flatMap_append
  · intro t s hs
    obtain ⟨t, ht, -, -, hs'⟩ := mem_durations_iff.1 hs
    obtain rfl := List.mem_singleton.1 ht
    rcases hs' with rfl | rfl | rfl <;> rfl
  · intro t
    simp only [durations, List.flatMap_cons, List.flatMap_nil, List.append_nil]
    split
    · exact List.nodup_nil
    · simp [Series.about]

theorem byTarget_roundTrips : ByTarget roundTrips := by
  constructor
  · intro targets targets'
    exact List.flatMap_append
  · intro t s hs
    obtain ⟨t, ht, c, -, rtt, -, stat, -, rfl⟩ := mem_roundTrips_iff.1 hs
    obtain rfl := List.mem_singleton.1 ht
    rfl
  · intro t
    simp only [roundTrips, List.flatMap_cons, List.flatMap_nil, List.append_nil]
    split
    · exact List.nodup_nil
    · simp [Series.about]

theorem byTarget_errors : ByTarget errors := by
  constructor
  · intro targets targets'
    exact List.flatMap_append
  · intro t s hs
    obtain ⟨t, ht, e, -, rfl⟩ := mem_errors_iff.1 hs
    obtain rfl := List.mem_singleton.1 ht
    rfl
  · intro t
    simp only [errors, List.flatMap_cons, List.flatMap_nil, List.append_nil, List.map_map]
    have hkinds : (t.errors.toList.map Prod.fst).Nodup := by
      rw [Std.ExtTreeMap.map_fst_toList_eq_keys]
      exact Std.ExtTreeMap.nodup_keys
    refine (List.pairwise_map.1 hkinds).map _ ?_
    intro e e' hne habout
    simp only [Function.comp, Series.about] at habout
    simp at habout
    exact hne habout

/-! ## Well-formed families -/

/-- The names of the labels that series have. -/
def labelNames : List (List String) :=
  [[], ["addr", "target"], ["addr", "le", "target"], ["addr", "stat", "target"], ["target", "type"],
    ["state"], ["version"]]

/-- A family that can be told from others, with series that can be told from each other. -/
structure Family.WellFormed (f : Family) : Prop where
  name : Plain f.exposedName
  help : Line.Without '\n' f.help.toList
  name_mem : ∀ s ∈ f.series, s.name ∈ sampleNames f.exposedName f.kind.type
  labels : ∀ s ∈ f.series, s.labels.map Prod.fst ∈ labelNames
  nodup : (f.series.map Series.about).Nodup

theorem Plain.append {s s' : String} (h : Plain s)
    (h' : s'.toList.all Exposition.wordChar = true) : Plain (s ++ s') := by
  refine ⟨?_, ?_⟩
  · rw [String.toList_append]
    exact List.append_ne_nil_of_left_ne_nil h.1 _
  · rw [String.toList_append, List.all_append, h.2, h']
    rfl

theorem plain_of_mem_sampleNames {family type metric : String} (h : Plain family)
    (hm : metric ∈ sampleNames family type) : Plain metric := by
  rw [sampleNames] at hm
  split at hm
  · simp only [List.mem_cons, List.not_mem_nil, or_false] at hm
    rcases hm with rfl | rfl | rfl <;> exact h.append rfl
  · rwa [List.mem_singleton.1 hm]

theorem Family.WellFormed.readable {f : Family} (h : f.WellFormed) : f.Readable := by
  refine ⟨h.name, h.help, ?_⟩
  intro s hs
  refine ⟨plain_of_mem_sampleNames h.name (h.name_mem s hs), ?_⟩
  have hnames : ∀ names ∈ labelNames, ∀ n ∈ names, Plain n := by decide
  intro l hl
  exact hnames _ (h.labels s hs) l.1 (List.mem_map_of_mem hl)

/-- Labels are listed by their names, and no two of a series have the same name. -/
theorem Family.WellFormed.sorted {f : Family} (h : f.WellFormed) {s : Series} (hs : s ∈ f.series) :
    s.labels.Pairwise fun l l' => l.1 < l'.1 := by
  have hnames : ∀ names ∈ labelNames, names.Pairwise (· < ·) := by decide
  exact List.pairwise_map.1 (hnames _ (h.labels s hs))

theorem sampleNames_of_ne {kind : Kind} (h : kind ≠ .histogram) (family : String) :
    sampleNames family kind.type = [family] := by
  cases kind with
  | histogram => exact absurd rfl h
  | _ => rfl

/-- What a family without buckets is headed by: a plain name and a single line. -/
def Headline (kind : Kind) (name help : String) : Prop :=
  kind ≠ .histogram ∧ Plain (name ++ kind.suffix) ∧ Line.Without '\n' help.toList

instance (kind : Kind) (name help : String) : Decidable (Headline kind name help) :=
  inferInstanceAs (Decidable (_ ∧ _))

theorem perTarget_wellFormed {value : TargetState → Option Value} (h : Headline kind name help)
    (ht : (targets.map (·.name)).Nodup) : (perTarget kind name help value targets).WellFormed := by
  obtain ⟨hk, hname, hhelp⟩ := h
  refine ⟨hname, hhelp, ?_, ?_, (byTarget_perTarget ..).nodup_about ht⟩
  · intro s hs
    obtain ⟨t, -, x, -, rfl⟩ := mem_perTarget_iff.1 hs
    rw [perTarget, sampleNames_of_ne hk]
    exact List.mem_singleton_self _
  · intro s hs
    obtain ⟨t, -, x, -, rfl⟩ := mem_perTarget_iff.1 hs
    exact .tail _ (.head _)

theorem durations_wellFormed {tally : TargetState → Tally} (hname : Plain name)
    (hhelp : Line.Without '\n' help.toList) (ht : (targets.map (·.name)).Nodup) :
    (durations name help tally targets).WellFormed := by
  have hexposed : (durations name help tally targets).exposedName = name := String.append_empty
  refine ⟨by rwa [hexposed], hhelp, ?_, ?_, (byTarget_durations ..).nodup_about ht⟩
  · intro s hs
    rw [hexposed]
    obtain ⟨t, -, -, -, rfl | rfl | rfl⟩ := mem_durations_iff.1 hs
    · exact .head _
    · exact .tail _ (.head _)
    · exact .tail _ (.tail _ (.head _))
  · intro s hs
    obtain ⟨t, -, -, -, rfl | rfl | rfl⟩ := mem_durations_iff.1 hs
    · exact .tail _ (.tail _ (.head _))
    · exact .tail _ (.head _)
    · exact .tail _ (.head _)

theorem roundTrips_wellFormed (ht : (targets.map (·.name)).Nodup) :
    (roundTrips targets).WellFormed := by
  refine ⟨(by decide : Plain (roundTrips []).exposedName),
    (by decide : Line.Without '\n' (roundTrips []).help.toList), ?_, ?_,
    byTarget_roundTrips.nodup_about ht⟩
  · intro s hs
    obtain ⟨t, -, c, -, rtt, -, stat, -, rfl⟩ := mem_roundTrips_iff.1 hs
    exact .head _
  · intro s hs
    obtain ⟨t, -, c, -, rtt, -, stat, -, rfl⟩ := mem_roundTrips_iff.1 hs
    exact .tail _ (.tail _ (.tail _ (.head _)))

theorem errors_wellFormed (ht : (targets.map (·.name)).Nodup) : (errors targets).WellFormed := by
  refine ⟨(by decide : Plain (errors []).exposedName),
    (by decide : Line.Without '\n' (errors []).help.toList), ?_, ?_, byTarget_errors.nodup_about ht⟩
  · intro s hs
    obtain ⟨t, -, e, -, rfl⟩ := mem_errors_iff.1 hs
    exact .head _
  · intro s hs
    obtain ⟨t, -, e, -, rfl⟩ := mem_errors_iff.1 hs
    exact .tail _ (.tail _ (.tail _ (.tail _ (.head _))))

theorem single_wellFormed {value : Value} (h : Headline kind name help) :
    (single kind name help value).WellFormed := by
  obtain ⟨hk, hname, hhelp⟩ := h
  refine ⟨hname, hhelp, ?_, ?_, List.nodup_singleton _⟩
  · intro s hs
    obtain rfl := List.mem_singleton.1 hs
    rw [single, sampleNames_of_ne hk]
    exact List.mem_singleton_self _
  · intro s hs
    obtain rfl := List.mem_singleton.1 hs
    exact .head _

theorem targetFamilies_wellFormed (ht : (targets.map (·.name)).Nodup) :
    ∀ f ∈ targetFamilies targets, f.WellFormed := by
  simp only [targetFamilies, List.forall_mem_cons]
  refine ⟨?_, ?_, ?_, roundTrips_wellFormed ht, ?_, ?_, ?_, ?_, ?_, errors_wellFormed ht,
    List.forall_mem_nil _⟩
  · exact perTarget_wellFormed (by decide) ht
  · exact perTarget_wellFormed (by decide) ht
  · exact perTarget_wellFormed (by decide) ht
  · exact perTarget_wellFormed (by decide) ht
  · exact perTarget_wellFormed (by decide) ht
  · exact perTarget_wellFormed (by decide) ht
  · exact durations_wellFormed (by decide) (by decide) ht
  · exact durations_wellFormed (by decide) (by decide) ht

theorem exporterFamilies_wellFormed (x : Snapshot) : ∀ f ∈ exporterFamilies x, f.WellFormed := by
  simp only [exporterFamilies, List.forall_mem_append, List.forall_mem_cons]
  refine ⟨⟨?_, ?_, ?_, ?_, ?_, ?_, List.forall_mem_nil _⟩, ?_⟩
  · exact single_wellFormed (by decide)
  · exact single_wellFormed (by decide)
  · exact single_wellFormed (by decide)
  · exact single_wellFormed (by decide)
  · exact single_wellFormed (by decide)
  · refine ⟨(by decide : Plain ("fping_exporter_prober_state" ++ "")),
      (by decide : Line.Without '\n'
        "Lifecycle state of the fping process (1 for the current state)".toList), ?_, ?_, ?_⟩
    · intro s hs
      obtain ⟨p, -, rfl⟩ := List.mem_map.1 hs
      exact .head _
    · intro s hs
      obtain ⟨p, -, rfl⟩ := List.mem_map.1 hs
      exact .tail _ (.tail _ (.tail _ (.tail _ (.tail _ (.head _)))))
    · rw [List.map_map]
      exact (by decide : (Phase.all.map fun p => ("fping_exporter_prober_state",
        [("state", p.name)])).Nodup)
  · intro f hf
    obtain ⟨v, -, rfl⟩ := List.mem_map.1 hf
    refine ⟨(by decide : Plain ("fping_exporter_prober" ++ "_info")),
      (by decide : Line.Without '\n' "Version of the fping binary in use".toList), ?_, ?_,
      List.nodup_singleton _⟩
    · intro s hs
      obtain rfl := List.mem_singleton.1 hs
      exact .head _
    · intro s hs
      obtain rfl := List.mem_singleton.1 hs
      exact .tail _ (.tail _ (.tail _ (.tail _ (.tail _ (.tail _ (.head _))))))

theorem mem_targetList_iff {x : Snapshot} {p : String × TargetState} :
    p ∈ x.targetList ↔ x.targets[p.1]? = some p.2 :=
  Std.ExtTreeMap.mem_toList_iff_getElem?_eq_some

theorem nodup_targetList (x : Snapshot) : (x.targetList.map Prod.fst).Nodup := by
  rw [Snapshot.targetList, Std.ExtTreeMap.map_fst_toList_eq_keys]
  exact Std.ExtTreeMap.nodup_keys

/-- In a keyed registry the states carry the names that they are kept under. -/
theorem map_name_states {x : Snapshot} (hx : x.Keyed) :
    x.states.map (·.name) = x.targetList.map Prod.fst := by
  rw [Snapshot.states, List.map_map]
  exact List.map_congr_left fun p hp => hx p.1 p.2 (mem_targetList_iff.1 hp)

theorem families_wellFormed {x : Snapshot} (hx : x.Keyed) : ∀ f ∈ families x, f.WellFormed := by
  have hnodup := nodup_targetList x
  rw [← map_name_states hx] at hnodup
  exact List.forall_mem_append.2
    ⟨targetFamilies_wellFormed hnodup, exporterFamilies_wellFormed x⟩

/-! ## Different series -/

theorem headings_eq (x : Snapshot) :
    (families x).map (fun f => (f.exposedName, f.kind.type)) =
      headings ++ x.version.toList.map fun _ => versionHeading := by
  rw [families, exporterFamilies, List.map_append, List.map_append, List.map_map]
  rfl

/-- No two families have the same name. -/
theorem nodup_exposedName (x : Snapshot) : ((families x).map Family.exposedName).Nodup := by
  have hnames : (families x).map Family.exposedName =
      ((families x).map fun f => (f.exposedName, f.kind.type)).map Prod.fst := by
    rw [List.map_map]
    rfl
  rw [hnames, headings_eq]
  cases x.version with
  | none => decide
  | some v =>
    change ((headings ++ [versionHeading]).map Prod.fst).Nodup
    decide

/-- No two families may have series of the same name. -/
theorem nodup_sampleNames (x : Snapshot) :
    ((families x).flatMap fun f => sampleNames f.exposedName f.kind.type).Nodup := by
  have hnames : (families x).flatMap (fun f => sampleNames f.exposedName f.kind.type) =
      ((families x).map fun f => (f.exposedName, f.kind.type)).flatMap
        fun h => sampleNames h.1 h.2 := by
    rw [List.flatMap_map]
  rw [hnames, headings_eq]
  cases x.version with
  | none => decide
  | some v =>
    change ((headings ++ [versionHeading]).flatMap fun h => sampleNames h.1 h.2).Nodup
    decide

theorem nodup_about {x : Snapshot} (hx : x.Keyed) :
    (((families x).flatMap (·.series)).map Series.about).Nodup := by
  rw [List.map_flatMap, List.nodup_flatMap]
  obtain ⟨-, hdisjoint⟩ := List.nodup_flatMap.1 (nodup_sampleNames x)
  refine ⟨fun f hf => (families_wellFormed hx f hf).nodup, ?_⟩
  refine hdisjoint.imp_of_mem ?_
  intro f f' hf hf' hnames a ha ha'
  obtain ⟨s, hs, rfl⟩ := List.mem_map.1 ha
  obtain ⟨s', hs', habout⟩ := List.mem_map.1 ha'
  have hname : s'.name = s.name := congrArg Prod.fst habout
  refine hnames ((families_wellFormed hx f hf).name_mem s hs) ?_
  rw [← hname]
  exact (families_wellFormed hx f' hf').name_mem s' hs'

/-! ## Series about a target -/

theorem filter_targetFamilies (name : String) :
    ((targetFamilies targets).flatMap (·.series)).filter (fun s => s.target? = some name) =
      (targetFamilies (targets.filter fun t => t.name = name)).flatMap (·.series) := by
  simp only [targetFamilies, List.flatMap_cons, List.flatMap_nil, List.filter_append,
    List.filter_nil, (byTarget_perTarget ..).filter_target, (byTarget_durations ..).filter_target,
    byTarget_roundTrips.filter_target, byTarget_errors.filter_target]

theorem target?_exporterFamilies (x : Snapshot) :
    ∀ s ∈ (exporterFamilies x).flatMap (·.series), s.target? = none := by
  rw [exporterFamilies, List.flatMap_append, List.forall_mem_append]
  constructor
  · intro s hs
    simp only [List.flatMap_cons, List.flatMap_nil, List.append_nil, List.mem_append,
      single, List.mem_singleton, List.mem_map] at hs
    rcases hs with rfl | rfl | rfl | rfl | rfl | ⟨p, -, rfl⟩ <;> rfl
  · intro s hs
    obtain ⟨f, hf, hs⟩ := List.mem_flatMap.1 hs
    obtain ⟨v, -, rfl⟩ := List.mem_map.1 hf
    obtain rfl := List.mem_singleton.1 hs
    rfl

theorem filter_states {x : Snapshot} (hx : x.Keyed) (name : String) :
    x.states.filter (fun t => t.name = name) = x.targets[name]?.toList := by
  have hmem (t : TargetState) :
      t ∈ x.states.filter (fun t => t.name = name) ↔ x.targets[name]? = some t := by
    rw [List.mem_filter, Snapshot.mem_states_iff, decide_eq_true_eq]
    constructor
    · rintro ⟨⟨other, ht⟩, hname⟩
      rwa [← hname, hx other t ht]
    · exact fun ht => ⟨⟨name, ht⟩, hx name t ht⟩
  cases h : x.targets[name]? with
  | none =>
    refine List.eq_nil_iff_forall_not_mem.2 ?_
    intro t ht
    cases h.symm.trans ((hmem t).1 ht)
  | some t =>
    have hnodup : x.states.Nodup := by
      refine List.Nodup.of_map (·.name) ?_
      rw [map_name_states hx]
      exact nodup_targetList x
    have hperm : (x.states.filter fun t => t.name = name).Perm [t] := by
      refine (List.perm_ext_iff_of_nodup (hnodup.filter _) (List.nodup_singleton t)).2 ?_
      intro t'
      rw [hmem, h, List.mem_singleton, Option.some.injEq, eq_comm]
    exact hperm.eq_singleton

/-- The series about a target are those of its own state. -/
theorem filter_families {x : Snapshot} (hx : x.Keyed) (name : String) :
    ((families x).flatMap (·.series)).filter (fun s => s.target? = some name) =
      (targetFamilies x.targets[name]?.toList).flatMap (·.series) := by
  have hnone : ∀ s ∈ (exporterFamilies x).flatMap (·.series),
      ¬ decide (s.target? = some name) = true := by
    intro s hs
    rw [target?_exporterFamilies x s hs]
    exact Bool.false_ne_true
  rw [families, List.flatMap_append, List.filter_append, filter_targetFamilies,
    filter_states hx, List.filter_eq_nil_iff.2 hnone, List.append_nil]

end Exposition

end EchoMetrics
