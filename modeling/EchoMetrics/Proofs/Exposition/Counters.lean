import EchoMetrics.Proofs.Exposition.Catalogue
import EchoMetrics.Proofs.Registry.Growth

/-! # Counters

Main statement: what a counter or a histogram shows once is shown ever after, by a single series and
with no smaller value, and a target with gauges keeps them. -/

namespace EchoMetrics.Exposition

open Binary

variable {x x' : Snapshot} {kind : Kind} {name help : String} {s s' : Series}

/-! ## One series for each subject -/

theorem target?_eq_of_subject_eq (h : s.subject = s'.subject) : s.target? = s'.target? :=
  congrArg (·.2.1) h

theorem subject_eq_of_name_eq {t t' : TargetState} {metric : String} {kind? : Option String}
    (h : t'.name = t.name) : (metric, some t'.name, kind?) = (metric, some t.name, kind?) := by
  rw [h]

/-- Series that keep count of the same differ in their address at most. -/
def Family.ToldApart (f : Family) : Prop :=
  ∀ s ∈ f.series, ∀ s' ∈ f.series, s.subject = s'.subject → s.about = s'.about

theorem perTarget_toldApart (value : TargetState → Option Value)
    (targets : List TargetState) :
    (perTarget kind name help value targets).ToldApart := by
  intro s hs s' hs' h
  obtain ⟨t, -, v, -, rfl⟩ := mem_perTarget_iff.1 hs
  obtain ⟨t', -, v', -, rfl⟩ := mem_perTarget_iff.1 hs'
  have htarget : t.name = t'.name := Option.some.inj (target?_eq_of_subject_eq h)
  change (_, [("target", t.name)]) = (_, [("target", t'.name)])
  rw [htarget]

theorem durations_toldApart (tally : TargetState → Tally)
    (targets : List TargetState) :
    (durations name help tally targets).ToldApart := by
  intro s hs s' hs' h
  obtain ⟨t, -, -, -, hform⟩ := mem_durations_iff.1 hs
  obtain ⟨t', -, -, -, hform'⟩ := mem_durations_iff.1 hs'
  have ht : s.target? = some t.name := by
    rcases hform with rfl | rfl | rfl <;> rfl
  have ht' : s'.target? = some t'.name := by
    rcases hform' with rfl | rfl | rfl <;> rfl
  have htarget : t.name = t'.name := by
    rw [← Option.some_inj, ← ht, target?_eq_of_subject_eq h, ht']
  have hname : s.name = s'.name := congrArg Prod.fst h
  rcases hform with rfl | rfl | rfl <;> rcases hform' with rfl | rfl | rfl <;>
    simp_all [Series.about, hostLabels]

theorem errors_toldApart (targets : List TargetState) :
    (errors targets).ToldApart := by
  intro s hs s' hs' h
  obtain ⟨t, -, e, -, rfl⟩ := mem_errors_iff.1 hs
  obtain ⟨t', -, e', -, rfl⟩ := mem_errors_iff.1 hs'
  have htarget : t.name = t'.name := Option.some.inj (target?_eq_of_subject_eq h)
  have hkind : e.1 = e'.1 := Option.some.inj (congrArg (·.2.2) h)
  change (_, [("target", t.name), ("type", e.1)]) = (_, [("target", t'.name), ("type", e'.1)])
  rw [htarget, hkind]

theorem single_toldApart (value : Value) : (single kind name help value).ToldApart := by
  intro s hs s' hs' _
  rw [List.mem_singleton.1 hs, List.mem_singleton.1 hs']

/-- A metric belongs to a single family. -/
theorem mem_series_of_name_eq (hx : x.Keyed) {f : Family} (hf : f ∈ families x)
    (hs : s ∈ f.series) (hs' : s' ∈ allSeries x) (hname : s'.name = s.name) : s' ∈ f.series := by
  obtain ⟨f', hf', hs'⟩ := List.mem_flatMap.1 hs'
  have hmem := (families_wellFormed hx f hf).name_mem s hs
  have hmem' := (families_wellFormed hx f' hf').name_mem s' hs'
  rw [hname] at hmem'
  obtain ⟨-, hdisjoint⟩ := List.nodup_flatMap.1 (nodup_sampleNames x)
  have : Std.Symm (Function.onFun List.Disjoint
      fun f : Family => sampleNames f.exposedName f.kind.type) := ⟨fun _ _ h => h.symm⟩
  by_cases hne : f' = f
  · rwa [← hne]
  · exact absurd hmem (hdisjoint.forall hf' hf hne hmem')

/-- Of a family that tells its series apart there is only one series for each subject. -/
theorem seriesOn_subject (hx : x.Keyed) {f : Family} (hf : f ∈ families x)
    (hapart : f.ToldApart) (hs : s ∈ f.series) : seriesOn x s.subject = [s] := by
  have hmem : s ∈ allSeries x := List.mem_flatMap.2 ⟨f, hf, hs⟩
  have honly : ∀ s' ∈ allSeries x, decide (s'.subject = s.subject) = (s' == s) := by
    intro s' hs'
    rw [beq_eq_decide, decide_eq_decide]
    refine ⟨?_, fun h => by rw [h]⟩
    intro h
    have hs'' := mem_series_of_name_eq hx hf hs hs' (congrArg Prod.fst h)
    exact List.inj_on_of_nodup_map (nodup_about hx) hs' hmem (hapart s' hs'' s hs h)
  have hnodup : (allSeries x).Nodup := (nodup_about hx).of_map
  rw [seriesOn, List.filter_congr honly, List.filter_beq, List.count_eq_one_of_mem hnodup hmem,
    List.replicate_one]

theorem exists_seriesOn (hx : x.Keyed) {f : Family} (hf : f ∈ families x)
    (hapart : f.ToldApart) (hs' : s' ∈ f.series) (hsubject : s'.subject = s.subject)
    (hle : s.value.toFloat ≤ s'.value.toFloat) :
    ∃ s', seriesOn x s.subject = [s'] ∧ s.value.toFloat ≤ s'.value.toFloat := by
  refine ⟨s', ?_, hle⟩
  rw [← hsubject]
  exact seriesOn_subject hx hf hapart hs'

/-! ## Series that are kept -/

/-- Each series of a family has a single one in the snapshot that keeps count of the same, and its
value is not less. -/
def Family.Kept (f : Family) (x : Snapshot) : Prop :=
  ∀ s ∈ f.series, ∃ s', seriesOn x s.subject = [s'] ∧ s.value.toFloat ≤ s'.value.toFloat

theorem single_kept (hx : x.Keyed) {v v' : Value} (hf : single kind name help v' ∈ families x)
    (hle : v.toFloat ≤ v'.toFloat) : (single kind name help v).Kept x := by
  intro s hs
  obtain rfl := List.mem_singleton.1 hs
  exact exists_seriesOn hx hf (single_toldApart v') (List.mem_singleton_self _) rfl hle

section

variable (h : x.toRegistry.Grows x'.toRegistry)

include h

theorem exists_grown {t : TargetState} (ht : t ∈ x.states) : ∃ t' ∈ x'.states, t.Grows t' := by
  obtain ⟨name, ht⟩ := Snapshot.mem_states_iff.1 ht
  obtain ⟨t', ht', hgrows⟩ := h.targets name t ht
  exact ⟨t', Snapshot.mem_states_iff.2 ⟨name, ht'⟩, hgrows⟩

variable (hx' : x'.Keyed)

include hx'

/-- A total that grows with what is known of a target is kept. -/
theorem total_kept {total : TargetState → Nat} (htotal : ∀ t t', t.Grows t' → total t ≤ total t')
    (hf : perTarget kind name help (sampled fun t => some (.count (total t))) x'.states ∈
      families x') :
    (perTarget kind name help (sampled fun t => some (.count (total t))) x.states).Kept x' := by
  intro s hs
  obtain ⟨t, ht, v, hv, rfl⟩ := mem_perTarget_iff.1 hs
  obtain ⟨t', ht', hgrows⟩ := exists_grown h ht
  obtain ⟨c, hc, hv⟩ := Option.bind_eq_some_iff.1 hv
  obtain rfl := Option.some.inj hv
  obtain ⟨c', hc'⟩ := Option.isSome_iff_exists.1 (hgrows.current (Option.isSome_of_mem hc))
  have hv' : Value.count (total t') ∈ sampled (fun t => some (.count (total t))) t' := by
    rw [sampled, hc']
    rfl
  exact exists_seriesOn hx' hf (perTarget_toldApart _ _)
    (mem_perTarget_iff.2 ⟨t', ht', _, hv', rfl⟩) (subject_eq_of_name_eq hgrows.name)
    (floatOfNat_le (htotal t t' hgrows))

theorem durations_kept {tally : TargetState → Tally}
    (htally : ∀ t t' : TargetState, t.Grows t' → (tally t).Grows (tally t'))
    (hf : durations name help tally x'.states ∈ families x') :
    (durations name help tally x.states).Kept x' := by
  intro s hs
  obtain ⟨t, ht, hcurrent, hcount, hform⟩ := mem_durations_iff.1 hs
  obtain ⟨t', ht', hgrows⟩ := exists_grown h ht
  have hle := htally t t' hgrows
  have hcount' : (tally t').count ≠ 0 :=
    Nat.pos_iff_ne_zero.1 ((Nat.pos_iff_ne_zero.2 hcount).trans_le hle.count)
  have hapart : (durations name help tally x'.states).ToldApart := durations_toldApart _ _
  have hcurrent' := hgrows.current hcurrent
  rcases hform with rfl | rfl | rfl
  · exact exists_seriesOn hx' hf hapart
      (mem_durations_iff.2 ⟨t', ht', hcurrent', hcount', .inl rfl⟩)
      (subject_eq_of_name_eq hgrows.name) (floatOfNat_le hle.count)
  · exact exists_seriesOn hx' hf hapart
      (mem_durations_iff.2 ⟨t', ht', hcurrent', hcount', .inr (.inl rfl)⟩)
      (subject_eq_of_name_eq hgrows.name)
      (floatOfNat_le hle.count)
  · exact exists_seriesOn hx' hf hapart
      (mem_durations_iff.2 ⟨t', ht', hcurrent', hcount', .inr (.inr rfl)⟩)
      (subject_eq_of_name_eq hgrows.name) hle.seconds

theorem errors_kept (hf : errors x'.states ∈ families x') : (errors x.states).Kept x' := by
  intro s hs
  obtain ⟨t, ht, e, he, rfl⟩ := mem_errors_iff.1 hs
  obtain ⟨t', ht', hgrows⟩ := exists_grown h ht
  rw [Std.ExtTreeMap.mem_toList_iff_getElem?_eq_some] at he
  obtain ⟨n', hn', hle⟩ := hgrows.errors e.1 e.2 he
  rw [← Std.ExtTreeMap.mem_toList_iff_getElem?_eq_some] at hn'
  exact exists_seriesOn hx' hf (errors_toldApart _)
    (mem_errors_iff.2 ⟨t', ht', (e.1, n'), hn', rfl⟩) (subject_eq_of_name_eq hgrows.name)
    (floatOfNat_le hle)

/-- Everything that counters and histograms show is kept. -/
theorem kept_of_accumulates {f : Family} (hf : f ∈ families x) (hk : f.kind.accumulates) :
    f.Kept x' := by
  have hmem {f' : Family} (i : Nat) (h' : (families x')[i]? = some f') : f' ∈ families x' :=
    List.mem_of_getElem? h'
  rcases List.mem_append.1 hf with hf | hf
  · simp only [targetFamilies, List.mem_cons, List.not_mem_nil, or_false] at hf
    rcases hf with rfl | rfl | rfl | rfl | rfl | rfl | rfl | rfl | rfl | rfl
    · cases hk
    · cases hk
    · cases hk
    · cases hk
    · exact total_kept h hx' (fun _ _ hgrows => hgrows.transmittedTotal) (hmem 4 rfl)
    · exact total_kept h hx' (fun _ _ hgrows => hgrows.receivedTotal) (hmem 5 rfl)
    · cases hk
    · exact durations_kept h hx' (fun _ _ hgrows => hgrows.roundTrip) (hmem 7 rfl)
    · exact durations_kept h hx' (fun _ _ hgrows => hgrows.variation) (hmem 8 rfl)
    · exact errors_kept h hx' (hmem 9 rfl)
  · simp only [exporterFamilies, List.mem_append, List.mem_cons, List.not_mem_nil, or_false,
      List.mem_map] at hf
    rcases hf with (rfl | rfl | rfl | rfl | rfl | rfl) | ⟨v, -, rfl⟩
    · exact single_kept hx' (hmem 10 rfl) (floatOfNat_le h.samplesIngested)
    · exact single_kept hx' (hmem 11 rfl) (floatOfNat_le h.parseErrors)
    · exact single_kept hx' (hmem 12 rfl) (floatOfNat_le h.restarts)
    all_goals cases hk

end

/-! ## Gauges -/

theorem isSome_current_of_sampled {value : TargetState → Option Value} {t : TargetState} {v : Value}
    (hv : v ∈ sampled value t) : t.current.isSome ∧ v ∈ value t := by
  obtain ⟨c, hc, hv⟩ := Option.bind_eq_some_iff.1 hv
  exact ⟨Option.isSome_of_mem hc, hv⟩

/-- A target with a gauge has a sample, and the gauge either is one of the sample or shows the last
number in the sequence. -/
theorem gauge_cases {f : Family} (hf : f ∈ families x) (hk : f.kind = .gauge) (hs : s ∈ f.series)
    {target : String} (ht : s.target? = some target) :
    ∃ t ∈ x.states, t.name = target ∧ t.current.isSome ∧
      (s.name ∈ summaryNames ∨ s.name = "fping_target_rtt_seconds" ∨
        s.name = "fping_last_observed_sequence" ∧ t.lastSeq.isSome) := by
  have hgauge {name help : String} {value : TargetState → Option Value}
      (hs : s ∈ (perTarget .gauge name help value x.states).series) :
      ∃ t ∈ x.states, t.name = target ∧ (value t).isSome ∧ s.name = name := by
    obtain ⟨t, hmem, v, hv, rfl⟩ := mem_perTarget_iff.1 hs
    exact ⟨t, hmem, Option.some.inj ht, Option.isSome_of_mem hv, String.append_empty⟩
  rcases List.mem_append.1 hf with hf | hf
  · simp only [targetFamilies, List.mem_cons, List.not_mem_nil, or_false] at hf
    rcases hf with rfl | rfl | rfl | rfl | rfl | rfl | rfl | rfl | rfl | rfl
    · obtain ⟨t, hmem, ht, hv, hname⟩ := hgauge hs
      exact ⟨t, hmem, ht, Option.isSome_map.symm.trans hv, .inl (hname ▸ .head _)⟩
    · obtain ⟨t, hmem, ht, hv, hname⟩ := hgauge hs
      exact ⟨t, hmem, ht, Option.isSome_map.symm.trans hv, .inl (hname ▸ .tail _ (.head _))⟩
    · obtain ⟨t, hmem, ht, hv, hname⟩ := hgauge hs
      exact ⟨t, hmem, ht, Option.isSome_map.symm.trans hv,
        .inl (hname ▸ .tail _ (.tail _ (.head _)))⟩
    · obtain ⟨t, hmem, c, hc, rtt, -, stat, -, rfl⟩ := mem_roundTrips_iff.1 hs
      exact ⟨t, hmem, Option.some.inj ht, Option.isSome_of_mem hc, .inr (.inl rfl)⟩
    · cases hk
    · cases hk
    · obtain ⟨t, hmem, ht, hv, hname⟩ := hgauge hs
      obtain ⟨v, hv⟩ := Option.isSome_iff_exists.1 hv
      obtain ⟨hc, hv⟩ := isSome_current_of_sampled hv
      exact ⟨t, hmem, ht, hc,
        .inr (.inr ⟨hname, Option.isSome_map.symm.trans (Option.isSome_of_mem hv)⟩)⟩
    all_goals cases hk
  · rw [target?_exporterFamilies x s (List.mem_flatMap.2 ⟨f, hf, hs⟩)] at ht
    cases ht

theorem exists_seriesOn_perTarget (hx : x.Keyed) {value : TargetState → Option Value}
    (hf : perTarget kind name help value x.states ∈ families x) {t : TargetState}
    (ht : t ∈ x.states) (hv : (value t).isSome) :
    ∃ s, seriesOn x (name ++ kind.suffix, some t.name, none) = [s] := by
  obtain ⟨v, hv⟩ := Option.isSome_iff_exists.1 hv
  have hmem : { name := name ++ kind.suffix, labels := hostLabels t, value := v } ∈
      (perTarget kind name help value x.states).series :=
    mem_perTarget_iff.2 ⟨t, ht, v, hv, rfl⟩
  exact ⟨_, seriesOn_subject hx hf (perTarget_toldApart value _) hmem⟩

/-- A target with a sample has the gauges of a summary. -/
theorem exists_seriesOn_summary (hx : x.Keyed) {metric : String} {t : TargetState}
    (ht : t ∈ x.states) (hc : t.current.isSome) (hm : metric ∈ summaryNames) :
    ∃ s, seriesOn x (metric, some t.name, none) = [s] := by
  have hmem {f : Family} (i : Nat) (h : (families x)[i]? = some f) : f ∈ families x :=
    List.mem_of_getElem? h
  have hmap (f : Sample → Value) : (t.current.map f).isSome := Option.isSome_map.trans hc
  simp only [summaryNames, List.mem_cons, List.not_mem_nil, or_false] at hm
  rcases hm with rfl | rfl | rfl
  · exact exists_seriesOn_perTarget hx (hmem 0 rfl) ht (hmap _)
  · exact exists_seriesOn_perTarget hx (hmem 1 rfl) ht (hmap _)
  · exact exists_seriesOn_perTarget hx (hmem 2 rfl) ht (hmap _)

/-- A target with a gauge keeps the gauges of summaries, and the gauge unless it is a time. -/
theorem gauges_kept (h : x.toRegistry.Grows x'.toRegistry) (hx' : x'.Keyed) {f : Family}
    (hf : f ∈ families x) (hk : f.kind = .gauge) (hs : s ∈ f.series) {target : String}
    (ht : s.target? = some target) {metric : String} (hm : metric ∈ s.name :: summaryNames)
    (hrtt : metric ≠ "fping_target_rtt_seconds") :
    ∃ s', seriesOn x' (metric, some target, none) = [s'] := by
  obtain ⟨t, hmem, rfl, hc, hname⟩ := gauge_cases hf hk hs ht
  obtain ⟨t', ht', hgrows⟩ := exists_grown h hmem
  have hc' := hgrows.current hc
  rw [← hgrows.name]
  rcases List.mem_cons.1 hm with rfl | hm
  · rcases hname with hm | hm | ⟨hm, hseq⟩
    · exact exists_seriesOn_summary hx' ht' hc' hm
    · exact absurd hm hrtt
    · have hv : (sampled (fun t => t.lastSeq.map .count) t').isSome := by
        obtain ⟨c, hc'⟩ := Option.isSome_iff_exists.1 hc'
        rw [sampled, hc', Option.bind_some, Option.isSome_map]
        exact hgrows.lastSeq hseq
      rw [hm]
      exact exists_seriesOn_perTarget hx' (List.mem_of_getElem? (i := 6) rfl) ht' hv
  · exact exists_seriesOn_summary hx' ht' hc' hm

/-! ## Main statement -/

/-- Of two expositions of what is known after lines and records of the supervisor, the later one
has, for each series of a counter or a histogram in the earlier one, a single series with the same
metric, target and kind of errors, whatever the address is, and its value is not less. Each target
with gauges keeps the gauges of summaries, and its other gauges but for the times of round trips. -/
theorem counters_never_fall (before later : List Feed) (now now' : Float) {text text' : String}
    (h : render ((({} : Registry).feedAll before).snapshot now) = .ok text)
    (h' : render ((({} : Registry).feedAll (before ++ later)).snapshot now') = .ok text') :
    let x := (({} : Registry).feedAll before).snapshot now
    let x' := (({} : Registry).feedAll (before ++ later)).snapshot now'
    read? text = some ((families x).flatMap Family.entries) ∧
    read? text' = some ((families x').flatMap Family.entries) ∧
    (∀ f ∈ families x, f.kind.accumulates → ∀ s ∈ f.series,
      ∃ s', seriesOn x' s.subject = [s'] ∧ s.value.toFloat ≤ s'.value.toFloat) ∧
    (∀ f ∈ families x, f.kind = .gauge → ∀ s ∈ f.series, ∀ target, s.target? = some target →
      ∀ metric ∈ s.name :: summaryNames, metric ≠ "fping_target_rtt_seconds" →
        ∃ s', seriesOn x' (metric, some target, none) = [s']) := by
  intro x x'
  have hgrows : x.toRegistry.Grows x'.toRegistry := Registry.grows_feedAll before later
  have hx : x.Keyed := Registry.keyed_feedAll before
  have hx' : x'.Keyed := Registry.keyed_feedAll (before ++ later)
  refine ⟨read?_render hx h, read?_render hx' h', ?_, ?_⟩
  · intro f hf hk
    exact kept_of_accumulates hgrows hx' hf hk
  · intro f hf hk s hs target ht metric hm hrtt
    exact gauges_kept hgrows hx' hf hk hs ht hm hrtt

/-- The requests to a target whose address changes between two summaries. -/
theorem counters_never_fall_readdressed :
    let before : List Feed := [.start 0.5, .line 1.0 "dns (::1) : xmt/rcv/%loss = 1/1/0%"]
    let later : List Feed := [.restart 1.5, .line 2.0 "dns (::2) : xmt/rcv/%loss = 2/1/50%"]
    let x' := (({} : Registry).feedAll (before ++ later)).snapshot 2.5
    ∃ text text', render ((({} : Registry).feedAll before).snapshot 1.0) = .ok text ∧
      render x' = .ok text' ∧
      (∃ s', seriesOn x' ("fping_icmp_request_total", some "dns", none) = [s'] ∧
        floatOfNat 1 ≤ s'.value.toFloat) ∧
      (∃ s', seriesOn x' ("fping_target_loss_ratio", some "dns", none) = [s']) := by
  intro before later x'
  have hok : (render ((({} : Registry).feedAll before).snapshot 1.0)).isOk = true := by
    decide +kernel
  have hok' : (render x').isOk = true := by decide +kernel
  cases htext : render ((({} : Registry).feedAll before).snapshot 1.0) with
  | error fault => rw [htext] at hok; cases hok
  | ok text =>
    cases htext' : render x' with
    | error fault => rw [htext'] at hok'; cases hok'
    | ok text' =>
      obtain ⟨-, -, hcounters, hgauges⟩ := counters_never_fall before later 1.0 2.5 htext htext'
      have hrequests (x : Snapshot) : perTarget .counter "fping_icmp_request"
          "ICMP ECHO REQUEST sent, summed over fping interval summaries"
          (sampled fun t => some (.count t.transmittedTotal)) x.states ∈ families x :=
        List.mem_of_getElem? (i := 4) rfl
      have hloss (x : Snapshot) : perTarget .gauge "fping_target_loss_ratio"
          "Packet loss ratio (0-1) of the latest interval summary for this target"
          (fun t => t.current.map fun s => .real s.loss) x.states ∈ families x :=
        List.mem_of_getElem? (i := 2) rfl
      obtain ⟨s₁, h₁⟩ := hcounters _ (hrequests _) rfl
        { name := "fping_icmp_request_total"
          labels := [("addr", "::1"), ("target", "dns")], value := .count 1 } (by decide +kernel)
      obtain ⟨s₂, h₂⟩ := hgauges _ (hloss _) rfl
        { name := "fping_target_loss_ratio"
          labels := [("addr", "::1"), ("target", "dns")], value := .real 0.0 } (by decide +kernel)
        "dns" rfl "fping_target_loss_ratio" (.head _) (by decide)
      exact ⟨text, text', rfl, rfl, ⟨s₁, h₁⟩, ⟨s₂, h₂⟩⟩

end EchoMetrics.Exposition
