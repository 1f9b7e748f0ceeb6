import EchoMetrics.Proofs.Exposition.Limit
import EchoMetrics.Proofs.Exposition.Series

/-! # The exposition reads back

Main statement: whatever the names of targets, their addresses, the kinds of errors and the version
are, the exposition of a snapshot is read back as its series, each of them once and behind the
heading of its family. -/

namespace EchoMetrics

/-! ## Targets of a history -/

/-- There are no sequence number and no durations without a sample. -/
structure TargetState.Settled (t : TargetState) : Prop where
  sequence (h : t.lastSeq.isSome) : t.current.isSome
  durations {family : String} {tally : Tally} (h : (family, tally) ∈ t.histograms)
    (hc : tally.count ≠ 0) : t.current.isSome

namespace History

variable (ws : History) (name : String)

theorem isSome_current_of_replies (h : (ws.replies name).length ≠ 0) :
    (ws.state name).current.isSome := by
  have hprobes : (ws.probes name).length ≠ 0 := by
    intro h0
    rw [replies, List.eq_nil_of_length_eq_zero h0] at h
    exact h rfl
  obtain ⟨s, hs⟩ := List.exists_mem_of_length_pos (Nat.pos_of_ne_zero hprobes)
  exact isSome_current_state (List.mem_of_mem_filter hs)

theorem settled_state : (ws.state name).Settled := by
  constructor
  · intro h
    obtain ⟨n, hn⟩ := Option.isSome_iff_exists.1 h
    obtain ⟨s, hs, -⟩ := exists_probe_of_lastSeq hn
    exact isSome_current_state hs
  · intro family tally h hc
    refine isSome_current_of_replies ws name ?_
    simp only [TargetState.histograms, List.mem_cons, List.not_mem_nil, or_false] at h
    rcases h with ⟨-, rfl⟩ | ⟨-, rfl⟩
    · exact hc
    · rw [count_variation_state] at hc
      exact fun h0 => hc (by rw [show (ws.state name).roundTrip.count = 0 from h0])

end History

namespace Exposition

variable {targets : List TargetState} {metric : String}
  {labels : List (String × String)}

/-! ## Series of targets -/

theorem isSome_of_mem_map {α β : Type} {f : α → β} {o : Option α} {b : β} (h : b ∈ o.map f) :
    o.isSome := by
  obtain ⟨a, ha, -⟩ := Option.mem_map.1 h
  exact Option.isSome_of_mem ha

theorem exposes_of_mem_targetFamilies {f : Family} {s : Series} (hf : f ∈ targetFamilies targets)
    (hs : s ∈ f.series) : ∃ t ∈ targets, t.Exposes t.name s.name s.labels := by
  simp only [targetFamilies, List.mem_cons, List.not_mem_nil, or_false] at hf
  rcases hf with rfl | rfl | rfl | rfl | rfl | rfl | rfl | rfl | rfl | rfl
  · obtain ⟨t, ht, x, hx, rfl⟩ := mem_perTarget_iff.1 hs
    exact ⟨t, ht, .sampled (isSome_of_mem_map hx) (.head _)⟩
  · obtain ⟨t, ht, x, hx, rfl⟩ := mem_perTarget_iff.1 hs
    exact ⟨t, ht, .sampled (isSome_of_mem_map hx) (.tail _ (.head _))⟩
  · obtain ⟨t, ht, x, hx, rfl⟩ := mem_perTarget_iff.1 hs
    exact ⟨t, ht, .sampled (isSome_of_mem_map hx) (.tail _ (.tail _ (.head _)))⟩
  · obtain ⟨t, ht, c, hc, rtt, hrtt, stat, hstat, rfl⟩ := mem_roundTrips_iff.1 hs
    exact ⟨t, ht, .roundTrip hc (Option.isSome_of_mem hrtt) (List.mem_map_of_mem hstat)⟩
  · obtain ⟨t, ht, x, hx, rfl⟩ := mem_perTarget_iff.1 hs
    exact ⟨t, ht, .sampled (mem_sampled_iff.1 hx).1 (.tail _ (.tail _ (.tail _ (.head _))))⟩
  · obtain ⟨t, ht, x, hx, rfl⟩ := mem_perTarget_iff.1 hs
    exact ⟨t, ht, .sampled (mem_sampled_iff.1 hx).1
      (.tail _ (.tail _ (.tail _ (.tail _ (.head _)))))⟩
  · obtain ⟨t, ht, x, hx, rfl⟩ := mem_perTarget_iff.1 hs
    exact ⟨t, ht, .sequence (isSome_of_mem_map (mem_sampled_iff.1 hx).2)⟩
  · obtain ⟨t, ht, -, hc, rfl | rfl | rfl⟩ := mem_durations_iff.1 hs
    · exact ⟨t, ht, .bucket (.head _) hc⟩
    · exact ⟨t, ht, .histogram (.head _) hc (.head _)⟩
    · exact ⟨t, ht, .histogram (.head _) hc (.tail _ (.head _))⟩
  · obtain ⟨t, ht, -, hc, rfl | rfl | rfl⟩ := mem_durations_iff.1 hs
    · exact ⟨t, ht, .bucket (.tail _ (.head _)) hc⟩
    · exact ⟨t, ht, .histogram (.tail _ (.head _)) hc (.head _)⟩
    · exact ⟨t, ht, .histogram (.tail _ (.head _)) hc (.tail _ (.head _))⟩
  · obtain ⟨t, ht, e, he, rfl⟩ := mem_errors_iff.1 hs
    have hkind : e.1 ∈ t.errors := by
      have hmem := Std.ExtTreeMap.mem_toList_iff_getElem?_eq_some.1 he
      rw [Std.ExtTreeMap.mem_iff_isSome_getElem?, hmem]
      rfl
    exact ⟨t, ht, .error hkind⟩

/-- What a target exposes is in one of the families, provided that durations come with samples. -/
theorem mem_targetFamilies_of_exposes {t : TargetState} (ht : t ∈ targets)
    (hsettled : t.Settled) (h : t.Exposes t.name metric labels) :
    ∃ s ∈ (targetFamilies targets).flatMap (·.series), s.name = metric ∧ s.labels = labels := by
  have hfamily (i : Nat) {f : Family} {s : Series} (hf : (targetFamilies targets)[i]? = some f)
      (hs : s ∈ f.series) : ∃ s' ∈ (targetFamilies targets).flatMap (·.series),
        s'.name = s.name ∧ s'.labels = s.labels :=
    ⟨s, List.mem_flatMap.2 ⟨f, List.mem_of_getElem? hf, hs⟩, rfl, rfl⟩
  cases h with
  | sampled h hm =>
    obtain ⟨c, hc⟩ := Option.isSome_iff_exists.1 h
    have hcurrent (f : Sample → Value) : f c ∈ t.current.map f := Option.mem_map_of_mem f hc
    have htotal (v : Value) : v ∈ sampled (fun _ => some v) t := mem_sampled_iff.2 ⟨h, rfl⟩
    simp only [List.mem_cons, List.not_mem_nil, or_false] at hm
    rcases hm with rfl | rfl | rfl | rfl | rfl
    · exact hfamily 0 rfl (mem_perTarget_iff.2 ⟨_, ht, _, hcurrent _, rfl⟩)
    · exact hfamily 1 rfl (mem_perTarget_iff.2 ⟨_, ht, _, hcurrent _, rfl⟩)
    · exact hfamily 2 rfl (mem_perTarget_iff.2 ⟨_, ht, _, hcurrent _, rfl⟩)
    · exact hfamily 4 rfl (mem_perTarget_iff.2 ⟨_, ht, _, htotal _, rfl⟩)
    · exact hfamily 5 rfl (mem_perTarget_iff.2 ⟨_, ht, _, htotal _, rfl⟩)
  | @roundTrip c stat hc hr hs =>
    obtain ⟨rtt, hrtt⟩ := Option.isSome_iff_exists.1 hr
    have hstat : stat ∈ [("min", rtt.min), ("avg", rtt.avg), ("max", rtt.max)].map Prod.fst := hs
    obtain ⟨p, hmem, rfl⟩ := List.mem_map.1 hstat
    exact hfamily 3 rfl (mem_roundTrips_iff.2 ⟨_, ht, c, hc, rtt, hrtt, p, hmem, rfl⟩)
  | sequence h =>
    obtain ⟨n, hn⟩ := Option.isSome_iff_exists.1 h
    have hvalue : Value.count n ∈ sampled (fun t => t.lastSeq.map .count) t :=
      mem_sampled_iff.2 ⟨hsettled.sequence h, Option.mem_map_of_mem _ hn⟩
    exact hfamily 6 rfl (mem_perTarget_iff.2 ⟨_, ht, _, hvalue, rfl⟩)
  | bucket h hc =>
    have hcurrent := hsettled.durations h hc
    simp only [TargetState.histograms, List.mem_cons, Prod.mk.injEq, List.not_mem_nil,
      or_false] at h
    rcases h with ⟨rfl, rfl⟩ | ⟨rfl, rfl⟩
    · exact hfamily 7 rfl (mem_durations_iff.2 ⟨_, ht, hcurrent, hc, .inl rfl⟩)
    · exact hfamily 8 rfl (mem_durations_iff.2 ⟨_, ht, hcurrent, hc, .inl rfl⟩)
  | histogram h hc hs =>
    have hcurrent := hsettled.durations h hc
    simp only [TargetState.histograms, List.mem_cons, Prod.mk.injEq, List.not_mem_nil,
      or_false] at h hs
    rcases h with ⟨rfl, rfl⟩ | ⟨rfl, rfl⟩ <;> rcases hs with rfl | rfl
    · exact hfamily 7 rfl (mem_durations_iff.2 ⟨_, ht, hcurrent, hc, .inr (.inl rfl)⟩)
    · exact hfamily 7 rfl (mem_durations_iff.2 ⟨_, ht, hcurrent, hc, .inr (.inr rfl)⟩)
    · exact hfamily 8 rfl (mem_durations_iff.2 ⟨_, ht, hcurrent, hc, .inr (.inl rfl)⟩)
    · exact hfamily 8 rfl (mem_durations_iff.2 ⟨_, ht, hcurrent, hc, .inr (.inr rfl)⟩)
  | @error kind h =>
    have hkind : (kind, t.errors[kind]) ∈ t.errors.toList :=
      Std.ExtTreeMap.mem_toList_iff_getElem?_eq_some.2 (Std.ExtTreeMap.getElem?_eq_some_getElem h)
    exact hfamily 9 rfl (mem_errors_iff.2 ⟨_, ht, _, hkind, rfl⟩)

/-! ## Series of a snapshot -/

variable {x : Snapshot}

theorem exposes_of_mem_exporterFamilies {f : Family} {s : Series} (hf : f ∈ exporterFamilies x)
    (hs : s ∈ f.series) : x.Exposes s.name s.labels := by
  rw [exporterFamilies, List.mem_append] at hf
  rcases hf with hf | hf
  · simp only [List.mem_cons, List.not_mem_nil, or_false] at hf
    rcases hf with rfl | rfl | rfl | rfl | rfl | rfl
    · obtain rfl := List.mem_singleton.1 hs
      exact .exporter (.head _)
    · obtain rfl := List.mem_singleton.1 hs
      exact .exporter (.tail _ (.head _))
    · obtain rfl := List.mem_singleton.1 hs
      exact .exporter (.tail _ (.tail _ (.head _)))
    · obtain rfl := List.mem_singleton.1 hs
      exact .exporter (.tail _ (.tail _ (.tail _ (.head _))))
    · obtain rfl := List.mem_singleton.1 hs
      exact .exporter (.tail _ (.tail _ (.tail _ (.tail _ (.head _)))))
    · obtain ⟨p, -, rfl⟩ := List.mem_map.1 hs
      exact .phase p
  · obtain ⟨v, hv, rfl⟩ := List.mem_map.1 hf
    obtain rfl := List.mem_singleton.1 hs
    exact .version (Option.mem_toList.1 hv)

/-- The series of a snapshot are those that it is to expose. -/
theorem mem_families_iff (hk : x.Keyed)
    (hx : ∀ (name : String) (t : TargetState), x.targets[name]? = some t → t.Settled) :
    (∃ s ∈ (families x).flatMap (·.series), s.name = metric ∧ s.labels = labels) ↔
      x.Exposes metric labels := by
  rw [families]
  simp only [List.flatMap_append, List.mem_append]
  constructor
  · rintro ⟨s, hs | hs, rfl, rfl⟩
    · obtain ⟨f, hf, hs⟩ := List.mem_flatMap.1 hs
      obtain ⟨t, ht, hexposes⟩ := exposes_of_mem_targetFamilies hf hs
      obtain ⟨name, ht⟩ := Snapshot.mem_states_iff.1 ht
      rw [hk name t ht] at hexposes
      exact .target ht hexposes
    · obtain ⟨f, hf, hs⟩ := List.mem_flatMap.1 hs
      exact exposes_of_mem_exporterFamilies hf hs
  · intro h
    have hfamily (i : Nat) {f : Family} {s : Series} (hf : (exporterFamilies x)[i]? = some f)
        (hs : s ∈ f.series) : ∃ s', (s' ∈ (targetFamilies x.states).flatMap (·.series) ∨
          s' ∈ (exporterFamilies x).flatMap (·.series)) ∧ s'.name = s.name ∧
            s'.labels = s.labels :=
      ⟨s, .inr (List.mem_flatMap.2 ⟨f, List.mem_of_getElem? hf, hs⟩), rfl, rfl⟩
    cases h with
    | @target name t _ _ ht hexposes =>
      rw [← hk name t ht] at hexposes
      obtain ⟨s, hs, hname, hlabels⟩ := mem_targetFamilies_of_exposes
        (Snapshot.mem_states_iff.2 ⟨name, ht⟩) (hx name t ht) hexposes
      exact ⟨s, .inl hs, hname, hlabels⟩
    | exporter h =>
      simp only [List.mem_cons, List.not_mem_nil, or_false] at h
      rcases h with rfl | rfl | rfl | rfl | rfl
      · exact hfamily 0 rfl (.head _)
      · exact hfamily 1 rfl (.head _)
      · exact hfamily 2 rfl (.head _)
      · exact hfamily 3 rfl (.head _)
      · exact hfamily 4 rfl (.head _)
    | phase p => exact hfamily 5 rfl (List.mem_map_of_mem p.mem_all)
    | @version v h =>
      have hv : (exporterFamilies x)[6]? = some
          { kind := .info, name := "fping_exporter_prober"
            help := "Version of the fping binary in use"
            series := [{ name := "fping_exporter_prober_info", labels := [("version", v)]
                         value := .real 1.0 }] } := by
        rw [exporterFamilies, h]
        rfl
      exact hfamily 6 hv (.head _)

/-! ## Lines -/

variable {fs : List Family}

theorem filterMap_key?_entries (fs : List Family) :
    (fs.flatMap Family.entries).filterMap Entry.key? =
      (fs.flatMap (·.series)).map fun s => (s.name, s.labels) := by
  induction fs with
  | nil => rfl
  | cons f fs ih =>
    have hseries : (f.series.map Series.entry).filterMap Entry.key? =
        f.series.map fun s => (s.name, s.labels) := by
      rw [List.filterMap_map]
      exact congrFun List.filterMap_eq_map f.series
    rw [List.flatMap_cons, List.filterMap_append, ih, List.flatMap_cons, List.map_append]
    congr 1

theorem filterMap_help?_entries (fs : List Family) :
    (fs.flatMap Family.entries).filterMap Entry.help? = fs.map Family.exposedName := by
  induction fs with
  | nil => rfl
  | cons f fs ih =>
    have hseries : (f.series.map Series.entry).filterMap Entry.help? = [] := by
      rw [List.filterMap_map]
      exact List.filterMap_eq_nil_iff.2 fun _ _ => rfl
    rw [List.flatMap_cons, List.filterMap_append, ih, List.map_cons, Family.entries]
    simp only [List.filterMap_cons, Entry.help?, hseries, List.singleton_append]

theorem filterMap_type?_entries (fs : List Family) :
    (fs.flatMap Family.entries).filterMap Entry.type? = fs.map Family.exposedName := by
  induction fs with
  | nil => rfl
  | cons f fs ih =>
    have hseries : (f.series.map Series.entry).filterMap Entry.type? = [] := by
      rw [List.filterMap_map]
      exact List.filterMap_eq_nil_iff.2 fun _ _ => rfl
    rw [List.flatMap_cons, List.filterMap_append, ih, List.map_cons, Family.entries]
    simp only [List.filterMap_cons, Entry.type?, hseries, List.singleton_append]

/-- The series of a family stand behind its heading. -/
theorem exists_heading (hf : ∀ f ∈ fs, f.WellFormed) {before after : List Entry} {value : String}
    (h : fs.flatMap Family.entries = before ++ .series metric labels value :: after) :
    ∃ family text kind, .help family text ∈ before ∧ .type family kind ∈ before ∧
      metric ∈ sampleNames family kind := by
  induction fs generalizing before with
  | nil => exact absurd h.symm (List.append_ne_nil_of_right_ne_nil _ (List.cons_ne_nil _ _))
  | cons f fs ih =>
    obtain ⟨hf, hfs⟩ := List.forall_mem_cons.1 hf
    rw [List.flatMap_cons] at h
    rcases List.append_eq_append_iff.1 h with ⟨between, rfl, hbetween⟩ | ⟨rest, hrest, hafter⟩
    · obtain ⟨family, text, kind, hhelp, htype, hmem⟩ := ih hfs hbetween
      exact ⟨family, text, kind, List.mem_append_right _ hhelp, List.mem_append_right _ htype, hmem⟩
    · cases rest with
      | nil =>
        obtain ⟨family, text, kind, hhelp, -⟩ := @ih hfs [] hafter.symm
        exact absurd hhelp List.not_mem_nil
      | cons e rest =>
        obtain ⟨rfl, -⟩ := List.cons.inj hafter
        -- a series is neither the first nor the second line of its family
        cases before with
        | nil => cases (List.cons.inj hrest).1
        | cons first before =>
          obtain ⟨hfirst, hrest⟩ := List.cons.inj hrest
          cases before with
          | nil => cases (List.cons.inj hrest).1
          | cons second before =>
            obtain ⟨hsecond, hrest⟩ := List.cons.inj hrest
            have hmem : Entry.series metric labels value ∈ f.series.map Series.entry := by
              rw [hrest]
              exact List.mem_append_right _ (.head _)
            obtain ⟨s, hs, hentry⟩ := List.mem_map.1 hmem
            obtain ⟨rfl, -, -⟩ := Entry.series.inj hentry
            rw [← hfirst, ← hsecond]
            exact ⟨_, _, _, .head _, .tail _ (.head _), hf.name_mem s hs⟩

theorem headed_entries (hf : ∀ f ∈ fs, f.WellFormed) (hnodup : (fs.map Family.exposedName).Nodup) :
    Headed (fs.flatMap Family.entries) := by
  refine ⟨?_, ?_, ?_⟩
  · rwa [filterMap_help?_entries]
  · rw [filterMap_help?_entries, filterMap_type?_entries]
  · intro before after metric labels value h
    exact exists_heading hf h

/-! ## Main statement -/

theorem read?_render {x : Snapshot} {text : String} (hk : x.Keyed) (h : render x = .ok text) :
    read? text = some ((families x).flatMap Family.entries) := by
  refine read?_encode (fun f hf => (families_wellFormed hk f hf).readable) ?_
  rw [render, renderWith] at h
  cases hencode : encode (families x) with
  | error cause => rw [hencode] at h; cases h
  | ok written =>
    rw [hencode] at h
    cases h
    rfl

/-- The exposition of what is known after any writes is read back as what the families of the
snapshot hold. The series in it are exactly those that the snapshot is to expose, no two of them
have the same name and labels, and all of them stand behind the only heading of their family. -/
theorem read_exposition (ws : History) (now : Float) {text : String}
    (h : render ((({} : Registry).replay ws).snapshot now) = .ok text) :
    let x := (({} : Registry).replay ws).snapshot now
    ∃ es, read? text = some es ∧ es = (families x).flatMap Family.entries ∧
      (es.filterMap Entry.key?).Nodup ∧
      (∀ metric labels, (metric, labels) ∈ es.filterMap Entry.key? ↔ x.Exposes metric labels) ∧
      (∀ key ∈ es.filterMap Entry.key?, key.2.Pairwise fun l l' => l.1 < l'.1) ∧ Headed es := by
  intro x
  have hsettled (name : String) (t : TargetState) (ht : x.targets[name]? = some t) :
      t.Settled := by
    have ht' : ws.registry.targets[name]? = some t := by
      rw [← History.replay_eq_registry]
      exact ht
    rw [History.target_registry_of_shows ht']
    exact ws.settled_state name
  have hk : x.Keyed := Registry.keyed_replay ws
  have hkeys := filterMap_key?_entries (families x)
  refine ⟨_, read?_render hk h, rfl, ?_, ?_, ?_, ?_⟩
  · rw [hkeys]
    refine (List.pairwise_map.1 (nodup_about hk)).map _ ?_
    intro s s' hne hkey
    exact hne (by rw [Series.about, Series.about, (Prod.mk.inj hkey).1, (Prod.mk.inj hkey).2])
  · intro metric labels
    rw [hkeys, List.mem_map, ← mem_families_iff hk hsettled]
    simp only [Prod.mk.injEq]
  · intro key hkey
    rw [hkeys] at hkey
    obtain ⟨s, hs, rfl⟩ := List.mem_map.1 hkey
    obtain ⟨f, hf, hs⟩ := List.mem_flatMap.1 hs
    exact (families_wellFormed hk f hf).sorted hs
  · exact headed_entries (families_wellFormed hk) (nodup_exposedName x)

/-- A target, a kind of errors and a version with everything that has to be escaped. -/
theorem read_exposition_escaped :
    let ws : History := [.error "\\\"\n" "\n\\n", .version "5.1\"\n"]
    ∃ text es, render ((({} : Registry).replay ws).snapshot 1.5) = .ok text ∧
      read? text = some es ∧
      ("fping_errors_total", [("target", "\\\"\n"), ("type", "\n\\n")]) ∈
        es.filterMap Entry.key? ∧
      ("fping_exporter_prober_info", [("version", "5.1\"\n")]) ∈ es.filterMap Entry.key? := by
  intro ws
  cases htext : render ((({} : Registry).replay ws).snapshot 1.5) with
  | error fault =>
    have hok : (render ((({} : Registry).replay ws).snapshot 1.5)).isOk = true := by decide +kernel
    rw [htext] at hok
    cases hok
  | ok text =>
    obtain ⟨es, hread, -, -, hmem, -⟩ := read_exposition ws 1.5 htext
    have ht : ((({} : Registry).replay ws).snapshot 1.5).targets["\\\"\n"]? =
        some ((({} : Registry).target "\\\"\n").countError "\n\\n") :=
      Std.ExtTreeMap.getElem?_insert_self
    have hkind : "\n\\n" ∈ ((({} : Registry).target "\\\"\n").countError "\n\\n").errors :=
      Std.ExtTreeMap.mem_insert_self
    exact ⟨text, es, rfl, hread, (hmem _ _).2 (.target ht (.error hkind)),
      (hmem _ _).2 (.version rfl)⟩

end Exposition

end EchoMetrics
