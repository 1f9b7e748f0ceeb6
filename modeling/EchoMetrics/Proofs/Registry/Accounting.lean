import Mathlib
import EchoMetrics.Proofs.Line.Source
import EchoMetrics.Proofs.Registry.Independence
import EchoMetrics.Registry.Account

/-! # Every line is counted once

A sum over all targets changes with one target at a time, and by what is written of it. Main
statements: what a line adds to the sums over all targets, and that a new registry accounts for
whatever lines it is fed with. -/

namespace EchoMetrics

/-! ## Sums over maps -/

section

variable {β : Type} (m : Std.ExtTreeMap String β) (name : String) (f : β → Nat)

theorem nodup_toList : m.toList.Nodup := by
  have hkeys : (m.toList.map Prod.fst).Nodup := by
    rw [Std.ExtTreeMap.map_fst_toList_eq_keys]
    exact Std.ExtTreeMap.nodup_keys
  exact hkeys.of_map

/-- The entries of a map with a new entry are that entry and those of other names. -/
theorem toList_insert_perm (b : β) :
    (m.insert name b).toList.Perm ((name, b) :: m.toList.filter fun p => p.1 ≠ name) := by
  have hnodup : ((name, b) :: m.toList.filter fun p => p.1 ≠ name).Nodup := by
    refine List.nodup_cons.2 ⟨?_, (nodup_toList m).filter _⟩
    intro hmem
    exact of_decide_eq_true (List.mem_filter.1 hmem).2 rfl
  refine (List.perm_ext_iff_of_nodup (nodup_toList _) hnodup).2 ?_
  rintro ⟨other, c⟩
  rw [Std.ExtTreeMap.mem_toList_iff_getElem?_eq_some, Std.ExtTreeMap.getElem?_insert,
    List.mem_cons, List.mem_filter, Std.ExtTreeMap.mem_toList_iff_getElem?_eq_some]
  simp only [Std.LawfulEqCmp.compare_eq_iff_eq]
  by_cases h : name = other
  · subst h
    simp [eq_comm]
  · simp [h, Ne.symm h]

theorem total_perm {ns ns' : List Nat} (h : ns.Perm ns') : History.total ns = History.total ns' :=
  h.foldl_eq' (fun _ _ _ _ _ => Nat.add_right_comm ..) 0

theorem total_cons (n : Nat) (ns : List Nat) : History.total (n :: ns) = n + History.total ns := by
  rw [History.total, List.foldl_cons, Nat.add_comm, List.foldl_assoc, History.total]

theorem total_append (ns ns' : List Nat) :
    History.total (ns ++ ns') = History.total ns + History.total ns' := by
  induction ns with
  | nil => exact (Nat.zero_add _).symm
  | cons n ns ih => rw [List.cons_append, total_cons, total_cons, ih, Nat.add_assoc]

/-- A new entry takes the place of the old one in a sum, if there is one. -/
theorem total_insert (b : β) :
    History.total ((m.insert name b).toList.map fun p => f p.2) + (m[name]?.map f).getD 0 =
      History.total (m.toList.map fun p => f p.2) + f b := by
  have hnew : History.total ((m.insert name b).toList.map fun p => f p.2) =
      f b + History.total ((m.toList.filter fun p => p.1 ≠ name).map fun p => f p.2) := by
    rw [total_perm ((toList_insert_perm m name b).map _), List.map_cons, total_cons]
  have hold : History.total (m.toList.map fun p => f p.2) = (m[name]?.map f).getD 0 +
      History.total ((m.toList.filter fun p => p.1 ≠ name).map fun p => f p.2) := by
    cases h : m[name]? with
    | none =>
      have hall : m.toList.filter (fun p => p.1 ≠ name) = m.toList := by
        refine List.filter_eq_self.2 ?_
        intro p hp
        refine decide_eq_true ?_
        rintro rfl
        rw [Std.ExtTreeMap.mem_toList_iff_getElem?_eq_some, h] at hp
        cases hp
      rw [hall]
      exact (Nat.zero_add _).symm
    | some c =>
      have hsame : m.insert name c = m := by
        refine Std.ExtTreeMap.ext_getElem? ?_
        intro other
        rw [Std.ExtTreeMap.getElem?_insert]
        split
        · rename_i heq
          rw [← Std.LawfulEqCmp.compare_eq_iff_eq.1 heq, h]
        · rfl
      have hperm := (toList_insert_perm m name c).map fun p => f p.2
      rw [hsame] at hperm
      rw [total_perm hperm, List.map_cons, total_cons]
      rfl
  omega

end

/-! ## What a write adds to a target -/

theorem ErrorCounts.getD_add (e : ErrorCounts) (kind other : String) :
    (e.add kind)[other]?.getD 0 = e[other]?.getD 0 + if kind = other then 1 else 0 := by
  rw [add, Std.ExtTreeMap.getElem?_insert]
  simp only [Std.LawfulEqCmp.compare_eq_iff_eq]
  split
  · rename_i h
    rw [← h]
    rfl
  · rfl

namespace TargetState

variable (t : TargetState) (s : Sample)

theorem errors_ingest :
    (t.ingest s).errors =
      if s.source = .probe ∧ s.error.isSome then t.errors.add icmp else t.errors := by
  rw [ingest]
  cases hs : s.source with
  | summary => rfl
  | probe =>
    simp only [probe, true_and]
    split <;> split <;> rfl

theorem totals_ingest :
    (t.ingest s).transmittedTotal =
        (t.transmittedTotal + if s.source = .summary then s.transmitted else 0) ∧
      (t.ingest s).receivedTotal =
        t.receivedTotal + if s.source = .summary then s.received else 0 := by
  rw [ingest]
  cases hs : s.source with
  | summary => exact ⟨rfl, rfl⟩
  | probe =>
    simp only [probe]
    split <;> split <;> exact ⟨rfl, rfl⟩

end TargetState

namespace Write

/-- The requests or replies of a summary. -/
def summarized (count : Sample → Nat) : Write → Nat
  | .ingest s => if s.source = .summary then count s else 0
  | .error _ _ | .parseError | .start _ | .restart _ | .phase _ | .version _ => 0

/-- One for an error of a kind. -/
def erred (kind : String) : Write → Nat
  | .ingest s => if (s.source = .probe ∧ s.error.isSome) ∧ TargetState.icmp = kind then 1 else 0
  | .error _ other => if other = kind then 1 else 0
  | .parseError | .start _ | .restart _ | .phase _ | .version _ => 0

/-- A number that is kept for each target grows by what a write adds to it. -/
structure Adds (f : TargetState → Nat) (added : Write → Nat) : Prop where
  empty (name : String) : f { name } = 0
  change (w : Write) (t : TargetState) : f (w.change t) = f t + added w

theorem Adds.eq_zero {f : TargetState → Nat} {added : Write → Nat} (h : Adds f added) {w : Write}
    (hw : w.target? = none) : added w = 0 := by
  have hid (t : TargetState) : w.change t = t := by
    cases w with
    | ingest | error => cases hw
    | _ => rfl
  have hchange := h.change w { name := "" }
  rw [hid] at hchange
  omega

theorem adds_transmittedTotal : Adds (·.transmittedTotal) (summarized (·.transmitted)) := by
  refine ⟨fun _ => rfl, ?_⟩
  intro w t
  cases w with
  | ingest s => exact (t.totals_ingest s).1
  | _ => rfl

theorem adds_receivedTotal : Adds (·.receivedTotal) (summarized (·.received)) := by
  refine ⟨fun _ => rfl, ?_⟩
  intro w t
  cases w with
  | ingest s => exact (t.totals_ingest s).2
  | _ => rfl

theorem adds_errorCount (kind : String) : Adds (·.errorCount kind) (erred kind) := by
  refine ⟨fun _ => rfl, ?_⟩
  intro w t
  cases w with
  | ingest s =>
    rw [change, erred, TargetState.errorCount, TargetState.errors_ingest]
    by_cases h : s.source = .probe ∧ s.error.isSome
    · simp only [h, and_self, if_true, true_and]
      exact t.errors.getD_add TargetState.icmp kind
    · simp only [h, if_false, false_and]
      rfl
  | error _ other => exact t.errors.getD_add other kind
  | _ => rfl

end Write

/-! ## What a line adds to the sums over all targets -/

namespace Registry

variable {f : TargetState → Nat} {added : Write → Nat} (r : Registry)

/-- A write adds to a sum over all targets what it adds to its target. -/
theorem sumOver_apply (h : Write.Adds f added) (w : Write) :
    (r.apply w).sumOver f = r.sumOver f + added w := by
  have hupdate (name : String) (g : TargetState → TargetState)
      (hg : f (g (r.target name)) = f (r.target name) + added w) :
      (r.update name g).sumOver f = r.sumOver f + added w := by
    have hinsert := total_insert r.targets name f (g (r.target name))
    have htarget : (r.targets[name]?.map f).getD 0 = f (r.target name) := by
      rw [target]
      cases r.targets[name]? with
      | none => exact (h.empty name).symm
      | some t => rfl
    change History.total ((r.targets.insert name (g (r.target name))).toList.map fun p => f p.2) =
      History.total (r.targets.toList.map fun p => f p.2) + added w
    omega
  cases w with
  | ingest s => exact hupdate s.target _ (h.change (.ingest s) _)
  | error name kind => exact hupdate name _ (h.change (.error name kind) _)
  | parseError | start | restart | phase | version =>
    rw [h.eq_zero rfl]
    rfl

/-- What a line adds to a sum over all targets. -/
theorem sumOver_ingest (h : Write.Adds f added) (now : Float) (raw : String) :
    (r.ingest now raw).sumOver f =
      r.sumOver f + ((Line.read (.float now) raw).write?.map added).getD 0 := by
  rw [ingest]
  cases (Line.read (.float now) raw).write? with
  | none => rfl
  | some w => exact r.sumOver_apply h w

end Registry

/-! ## What a line says of its target -/

namespace Line

variable {now : Float} {raw : String}

theorem Outcome.target?_of_write? {o : Outcome} {w : Write} (h : o.write? = some w) :
    w.target? = o.known? := by
  rcases o with s | ⟨_ | _ | _, _⟩ | _ <;> cases h <;> rfl

theorem Outcome.known?_of_write?_eq_none {o : Outcome} (h : o.write? = none) : o.known? = none := by
  rcases o with s | ⟨_ | _ | _, _⟩ | _ <;> cases h <;> rfl

/-- Only a probe comes with an error. -/
theorem source_of_error {s : Sample} (h : read (.float now) raw = .sample s)
    (he : s.error.isSome) : s.source = .probe := by
  obtain ⟨x, m, -, hm, hheld⟩ := exists_measures_of_read h
  rw [hheld.error] at he
  obtain ⟨host, error, source, rfl⟩ := hm.isSome_error_iff.1 he
  rw [hheld.source]
  cases hm with
  | icmpError => rfl

/-- Targets are words. -/
theorem word_of_known? {name : String} (h : (read (.float now) raw).known? = some name) :
    Word name.toList := by
  cases ho : read (.float now) raw with
  | sample s =>
    rw [ho] at h
    obtain rfl := Option.some.inj h
    obtain ⟨x, m, hx, hm, hheld⟩ := exists_measures_of_read ho
    rw [hheld.target]
    exact (Shape.written_of_shape? hx).word hm
  | ignored notice line =>
    rw [ho] at h
    cases notice with
    | proberError t =>
      obtain rfl := Option.some.inj h
      exact word_of_ignored ho t rfl
    | localTime | duplicate => cases h
  | unreadable =>
    rw [ho] at h
    cases h

end Line

/-! ## What a line adds to the account -/

namespace TargetState

/-- Only two kinds of errors are counted, and there are not more replies than requests. -/
structure Regular (t : TargetState) : Prop where
  kinds {kind : String} (h : kind ∈ t.errors) : kind = prober ∨ kind = icmp
  received_le : t.receivedTotal ≤ t.transmittedTotal

theorem regular_empty (name : String) : Regular { name } :=
  ⟨fun h => absurd h Std.ExtTreeMap.not_mem_empty, le_rfl⟩

theorem Regular.countError {t : TargetState} (h : t.Regular) {kind : String}
    (hk : kind = prober ∨ kind = icmp) : (t.countError kind).Regular := by
  refine ⟨?_, h.received_le⟩
  intro other hother
  rcases Std.ExtTreeMap.mem_insert.1 hother with heq | hmem
  · rw [← Std.LawfulEqCmp.compare_eq_iff_eq.1 heq]
    exact hk
  · exact h.kinds hmem

theorem Regular.ingest {t : TargetState} (h : t.Regular) (s : Sample) : (t.ingest s).Regular := by
  refine ⟨?_, ?_⟩
  · intro kind hkind
    rw [errors_ingest] at hkind
    split at hkind
    · exact (h.countError (.inr rfl)).kinds hkind
    · exact h.kinds hkind
  · obtain ⟨htransmitted, hreceived⟩ := t.totals_ingest s
    have := h.received_le
    have := s.received_le
    rw [htransmitted, hreceived]
    split <;> omega

theorem Regular.change {t : TargetState} (h : t.Regular) {o : Line.Outcome} {w : Write}
    (hw : o.write? = some w) : (w.change t).Regular := by
  rcases o with s | ⟨_ | _ | _, _⟩ | _ <;> cases hw
  · exact h.ingest s
  · exact h.countError (.inl rfl)
  · exact h

end TargetState

namespace Line.Outcome

theorem summarized_write? (count : Sample → Nat) (o : Outcome) :
    (o.write?.map (Write.summarized count)).getD 0 =
      History.total ((([o].filterMap (·.sample?)).filter (·.source = .summary)).map count) := by
  rcases o with s | ⟨_ | _ | _, _⟩ | _
  · cases hs : s.source <;> simp [write?, sample?, Write.summarized, History.total, hs]
  all_goals rfl

theorem erred_prober_write? (o : Outcome) :
    (o.write?.map (Write.erred TargetState.prober)).getD 0 =
      ([o].filterMap (·.complaint?)).length := by
  rcases o with s | ⟨_ | _ | _, _⟩ | _
  · exact if_neg fun h => absurd h.2 (by decide)
  all_goals rfl

theorem erred_icmp_write? {o : Outcome}
    (h : ∀ s, o = .sample s → s.error.isSome → s.source = .probe) :
    (o.write?.map (Write.erred TargetState.icmp)).getD 0 =
      ([o].filterMap (·.sample?)).countP (·.error.isSome) := by
  rcases o with s | ⟨_ | _ | _, _⟩ | _
  · by_cases he : s.error.isSome
    · simp [write?, sample?, Write.erred, he, h s rfl he]
    · simp [write?, sample?, Write.erred, he]
  all_goals rfl

end Line.Outcome

namespace Registry

section

variable (r : Registry) (now : Float) (raw name : String)

theorem getElem?_targets_ingest :
    (r.ingest now raw).targets[name]? =
      if (Line.read (.float now) raw).known? = some name then
        (Line.read (.float now) raw).write?.map fun w => w.change (r.target name)
      else r.targets[name]? := by
  rw [ingest]
  cases h : (Line.read (.float now) raw).write? with
  | none =>
    rw [Line.Outcome.known?_of_write?_eq_none h]
    rfl
  | some w =>
    rw [← Line.Outcome.target?_of_write? h]
    exact r.getElem?_targets_apply w name

theorem mem_targets_ingest :
    name ∈ (r.ingest now raw).targets ↔
      name ∈ r.targets ∨ (Line.read (.float now) raw).known? = some name := by
  rw [Std.ExtTreeMap.mem_iff_isSome_getElem?, Std.ExtTreeMap.mem_iff_isSome_getElem?,
    getElem?_targets_ingest]
  split
  · rename_i h
    refine iff_of_true ?_ (.inr h)
    rw [Option.isSome_map]
    cases hw : (Line.read (.float now) raw).write? with
    | none =>
      rw [Line.Outcome.known?_of_write?_eq_none hw] at h
      cases h
    | some w => rfl
  · rename_i h
    exact (or_iff_left h).symm

end

/-- Lines that make no target known change none. -/
theorem targets_ingest_of_known?_eq_none (r : Registry) {now : Float} {raw : String}
    (h : (Line.read (.float now) raw).known? = none) : (r.ingest now raw).targets = r.targets := by
  refine Std.ExtTreeMap.ext_getElem? ?_
  intro name
  rw [getElem?_targets_ingest, h]
  rfl

namespace AccountsFor

variable {r : Registry} {os : List Line.Outcome}

theorem empty : AccountsFor {} [] where
  samplesIngested := rfl
  parseErrors := rfl
  complaints := rfl
  errors := rfl
  transmitted := rfl
  received := rfl
  kinds h := by simp at h
  targets name := by simp
  names h := by simp at h
  received_le h := by simp at h

/-- What is neither a target nor a count of lines does not matter. -/
theorem congr {r' : Registry} (h : r.AccountsFor os) (ht : r'.targets = r.targets)
    (hs : r'.samplesIngested = r.samplesIngested) (hp : r'.parseErrors = r.parseErrors) :
    r'.AccountsFor os := by
  obtain ⟨targets, samplesIngested, parseErrors, _, _, _, _⟩ := r'
  cases ht
  cases hs
  cases hp
  exact ⟨h.samplesIngested, h.parseErrors, h.complaints, h.errors, h.transmitted, h.received,
    h.kinds, h.targets, h.names, h.received_le⟩

theorem regular (h : r.AccountsFor os) (name : String) : (r.target name).Regular := by
  rw [target]
  cases ht : r.targets[name]? with
  | none => exact TargetState.regular_empty name
  | some t => exact ⟨h.kinds ht, h.received_le ht⟩

/-- A target that is known after a line was applied is as regular as those before. -/
theorem regular_ingest (h : r.AccountsFor os) {now : Float} {raw name : String} {t : TargetState}
    (ht : (r.ingest now raw).targets[name]? = some t) : t.Regular := by
  rw [getElem?_targets_ingest] at ht
  split at ht
  · obtain ⟨w, hw, rfl⟩ := Option.map_eq_some_iff.1 ht
    exact (h.regular name).change hw
  · exact ⟨h.kinds ht, h.received_le ht⟩

/-- A line is accounted for once it is applied. -/
theorem ingest (h : r.AccountsFor os) (now : Float) (raw : String) :
    (r.ingest now raw).AccountsFor (os ++ [Line.read (.float now) raw]) where
  samplesIngested := by
    rw [List.filterMap_append, List.length_append, ← h.samplesIngested, Registry.ingest]
    rcases Line.read (.float now) raw with s | ⟨_ | _ | _, _⟩ | _ <;> rfl
  parseErrors := by
    rw [List.countP_append, ← h.parseErrors, Registry.ingest]
    rcases Line.read (.float now) raw with s | ⟨_ | _ | _, _⟩ | _ <;> rfl
  complaints := by
    rw [sumOver_ingest r (Write.adds_errorCount _), h.complaints, List.filterMap_append,
      List.length_append, Line.Outcome.erred_prober_write?]
  errors := by
    rw [sumOver_ingest r (Write.adds_errorCount _), h.errors, List.filterMap_append,
      List.countP_append, Line.Outcome.erred_icmp_write? fun _ => Line.source_of_error]
  transmitted := by
    rw [sumOver_ingest r Write.adds_transmittedTotal, h.transmitted, List.filterMap_append,
      List.filter_append, List.map_append, total_append, Line.Outcome.summarized_write?]
  received := by
    rw [sumOver_ingest r Write.adds_receivedTotal, h.received, List.filterMap_append,
      List.filter_append, List.map_append, total_append, Line.Outcome.summarized_write?]
  kinds ht := (h.regular_ingest ht).kinds
  targets name := by
    rw [mem_targets_ingest, h.targets, List.filterMap_append, List.mem_append,
      List.mem_filterMap (l := [_])]
    simp
  names hname := by
    rcases (mem_targets_ingest ..).1 hname with hmem | hknown
    · exact h.names hmem
    · obtain ⟨hne, hblank⟩ := Line.word_of_known? hknown
      exact ⟨fun heq => hne (by rw [heq]; rfl), hblank⟩
  received_le ht := (h.regular_ingest ht).received_le

/-- A feed is accounted for, if it is a line. -/
theorem feed (h : r.AccountsFor os) (f : Feed) :
    (r.feed f).AccountsFor (os ++ f.outcome?.toList) := by
  cases f with
  | line now raw => exact h.ingest now raw
  | start | restart | phase | version =>
    rw [Feed.outcome?, Option.toList_none, List.append_nil]
    exact h.congr rfl rfl rfl

end AccountsFor

end Registry

/-! ## Main statement -/

/-- A new registry accounts for all lines of a run, whatever else is recorded between them, and
lines that make no target known leave all targets as they are. -/
theorem Registry.accountsFor_feedAll (fs : List Feed) :
    (({} : Registry).feedAll fs).AccountsFor (fs.filterMap Feed.outcome?) ∧
      ∀ (r : Registry) (now : Float) (raw : String),
        (Line.read (.float now) raw).known? = none → (r.ingest now raw).targets = r.targets := by
  refine ⟨?_, fun r _ _ h => r.targets_ingest_of_known?_eq_none h⟩
  induction fs using List.reverseRecOn with
  | nil => exact .empty
  | append_singleton fs f ih =>
    have hfeed := ih.feed f
    have hlast : [f].filterMap Feed.outcome? = f.outcome?.toList := by
      cases h : f.outcome? <;> simp [h]
    rw [List.filterMap_append, feedAll, List.foldl_append, hlast]
    exact hfeed

/-- Two targets between launches: a heading, a request without answer, a complaint that makes its
target known, a summary, and a line that is none of these. -/
theorem Registry.accountsFor_feedAll_restarted :
    let fs : List Feed :=
      [.start 1.0, .line 1.0 "[12:00:00]", .line 2.0 "a : [0], timed out",
        .line 2.5 "b.invalid: Name or service not known", .restart 3.0,
        .line 4.0 "a : xmt/rcv/%loss = 3/2/33%, min/avg/max = 1.0/1.5/2.0", .line 5.0 "a b"]
    let r := ({} : Registry).feedAll fs
    r.samplesIngested = 2 ∧ r.parseErrors = 1 ∧ r.sumOver (·.errorCount TargetState.prober) = 1 ∧
      r.sumOver (·.transmittedTotal) = 3 ∧ r.sumOver (·.receivedTotal) = 2 ∧
      "b.invalid" ∈ r.targets ∧ (r.ingest 6.0 "[12:00:10]").targets = r.targets := by
  intro fs r
  obtain ⟨h, hsame⟩ := accountsFor_feedAll fs
  have hlines : (fs.filterMap Feed.outcome?).filterMap (·.known?) = ["a", "b.invalid", "a"] ∧
      ((fs.filterMap Feed.outcome?).filterMap (·.sample?)).length = 2 ∧
      (fs.filterMap Feed.outcome?).countP (·.isUnreadable) = 1 ∧
      ((fs.filterMap Feed.outcome?).filterMap (·.complaint?)).length = 1 ∧
      (((fs.filterMap Feed.outcome?).filterMap (·.sample?)).filter (·.source = .summary)).map
        (fun s => (s.transmitted, s.received)) = [(3, 2)] := by
    decide +kernel
  obtain ⟨hknown, hsamples, hunreadable, hcomplaints, hsummaries⟩ := hlines
  refine ⟨h.samplesIngested.trans hsamples, h.parseErrors.trans hunreadable,
    h.complaints.trans hcomplaints, ?_, ?_, ?_, hsame r 6.0 "[12:00:10]" (by decide +kernel)⟩
  · have htransmitted := congrArg (List.map Prod.fst) hsummaries
    rw [List.map_map] at htransmitted
    exact h.transmitted.trans (congrArg _ htransmitted)
  · have hreceived := congrArg (List.map Prod.snd) hsummaries
    rw [List.map_map] at hreceived
    exact h.received.trans (congrArg _ hreceived)
  · rw [h.targets, hknown]
    decide

end EchoMetrics
