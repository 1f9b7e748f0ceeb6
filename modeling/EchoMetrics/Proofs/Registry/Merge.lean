import EchoMetrics.Proofs.Exposition.Visible

/-! # The race between two streams

Lines of one stream keep their order, but nothing tells how the lines of two streams are merged.
Probes come from one of them and summaries from the other. These change different parts of a target,
apart from its address and its last sample: the former is the same in all samples of a target, and
the latter cannot be seen once there is a summary. Main statement: however two streams are merged
and whenever their lines are read, the exposition is the same. -/

namespace EchoMetrics

/-! ## Changes of one target -/

theorem ErrorCounts.add_comm (counts : ErrorCounts) (kind kind' : String) :
    (counts.add kind).add kind' = (counts.add kind').add kind := by
  apply Std.ExtTreeMap.ext_getElem?
  intro other
  simp only [add, Std.ExtTreeMap.getElem?_insert, Std.LawfulEqCmp.compare_eq_iff_eq]
  by_cases h : kind = other <;> by_cases h' : kind' = other
  · subst h h'
    simp
  · simp [h, h']
  · simp [h, h']
  · simp [h, h']

/-- If both samples name an address, then the same one. -/
def Sample.SameAddr (s s' : Sample) : Prop := ∀ a ∈ s.addr, ∀ a' ∈ s'.addr, a = a'

namespace TargetState

variable (t : TargetState) {s s' : Sample}

/-- Which of two samples comes first does not matter for the address. -/
theorem newAddr_comm (h : s.SameAddr s') :
    { t with addr := t.newAddr s }.newAddr s' = { t with addr := t.newAddr s' }.newAddr s := by
  cases hs : s.addr with
  | none => cases hs' : s'.addr <;> simp [newAddr, hs, hs']
  | some a =>
    cases hs' : s'.addr with
    | none => simp [newAddr, hs, hs']
    | some a' =>
      obtain rfl := h a hs a' hs'
      simp [newAddr, hs, hs']

/-- A probe and a summary may change places. -/
theorem visible_ingest_comm (hs : s.source = .probe) (hs' : s'.source = .summary)
    (h : s.SameAddr s') :
    ((t.ingest s).ingest s').visible = ((t.ingest s').ingest s).visible := by
  cases hr : s.rtt <;> cases he : s.error.isSome <;>
    simp [ingest, hs, hs', summarize, probe, hr, he, reply, countError, visible] <;>
    exact t.newAddr_comm h

theorem countError_ingest (kind : String) :
    (t.countError kind).ingest s = (t.ingest s).countError kind := by
  cases hs : s.source with
  | summary => simp [ingest, hs, summarize, newAddr, countError]
  | probe =>
    cases hr : s.rtt <;> cases he : s.error.isSome <;>
      simp [ingest, hs, hr, he, probe, reply, countError, newAddr, ErrorCounts.add_comm _ kind]

theorem countError_comm (kind kind' : String) :
    (t.countError kind).countError kind' = (t.countError kind').countError kind := by
  simp only [countError, ErrorCounts.add_comm]

end TargetState

/-! ## Writes of lines -/

/-- Writes that two streams may make, in either order. -/
structure Write.Racing (w w' : Write) : Prop where
  left : w.OfLine
  right : w'.OfLine
  samples {s s' : Sample} (h : w = .ingest s) (h' : w' = .ingest s') :
    s.source = .probe ∧ s'.source = .summary ∧ (s.target = s'.target → s.SameAddr s')

theorem Write.Racing.change {w w' : Write} (h : w.Racing w') (htarget : w.target? = w'.target?)
    (t : TargetState) : (w'.change (w.change t)).visible = (w.change (w'.change t)).visible := by
  cases w with
  | ingest s =>
    cases w' with
    | ingest s' =>
      obtain ⟨hs, hs', haddr⟩ := h.samples rfl rfl
      exact t.visible_ingest_comm hs hs' (haddr (Option.some.inj htarget))
    | error _ kind => exact congrArg TargetState.visible (t.countError_ingest kind).symm
    | _ => rfl
  | error _ kind =>
    cases w' with
    | ingest s' => exact congrArg TargetState.visible (t.countError_ingest kind)
    | error _ kind' => exact congrArg TargetState.visible (t.countError_comm kind kind')
    | _ => rfl
  | _ => rfl

namespace Registry

variable {r : Registry} {w w' : Write}

theorem SameApart.comm (r : Registry) (h : w.OfLine) (h' : w'.OfLine) :
    SameApart ((r.apply w).apply w') ((r.apply w').apply w) := by
  by_cases hw : w.target? = none
  · by_cases hw' : w'.target? = none
    · rw [h.eq_parseError hw, h'.eq_parseError hw']
      exact ⟨rfl, rfl, rfl, rfl, rfl⟩
    · exact (sameApart_apply hw').trans ((sameApart_apply hw').symm.apply w)
  · exact ((sameApart_apply hw).apply w').trans (sameApart_apply hw).symm

/-- What can be seen after two writes that race does not depend on which of them is first. -/
theorem visible_apply_comm (r : Registry) (h : w.Racing w') :
    ((r.apply w).apply w').visible = ((r.apply w').apply w).visible := by
  refine visible_eq_of_targets ?_ ?_ (SameApart.comm r h.left h.right)
  · intro name
    by_cases hw : w.target? = some name <;> by_cases hw' : w'.target? = some name
    · simp only [getElem?_targets_apply, target_apply, if_pos hw, if_pos hw']
      exact congrArg some (h.change (hw.trans hw'.symm) (r.target name))
    · simp only [getElem?_targets_apply, target_apply, if_pos hw, if_neg hw']
    · simp only [getElem?_targets_apply, target_apply, if_neg hw, if_pos hw']
    · simp only [getElem?_targets_apply, target_apply, if_neg hw, if_neg hw']
  · cases w <;> cases w' <;> rfl

/-- A write can be put off until after the writes that it races with. -/
theorem visible_replay_cons (r : Registry) {ws : History} (h : ∀ w ∈ ws, w.Racing w') :
    ((r.apply w').replay ws).visible = ((r.replay ws).apply w').visible := by
  induction ws generalizing r with
  | nil => rfl
  | cons w ws ih =>
    obtain ⟨hw, hws⟩ := List.forall_mem_cons.1 h
    calc ((r.apply w').replay (w :: ws)).visible
      _ = (((r.apply w).apply w').replay ws).visible :=
        visible_replay_congr (r.visible_apply_comm hw).symm rfl
      _ = (((r.apply w).replay ws).apply w').visible := ih (r.apply w) hws

end Registry

open Registry in
/-- What can be seen after a merge of two histories that race is what can be seen if one of them is
replayed after the other. -/
theorem Supervision.Interleaving.visible_replay {ws ws' merged : History}
    (hm : Interleaving ws ws' merged) (h : ∀ w ∈ ws, ∀ w' ∈ ws', w.Racing w') (r : Registry) :
    (r.replay merged).visible = ((r.replay ws).replay ws').visible := by
  induction hm generalizing r with
  | nil => rfl
  | left _ ih => exact ih (List.forall_mem_cons.1 h).2 (r.apply _)
  | @right w' ws ws' merged _ ih =>
    have hw' : ∀ w ∈ ws, w.Racing w' := fun w hw => h w hw w' List.mem_cons_self
    calc ((r.apply w').replay merged).visible
      _ = (((r.apply w').replay ws).replay ws').visible :=
        ih (fun w hw w' hw' => h w hw w' (List.mem_cons_of_mem _ hw')) (r.apply w')
      _ = (((r.replay ws).apply w').replay ws').visible :=
        visible_replay_congr (r.visible_replay_cons hw') rfl

/-! ## Lines -/

namespace Supervision.Interleaving

variable {α β : Type} {as bs cs : List α}

theorem filterMap (f : α → Option β) (h : Interleaving as bs cs) :
    Interleaving (as.filterMap f) (bs.filterMap f) (cs.filterMap f) := by
  induction h with
  | nil => exact .nil
  | @left a as bs cs _ ih =>
    simp only [List.filterMap_cons]
    cases f a with
    | none => exact ih
    | some b => exact ih.left
  | @right a as bs cs _ ih =>
    simp only [List.filterMap_cons]
    cases f a with
    | none => exact ih
    | some b => exact ih.right

end Supervision.Interleaving

namespace Line

/-- The lines of two streams: probes come from the first, summaries from the second, and the samples
of a target do not name two addresses. -/
structure Streams (out err : List String) : Prop where
  probe : ∀ line ∈ out, ∀ s, Reads line s → s.source = .probe
  summary : ∀ line ∈ err, ∀ s, Reads line s → s.source = .summary
  addr : ∀ line ∈ out ++ err, ∀ line' ∈ out ++ err, ∀ s s', Reads line s → Reads line' s' →
    s.target = s'.target → s.SameAddr s'

theorem Streams.racing {out err : List String} (h : Streams out err) :
    ∀ w ∈ out.filterMap write?, ∀ w' ∈ err.filterMap write?, w.Racing w' := by
  intro w hw w' hw'
  obtain ⟨line, hline, hw⟩ := List.mem_filterMap.1 hw
  obtain ⟨line', hline', hw'⟩ := List.mem_filterMap.1 hw'
  refine ⟨Outcome.ofLine_of_write? hw, Outcome.ofLine_of_write? hw', ?_⟩
  rintro s s' rfl rfl
  have hs := reads_of_write? hw
  have hs' := reads_of_write? hw'
  exact ⟨h.probe line hline s hs, h.summary line' hline' s' hs',
    h.addr line (List.mem_append_left _ hline) line' (List.mem_append_right _ hline') s s' hs hs'⟩

end Line

/-! ## Main statement -/

open Line Supervision

theorem Registry.visible_ingestAll (r : Registry) {out err : List String} (h : Streams out err)
    {lines : List (Float × String)} (hm : Interleaving out err (lines.map Prod.snd)) :
    (r.ingestAll lines).visible =
      ((r.replay (out.filterMap write?)).replay (err.filterMap write?)).visible := by
  calc (r.ingestAll lines).visible
    _ = (r.replay (writesOf lines)).visible := by rw [ingestAll_eq_replay]
    _ = (r.replay ((lines.map Prod.snd).filterMap write?)).visible :=
      visible_replay_congr rfl (undated_writesOf lines)
    _ = _ := (hm.filterMap write?).visible_replay h.racing r

/-- However the lines of the two streams are merged, and whenever each of them is read, the
exposition is the same. -/
theorem Exposition.render_merge (r : Registry) {out err : List String} (h : Streams out err)
    {lines lines' : List (Float × String)} (hm : Interleaving out err (lines.map Prod.snd))
    (hm' : Interleaving out err (lines'.map Prod.snd)) (now : Float) :
    render ((r.ingestAll lines).snapshot now) = render ((r.ingestAll lines').snapshot now) :=
  render_congr ((r.visible_ingestAll h hm).trans (r.visible_ingestAll h hm').symm) now

/-- A summary that comes before or after the second of two requests. -/
theorem Exposition.render_merge_summary :
    let reply := "a (::1) : [0], 64 bytes, 1.50 ms (1.50 avg, 0% loss)"
    let lost := "[7.5] a (::1) : [1], timed out (1.50 avg, 50% loss)"
    let summary := "a (::1) : xmt/rcv/%loss = 2/1/50%, min/avg/max = 1.50/1.50/1.50"
    Streams [reply, lost] [summary] ∧
      render ((({} : Registry).ingestAll [(1.0, reply), (2.0, lost), (3.0, summary)]).snapshot
          4.0) =
        render ((({} : Registry).ingestAll [(1.5, reply), (1.5, summary), (2.5, lost)]).snapshot
          4.0) := by
  intro reply lost summary
  have hreply : Reads reply
      { target := "a", addr := some "::1", source := .probe, transmitted := 1, received := 1
        received_le := Nat.le_refl 1, loss := 0.0, seq := some 0, observedAt := 0.0
        rtt := some ⟨1.5, 1.5, 1.5, by decide +kernel, by decide +kernel⟩ } :=
    ⟨0.0, by decide +kernel⟩
  have hlost : Reads lost
      { target := "a", addr := some "::1", source := .probe, transmitted := 1, received := 0
        received_le := Nat.zero_le 1, loss := 1.0, seq := some 1, observedAt := 0.0 } :=
    ⟨0.0, by decide +kernel⟩
  have hsummary : Reads summary
      { target := "a", addr := some "::1", source := .summary, transmitted := 2, received := 1
        received_le := Nat.le_succ 1, loss := 0.5, observedAt := 0.0
        rtt := some ⟨1.5, 1.5, 1.5, by decide +kernel, by decide +kernel⟩ } :=
    ⟨0.0, by decide +kernel⟩
  have hout : ∀ line ∈ [reply, lost], ∀ s, Reads line s →
      s.source = .probe ∧ s.addr = some "::1" := by
    intro line hline s hs
    rcases List.mem_pair.1 hline with rfl | rfl
    · have heq := hs.undated_eq hreply
      exact ⟨congrArg Sample.source heq, congrArg Sample.addr heq⟩
    · have heq := hs.undated_eq hlost
      exact ⟨congrArg Sample.source heq, congrArg Sample.addr heq⟩
  have herr : ∀ line ∈ [summary], ∀ s, Reads line s →
      s.source = .summary ∧ s.addr = some "::1" := by
    intro line hline s hs
    obtain rfl := List.mem_singleton.1 hline
    have heq := hs.undated_eq hsummary
    exact ⟨congrArg Sample.source heq, congrArg Sample.addr heq⟩
  have haddr : ∀ line ∈ [reply, lost] ++ [summary], ∀ s, Reads line s → s.addr = some "::1" := by
    intro line hline s hs
    rcases List.mem_append.1 hline with hline | hline
    · exact (hout line hline s hs).2
    · exact (herr line hline s hs).2
  have hstreams : Streams [reply, lost] [summary] := by
    refine ⟨fun line hline s hs => (hout line hline s hs).1,
      fun line hline s hs => (herr line hline s hs).1, ?_⟩
    intro line hline line' hline' s s' hs hs' _ a ha a' ha'
    rw [haddr line hline s hs] at ha
    rw [haddr line' hline' s' hs'] at ha'
    exact (Option.some.inj ha).symm.trans (Option.some.inj ha')
  exact ⟨hstreams, render_merge {} hstreams (.left (.left (.right .nil)))
    (.left (.right (.left .nil))) 4.0⟩

end EchoMetrics
