import EchoMetrics.Proofs.Supervision.Conservation
import EchoMetrics.Supervision.Run

/-! # Scripted probers among the pipelines

Main statement: what a scripted run takes in of a prober comes out of the prober's threads and its
queue in one of the ways in which they can work, until the watch is over. -/

namespace EchoMetrics.Supervision

namespace Intake

theorem not_finished_of_code {i : Intake} (ha : i.abandoned = false) (hc : i.code = none) :
    i.finished = false := by
  rw [finished, ha, hc, Option.isSome_none, Bool.and_false]
  rfl

theorem not_finished_of_mem {i : Intake} {s : Stream} (ha : i.abandoned = false)
    (hs : s ∈ i.pending) : i.finished = false := by
  rw [finished, ha, List.isEmpty_eq_false_iff.2 (List.ne_nil_of_mem hs)]
  rfl

end Intake

namespace Conduct

variable {c : Conduct} {as : List Arrival} {readers : Stream → Reader} {w : Waiter}

/-- The lines that are written to a stream after the exit. -/
def lateOf (c : Conduct) (s : Stream) : List String := if c.held = some s then c.late else []

/-- All lines that are ever written to a stream. -/
def linesOf (c : Conduct) (s : Stream) : List String :=
  (c.output.filter (·.1 = s)).map Prod.snd ++ c.lateOf s

/-- The threads of a scripted prober, when everything that was put into the queue was taken. -/
def pipeline (c : Conduct) (as : List Arrival) (readers : Stream → Reader) (w : Waiter) :
    Pipeline where
  capacity := 1
  code := c.code
  streams := c.streams
  lines := c.linesOf
  readers := readers
  waiter := w
  taken := as

/-- What a reader passes on is taken at once. -/
theorem reachable_line {s : Stream} {line : String} {lines : List String}
    (hr : readers s = .reading (line :: lines))
    (hf : (c.pipeline as readers w).intake.finished = false) :
    Pipeline.Reachable (c.pipeline as readers w)
      (c.pipeline (as ++ [.line s line])
        (fun s' => if s' = s then .reading lines else readers s') w) := by
  have hpost := Steps.refl.tail (Pipeline.Step.post (p := c.pipeline as readers w) hr Nat.one_pos)
  exact hpost.tail (.take rfl hf)

/-- The end of a stream is told and taken. -/
theorem exists_reachable_closed {s : Stream} (hr : readers s = .reading [])
    (hf : (c.pipeline as readers w).intake.finished = false) :
    ∃ readers', (∀ s' ≠ s, readers' s' = readers s') ∧
      Pipeline.Reachable (c.pipeline as readers w) (c.pipeline (as ++ [.closed s]) readers' w) := by
  have hfinish := Steps.refl.tail (Pipeline.Step.finish (p := c.pipeline as readers w) hr)
  have hclose := hfinish.tail (.close (s := s) (if_pos rfl) Nat.one_pos)
  refine ⟨_, fun s' hs => ?_, hclose.tail (.take rfl hf)⟩
  exact (if_neg hs).trans (if_neg hs)

theorem reachable_exited (hf : (c.pipeline as readers .waiting).intake.finished = false) :
    Pipeline.Reachable (c.pipeline as readers .waiting)
      (c.pipeline (as ++ [.exited c.code]) readers .done) := by
  have hexit := Steps.refl.tail (Pipeline.Step.exit (p := c.pipeline as readers .waiting) rfl)
  exact (hexit.tail (.report rfl Nat.one_pos)).tail (.take rfl hf)

/-- Lines are passed on one after another while the prober runs. -/
theorem exists_reachable_lines (as : List Arrival) (readers : Stream → Reader)
    (rest : Stream → List String) (out : List (Stream × String))
    (hout : ∀ l ∈ out, l.1 ∈ c.streams) (has : as.filterMap Arrival.code? = [])
    (hsilence : .silence ∉ as)
    (hr : ∀ s ∈ c.streams, readers s = .reading ((out.filter (·.1 = s)).map Prod.snd ++ rest s)) :
    ∃ readers', (∀ s ∈ c.streams, readers' s = .reading (rest s)) ∧
      Pipeline.Reachable (c.pipeline as readers .waiting)
        (c.pipeline (as ++ out.map fun l => .line l.1 l.2) readers' .waiting) := by
  induction out generalizing as readers with
  | nil => exact ⟨readers, hr, by rw [List.map_nil, List.append_nil]; exact .refl⟩
  | cons l out ih =>
    obtain ⟨s, line⟩ := l
    have hf : (c.pipeline as readers .waiting).intake.finished = false := by
      refine Intake.not_finished_of_code (Intake.abandoned_foldl_take _ _ hsilence) ?_
      rw [Pipeline.intake, Intake.code_foldl_take, pipeline, has]
      rfl
    have hline : readers s =
        .reading (line :: ((out.filter (·.1 = s)).map Prod.snd ++ rest s)) := by
      rw [hr s (hout (s, line) List.mem_cons_self)]
      simp
    have hstep := reachable_line hline hf
    have hkeep : ∀ s' ∈ c.streams,
        (if s' = s then .reading ((out.filter (·.1 = s)).map Prod.snd ++ rest s) else readers s') =
          Reader.reading ((out.filter (·.1 = s')).map Prod.snd ++ rest s') := by
      intro s' hs'
      by_cases e : s' = s
      · rw [if_pos e, e]
      · rw [if_neg e, hr s' hs', List.filter_cons_of_neg (by simpa using Ne.symm e)]
    obtain ⟨readers', hr', h⟩ := ih (as ++ [.line s line]) _
      (fun l hl => hout l (List.mem_cons_of_mem _ hl)) (by rw [List.filterMap_append, has]; rfl)
      (by simp [hsilence]) hkeep
    rw [List.append_assoc] at h
    exact ⟨readers', hr', hstep.trans h⟩

/-- The ends of streams are told one after another. -/
theorem exists_reachable_ends (as : List Arrival) (readers : Stream → Reader) (ends : List Stream)
    (hnodup : ends.Nodup) (hstreams : ∀ s ∈ ends, s ∈ c.streams)
    (hr : ∀ s ∈ ends, readers s = .reading []) (hends : ∀ s ∈ ends, .closed s ∉ as)
    (hsilence : .silence ∉ as) :
    ∃ readers', Pipeline.Reachable (c.pipeline as readers w)
      (c.pipeline (as ++ ends.map .closed) readers' w) := by
  induction ends generalizing as readers with
  | nil => exact ⟨readers, by rw [List.map_nil, List.append_nil]; exact .refl⟩
  | cons s ends ih =>
    rw [List.forall_mem_cons] at hstreams hr hends
    obtain ⟨hnot, hnodup⟩ := List.nodup_cons.1 hnodup
    have hf : (c.pipeline as readers w).intake.finished = false := by
      refine Intake.not_finished_of_mem (s := s) (Intake.abandoned_foldl_take _ _ hsilence) ?_
      rw [Pipeline.intake, Intake.pending_foldl_take, List.mem_filter, decide_eq_true_eq]
      exact ⟨hstreams.1, hends.1⟩
    obtain ⟨readers', hkeep, hstep⟩ := exists_reachable_closed hr.1 hf
    have hne {s' : Stream} (hs' : s' ∈ ends) : s' ≠ s := fun e => hnot (e ▸ hs')
    obtain ⟨readers'', h⟩ := ih (as ++ [.closed s]) readers' hnodup hstreams.2
      (fun s' hs' => (hkeep s' (hne hs')).trans (hr.2 s' hs'))
      (fun s' hs' => by simpa [hne hs'] using hends.2 s' hs') (by simp [hsilence])
    rw [List.append_assoc] at h
    exact ⟨readers'', hstep.trans h⟩

theorem nodup_streams (c : Conduct) : c.streams.Nodup := by
  rw [streams]
  split <;> decide

theorem linesOf_eq {s : Stream} (hs : s ∈ c.streams) :
    c.linesOf s = (((c.output.filter fun l => c.streams.contains l.1).filter (·.1 = s)).map
      Prod.snd) ++ c.lateOf s := by
  have hfilter : (c.output.filter fun l => c.streams.contains l.1).filter (·.1 = s) =
      c.output.filter (·.1 = s) := by
    rw [List.filter_filter]
    refine List.filter_congr fun l _ => ?_
    by_cases e : l.1 = s
    · simp [e, hs]
    · simp [e]
  rw [hfilter, linesOf]

/-- All that comes of a scripted prober before the silence. -/
theorem exists_reachable_before_silence (c : Conduct) :
    ∃ readers, Pipeline.Reachable (.start 1 c.code c.streams c.linesOf)
      (c.pipeline (c.arrivals ++ [.exited c.code] ++
        (c.streams.filter (some · != c.held)).map .closed) readers .done) := by
  have hlines : ∀ s ∈ c.streams, (Pipeline.start 1 c.code c.streams c.linesOf).readers s =
      .reading (((c.output.filter fun l => c.streams.contains l.1).filter (·.1 = s)).map Prod.snd ++
        c.lateOf s) := by
    intro s hs
    rw [← linesOf_eq hs]
    exact if_pos hs
  obtain ⟨readers, hr, h₁⟩ := exists_reachable_lines [] _ c.lateOf _
    (fun l hl => by simpa using (List.mem_filter.1 hl).2) rfl nofun hlines
  have hcode : c.arrivals.filterMap Arrival.code? = [] := by
    simp [arrivals, Arrival.code?]
  have hsilence : .silence ∉ c.arrivals := by simp [arrivals]
  have hf : (c.pipeline c.arrivals readers .waiting).intake.finished = false := by
    refine Intake.not_finished_of_code (Intake.abandoned_foldl_take _ _ hsilence) ?_
    rw [Pipeline.intake, Intake.code_foldl_take, pipeline, hcode]
    rfl
  have h₂ := reachable_exited hf
  obtain ⟨readers', h₃⟩ := exists_reachable_ends (c := c) (w := .done)
    (c.arrivals ++ [.exited c.code]) readers (c.streams.filter (some · != c.held))
    (c.nodup_streams.filter _) (fun s hs => (List.mem_filter.1 hs).1)
    (fun s hs => by
      obtain ⟨hs, hheld⟩ := List.mem_filter.1 hs
      rw [hr s hs, lateOf, if_neg (by simpa using Ne.symm (bne_iff_ne.1 hheld))])
    (fun s _ => by simp [arrivals]) (by simp [arrivals])
  exact ⟨readers', (Steps.trans h₁ h₂).trans h₃⟩

/-- Everything is taken as the script has it. What comes after the end of the watch is not. -/
theorem exists_reachable_finished (c : Conduct) :
    ∃ p rest, Pipeline.Reachable (.start 1 c.code c.streams c.linesOf) p ∧
      p.streams = c.streams ∧ p.intake.finished = true ∧
      c.arrivals ++ c.ending = p.taken ++ rest := by
  obtain ⟨readers, h⟩ := exists_reachable_before_silence c
  generalize has : c.arrivals ++ [.exited c.code] ++
    (c.streams.filter (some · != c.held)).map .closed = as at h
  have hscript : c.arrivals ++ c.ending =
      as ++ .silence :: c.held.toList.flatMap fun s => c.late.map (.line s) := by
    simp [← has, ending]
  cases hf : (c.pipeline as readers .done).intake.finished with
  | true => exact ⟨_, _, h, rfl, hf, hscript⟩
  | false =>
    have hcode : (c.pipeline as readers .done).intake.code.isSome := by
      rw [Pipeline.intake, Intake.code_foldl_take, Option.or_none, List.getLast?_isSome]
      refine List.ne_nil_of_mem (List.mem_filterMap.2 ⟨.exited c.code, ?_, rfl⟩)
      simp [pipeline, ← has]
    have habandoned : ((c.pipeline as readers .done).intake.take .silence).abandoned = true := by
      rw [Intake.take, if_pos hcode]
    refine ⟨_, c.held.toList.flatMap fun s => c.late.map (.line s),
      h.tail (.timeOut rfl hcode hf), rfl, ?_, ?_⟩
    · rw [Pipeline.intake, List.foldl_append, List.foldl_cons, List.foldl_nil, Intake.finished]
      exact Bool.or_eq_true_iff.2 (.inl habandoned)
    · rw [hscript, List.append_assoc]
      rfl

/-- What is taken in of a scripted prober, its threads and its queue can bring about. -/
theorem exists_pipeline (c : Conduct) :
    ∃ p, Pipeline.Reachable (.start 1 c.code c.streams c.linesOf) p ∧ p.intake.finished = true ∧
      ∀ {σ : Type} (ingest : σ → Stream → String → σ) (x : σ),
        Intake.drain ingest { pending := c.streams } x (c.arrivals ++ c.ending) =
          (p.intake, p.ingested.foldl (fun x l => ingest x l.1 l.2) x) := by
  obtain ⟨p, rest, h, hstreams, hf, hscript⟩ := exists_reachable_finished c
  refine ⟨p, h, hf, fun ingest x => ?_⟩
  have hdrain := (Pipeline.heeded_of_reachable h).drain ingest x
  rw [hstreams] at hdrain
  rw [hscript, Intake.drain_append, hdrain, Intake.drain_of_finished _ _ hf]

end Conduct

end EchoMetrics.Supervision
