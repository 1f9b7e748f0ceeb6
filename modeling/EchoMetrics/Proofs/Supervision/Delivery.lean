import EchoMetrics.Proofs.Supervision.Conservation

/-! # Every line arrives once

What a prober writes is passed on by several threads, and an exit can overtake the lines before it.
Main statement: whatever the threads do in whatever order, all lines of a prober are taken in before
its watch is over, unless nothing comes for too long after its exit, and none is taken in
afterwards, least of all while the next prober is watched. -/

namespace EchoMetrics.Supervision

namespace Pipeline

variable {p q : Pipeline}

/-! ## How a watch ends -/

/-- Everything was taken: the exit, and each stream to its end. -/
structure Complete (p : Pipeline) : Prop where
  code : p.intake.code = some p.code
  exit : .exited p.code ∈ p.taken
  ends : ∀ s ∈ p.streams, .closed s ∈ p.taken
  lines : ∀ s, p.ingestedOf s = p.written s

/-- The watch was given up after the exit, with what was taken until then. -/
structure CutShort (p : Pipeline) : Prop where
  code : p.intake.code = some p.code
  silence : ∃ as, p.taken = as ++ [.silence] ∧ .silence ∉ as ∧ .exited p.code ∈ as ∧
    p.ingested = as.filterMap Arrival.line?
  lines : ∀ s, p.ingestedOf s <+: p.written s

theorem takenOf_isPrefix_script (h : p.Conserved) (s : Stream) :
    (p.taken.filter fun a => a.stream? = some s) <+: p.script s := by
  refine List.IsPrefix.trans ?_ (h.isPrefix s)
  rw [arrivalsOf, arrivals, List.filter_append, List.append_assoc]
  exact List.prefix_append _ _

/-- The text of a line of a stream. -/
theorem ingestedOf_eq (p : Pipeline) (s : Stream) :
    p.ingestedOf s =
      (p.taken.filter fun a => a.stream? = some s).filterMap fun a => a.line?.map Prod.snd := by
  rw [ingestedOf, ingested, List.filter_filterMap, List.map_filterMap, List.filterMap_filter]
  congr 1
  funext a
  cases a with
  | line s' text => by_cases e : s' = s <;> simp [e]
  | closed s' => by_cases e : s' = s <;> simp [e]
  | exited | silence => simp

theorem filterMap_script (p : Pipeline) (s : Stream) :
    (p.script s).filterMap (fun a => a.line?.map Prod.snd) = p.written s := by
  by_cases hs : s ∈ p.streams
  · have hline : (p.lines s).filterMap (fun text => (Arrival.line s text).line?.map Prod.snd) =
        p.lines s := by
      simp
    rw [script, written, if_pos hs, if_pos hs, List.filterMap_append, List.filterMap_map]
    exact (List.append_nil _).trans hline
  · rw [script, written, if_neg hs, if_neg hs]
    rfl

theorem ingestedOf_isPrefix (h : p.Conserved) (s : Stream) : p.ingestedOf s <+: p.written s := by
  rw [ingestedOf_eq, ← filterMap_script]
  exact (takenOf_isPrefix_script h s).filterMap _

/-- The end of a stream comes after all of its lines. -/
theorem ingestedOf_of_closed (h : p.Conserved) {s : Stream} (hs : s ∈ p.streams)
    (hc : .closed s ∈ p.taken) : p.ingestedOf s = p.written s := by
  have hmem : Arrival.closed s ∈ p.taken.filter fun a => a.stream? = some s :=
    List.mem_filter.2 ⟨hc, by simp⟩
  have hp := takenOf_isPrefix_script h s
  have hscript := filterMap_script p s
  rw [script, if_pos hs] at hp hscript
  rcases List.prefix_concat_iff.1 hp with e | hp
  · rw [ingestedOf_eq, e, hscript]
  · exact absurd (hp.subset hmem) (by simp)

/-- An exit is taken with the code of the prober. -/
theorem code_of_mem (h : p.Conserved) {as : List Arrival} (has : as <+: p.taken)
    (hc : (as.foldl Intake.take { pending := p.streams }).code.isSome) :
    (as.foldl Intake.take { pending := p.streams }).code = some p.code ∧ .exited p.code ∈ as := by
  rw [Intake.code_foldl_take, Option.or_none] at hc ⊢
  obtain ⟨code, hcode⟩ := Option.isSome_iff_exists.1 hc
  have hmem := List.mem_of_getLast? hcode
  have hall : code ∈ p.arrivals.filterMap Arrival.code? ++ p.waiter.rest p.code := by
    refine List.mem_append_left _ ?_
    obtain ⟨a, ha, e⟩ := List.mem_filterMap.1 hmem
    exact List.mem_filterMap.2 ⟨a, List.mem_append_left _ (has.subset ha), e⟩
  rw [h.exit, List.mem_singleton] at hall
  subst hall
  obtain ⟨a, ha, e⟩ := List.mem_filterMap.1 hmem
  cases a with
  | exited code =>
    obtain rfl := Option.some.inj e
    exact ⟨hcode, ha⟩
  | line | closed | silence => exact absurd e nofun

theorem complete_of_finished (h : p.Conserved) (hf : p.intake.finished = true)
    (ha : p.intake.abandoned = false) : p.Complete := by
  rw [Intake.finished, ha, Bool.false_or, Bool.and_eq_true, List.isEmpty_iff] at hf
  obtain ⟨hpending, hcode⟩ := hf
  obtain ⟨hcode, hexit⟩ := code_of_mem h List.prefix_rfl hcode
  have hends : ∀ s ∈ p.streams, .closed s ∈ p.taken := by
    intro s hs
    rw [intake, Intake.pending_foldl_take, List.filter_eq_nil_iff] at hpending
    simpa using hpending s hs
  refine ⟨hcode, hexit, hends, fun s => ?_⟩
  by_cases hs : s ∈ p.streams
  · exact ingestedOf_of_closed h hs (hends s hs)
  · have hnone := ingestedOf_isPrefix h s
    rw [written, if_neg hs] at hnone ⊢
    exact List.prefix_nil.1 hnone

theorem cutShort_of_abandoned (h : p.Conserved) (hh : p.Heeded)
    (ha : p.intake.abandoned = true) : p.CutShort := by
  obtain ⟨as, htaken, hsilence, hc⟩ := hh.silence ha
  obtain ⟨hcode, hexit⟩ := code_of_mem h ⟨[.silence], htaken.symm⟩ hc
  refine ⟨?_, ⟨as, htaken, hsilence, hexit, ?_⟩, ingestedOf_isPrefix h⟩
  · rw [intake, htaken, List.foldl_append, List.foldl_cons, List.foldl_nil, Intake.take, if_pos hc]
    exact hcode
  · rw [ingested, htaken, List.filterMap_append]
    exact List.append_nil _

end Pipeline

/-! ## Every watch ends -/

/-- A bound on the steps that are left, where a line is one step to pass on and one to take. -/
def Reader.steps : Reader → Nat
  | .reading lines => 2 * lines.length + 3
  | .closing => 2
  | .done => 0

def Waiter.steps : Waiter → Nat
  | .waiting => 3
  | .exited => 2
  | .done => 0

namespace Pipeline

variable {p q : Pipeline}

def steps (p : Pipeline) : Nat :=
  (p.readers .stdout).steps + (p.readers .stderr).steps + p.waiter.steps + p.queue.length +
    if p.intake.abandoned then 0 else 1

theorem steps_setReader (p : Pipeline) (s : Stream) (r : Reader) :
    (p.setReader s r).steps + (p.readers s).steps = p.steps + r.steps := by
  have hi : (p.setReader s r).intake = p.intake := rfl
  cases s <;> simp [steps, hi] <;> simp [setReader] <;> omega

theorem steps_put (p : Pipeline) (a : Arrival) : (p.put a).steps = p.steps + 1 := by
  have hi : (p.put a).intake = p.intake := rfl
  simp only [steps, hi]
  simp only [put, List.length_append, List.length_singleton]
  omega

theorem steps_lt_of_step (h : p.Step q) : q.steps < p.steps := by
  cases h with
  | @post s line lines hr =>
    have := steps_setReader (p.put (.line s line)) s (.reading lines)
    rw [steps_put, show (p.put (.line s line)).readers s = _ from hr] at this
    simp only [Reader.steps, List.length_cons] at this
    omega
  | @finish s hr =>
    have := steps_setReader p s .closing
    rw [hr] at this
    simp only [Reader.steps, List.length_nil] at this
    omega
  | @close s hr =>
    have := steps_setReader (p.put (.closed s)) s .done
    rw [steps_put, show (p.put (.closed s)).readers s = _ from hr] at this
    simp only [Reader.steps] at this
    omega
  | @giveUp s hr =>
    have := steps_setReader p s .done
    cases hreader : p.readers s with
    | done => exact absurd hreader hr
    | reading | closing =>
      rw [hreader] at this
      simp only [Reader.steps] at this
      omega
  | exit hw =>
    have hi : ({ p with waiter := .exited } : Pipeline).intake = p.intake := rfl
    simp only [steps, hi, hw, Waiter.steps]
    omega
  | report hw =>
    have hi : ({ p.put (.exited p.code) with waiter := .done } : Pipeline).intake = p.intake := rfl
    simp only [steps, hi, hw]
    simp only [put, Waiter.steps, List.length_append, List.length_singleton]
    omega
  | take hq hf =>
    simp only [steps, hq, Intake.not_abandoned_of_not_finished hf, List.length_cons,
      Bool.false_eq_true, if_false]
    split <;> omega
  | timeOut hq hc hf =>
    have hi : ({ p with taken := p.taken ++ [.silence] } : Pipeline).intake.abandoned = true := by
      have : (p.intake.take .silence).abandoned = true := by rw [Intake.take, if_pos hc]
      simpa only [intake, List.foldl_append, List.foldl_cons, List.foldl_nil] using this
    simp only [steps, hi, Intake.not_abandoned_of_not_finished hf]
    simp

/-- There is no run without an end. -/
theorem acc_step (p : Pipeline) : Acc (fun q p : Pipeline => p.Step q) p :=
  Subrelation.accessible (fun h => steps_lt_of_step h)
    (InvImage.accessible steps (Nat.lt_wfRel.wf.apply _))

/-- While something is missing, one of the threads can go on. -/
theorem exists_step (h : p.Conserved) (hh : p.Heeded) (hcapacity : 1 ≤ p.capacity)
    (hf : p.intake.finished = false) : ∃ q, p.Step q ∧ q.intake.abandoned = false := by
  have ha := Intake.not_abandoned_of_not_finished hf
  cases hq : p.queue with
  | cons a rest =>
    refine ⟨_, .take hq hf, ?_⟩
    have hqueue := hh.queue
    have htaken := hh.taken ha
    rw [hq] at hqueue
    exact Intake.abandoned_foldl_take _ _ (by simp_all)
  | nil =>
    have hroom : p.HasRoom := by rw [HasRoom, hq]; exact hcapacity
    have htaken : p.arrivals = p.taken := by rw [arrivals, hq, List.append_nil]
    rw [Intake.finished, ha, Bool.false_or, Bool.and_eq_false_iff] at hf
    rcases hf with hf | hf
    · -- A stream is open, so its reader has not told its end yet.
      obtain ⟨s, hs⟩ := List.exists_mem_of_ne_nil _ (by simpa using hf)
      rw [intake, Intake.pending_foldl_take, List.mem_filter, decide_eq_true_eq] at hs
      cases hr : p.readers s with
      | reading lines =>
        cases lines with
        | nil => exact ⟨_, .finish hr, ha⟩
        | cons line lines => exact ⟨_, .post hr hroom, ha⟩
      | closing => exact ⟨_, .close hr hroom, ha⟩
      | done =>
        have hall := h.eq ha s
        rw [hr, Reader.rest, List.append_nil, script, if_pos hs.1, arrivalsOf, htaken] at hall
        have hmem : Arrival.closed s ∈ p.taken.filter fun a => a.stream? = some s := by
          rw [hall]
          exact List.mem_append_right _ List.mem_cons_self
        exact absurd (List.mem_filter.1 hmem).1 hs.2
    · -- The exit was not told yet.
      cases hw : p.waiter with
      | waiting => exact ⟨_, .exit hw, ha⟩
      | exited => exact ⟨_, .report hw hroom, ha⟩
      | done =>
        have hexit := h.exit
        rw [hw, Waiter.rest, List.append_nil, htaken] at hexit
        rw [intake, Intake.code_foldl_take, hexit] at hf
        cases hf

/-! ## Nothing is taken afterwards -/

theorem taken_of_step (h : p.Step q) :
    q.streams = p.streams ∧
      (q.taken = p.taken ∨ p.intake.finished = false ∧ ∃ a, q.taken = p.taken ++ [a]) := by
  cases h with
  | take _ hf => exact ⟨rfl, .inr ⟨hf, _, rfl⟩⟩
  | timeOut _ _ hf => exact ⟨rfl, .inr ⟨hf, _, rfl⟩⟩
  | post | finish | close | giveUp | exit | report => exact ⟨rfl, .inl rfl⟩

theorem ingested_isPrefix_of_step (h : p.Step q) : p.ingested <+: q.ingested := by
  rcases (taken_of_step h).2 with e | ⟨-, a, e⟩
  · have he : q.ingested = p.ingested := congrArg (List.filterMap Arrival.line?) e
    exact he ▸ List.prefix_rfl
  · rw [ingested, ingested, e, List.filterMap_append]
    exact List.prefix_append _ _

theorem of_step_of_finished (h : p.Step q) (hf : p.intake.finished = true) :
    q.intake.finished = true ∧ q.ingested = p.ingested := by
  obtain ⟨hs, e | ⟨hf', -⟩⟩ := taken_of_step h
  · exact ⟨by rwa [intake, hs, e], by rw [ingested, ingested, e]⟩
  · exact (Bool.false_ne_true (hf'.symm.trans hf)).elim

end Pipeline

/-! ## One prober after another -/

namespace Watch

variable {w w' : Watch} {i : Nat} {p : Pipeline}

/-- Every prober has come of its launch, all but the last are done with, and the lines were applied
prober by prober. -/
structure Ordered (w : Watch) : Prop where
  launched : ∀ p ∈ w.probers, ∃ capacity code streams lines,
    Pipeline.Reachable (.start capacity code streams lines) p
  finished : ∀ {i : Nat} {p : Pipeline}, w.probers[i]? = some p → i + 1 < w.probers.length →
    p.intake.finished = true
  applied : w.applied = w.probers.flatMap Pipeline.ingested

theorem ordered_init : Ordered {} := ⟨nofun, nofun, rfl⟩

theorem applied_within {ps : List Pipeline} {p' : Pipeline} (h : ps[i]? = some p)
    (hf : i + 1 < ps.length → p.intake.finished = true) (hs : p.Step p') :
    ps.flatMap Pipeline.ingested ++ p'.ingested.drop p.ingested.length =
      (ps.set i p').flatMap Pipeline.ingested := by
  obtain ⟨hi, rfl⟩ := List.getElem?_eq_some_iff.1 h
  obtain ⟨more, hmore⟩ := Pipeline.ingested_isPrefix_of_step hs
  have hsplit : ps.flatMap Pipeline.ingested = (ps.take i).flatMap Pipeline.ingested ++
      (ps[i].ingested ++ (ps.drop (i + 1)).flatMap Pipeline.ingested) := by
    rw [← List.flatMap_cons, ← List.drop_eq_getElem_cons hi, ← List.flatMap_append,
      List.take_append_drop]
  rw [List.set_eq_take_append_cons_drop, if_pos hi, List.flatMap_append, List.flatMap_cons, hsplit,
    ← hmore, List.drop_left]
  by_cases hlast : i + 1 < ps.length
  · have hnone : more = [] := by
      have := (Pipeline.of_step_of_finished hs (hf hlast)).2
      rw [← hmore] at this
      simpa using this
    simp [hnone]
  · simp [List.drop_eq_nil_of_le (Nat.not_lt.1 hlast)]

theorem Ordered.step (h : w.Ordered) (hs : w.Step w') : w'.Ordered := by
  cases hs with
  | @within i p p' hp hs =>
    have hmem := List.mem_of_getElem? hp
    refine ⟨fun q hq => ?_, fun {j q} hj hlast => ?_, ?_⟩
    · rcases List.mem_or_eq_of_mem_set hq with hq | rfl
      · exact h.launched q hq
      · obtain ⟨capacity, code, streams, lines, hr⟩ := h.launched p hmem
        exact ⟨capacity, code, streams, lines, hr.tail hs⟩
    · rw [List.length_set] at hlast
      rw [List.getElem?_set] at hj
      split at hj
      · rename_i e
        subst e
        split at hj
        · obtain rfl := Option.some.inj hj
          exact (Pipeline.of_step_of_finished hs (h.finished hp hlast)).1
        · exact absurd hj nofun
      · exact h.finished hj hlast
    · exact (congrArg (· ++ _) h.applied).trans (applied_within hp (h.finished hp) hs)
  | next hf capacity code streams lines =>
    refine ⟨fun q hq => ?_, fun {j q} hj hlast => ?_, ?_⟩
    · rcases List.mem_append.1 hq with hq | hq
      · exact h.launched q hq
      · obtain rfl := List.mem_singleton.1 hq
        exact ⟨capacity, code, streams, lines, .refl⟩
    · rw [List.length_append, List.length_singleton] at hlast
      rw [List.getElem?_append_left (by omega)] at hj
      exact hf q (List.mem_of_getElem? hj)
    · rw [List.flatMap_append]
      exact h.applied.trans (List.append_nil _).symm

theorem ordered_of_reachable (h : Reachable {} w) : w.Ordered :=
  h.invariant ordered_init fun _ _ => .step

/-- Once a prober is done with, so it stays, with the same lines. -/
theorem ingested_of_reachable (h : Reachable w w') (hp : w.probers[i]? = some p)
    (hf : p.intake.finished = true) :
    ∃ p', w'.probers[i]? = some p' ∧ p'.intake.finished = true ∧ p'.ingested = p.ingested := by
  refine h.invariant (p := fun w => ∃ p', w.probers[i]? = some p' ∧ p'.intake.finished = true ∧
    p'.ingested = p.ingested) ⟨p, hp, hf, rfl⟩ ?_
  rintro w w' ⟨q, hq, hqf, hl⟩ hs
  cases hs with
  | @within j r r' hr hs =>
    by_cases e : j = i
    · subst e
      obtain rfl := Option.some.inj (hq.symm.trans hr)
      obtain ⟨hrf, hrl⟩ := Pipeline.of_step_of_finished hs hqf
      have hj := (List.getElem?_eq_some_iff.1 hr).1
      exact ⟨r', List.getElem?_set_self hj, hrf, hrl.trans hl⟩
    · exact ⟨q, (List.getElem?_set_ne e).trans hq, hqf, hl⟩
  | next =>
    have hi := (List.getElem?_eq_some_iff.1 hq).1
    exact ⟨q, (List.getElem?_append_left hi).trans hq, hqf, hl⟩

/-- What is applied after a prober was done with comes from the ones launched later. -/
theorem applied_of_reachable (h : Reachable {} w) (h' : Reachable w w')
    (hp : w.probers[i]? = some p) (hf : p.intake.finished = true) :
    w'.applied = (w.probers.take (i + 1)).flatMap Pipeline.ingested ++
      (w'.probers.drop (i + 1)).flatMap Pipeline.ingested := by
  have hw := ordered_of_reachable h
  have hi := (List.getElem?_eq_some_iff.1 hp).1
  have hsame : (w'.probers.take (i + 1)).map Pipeline.ingested =
      (w.probers.take (i + 1)).map Pipeline.ingested := by
    apply List.ext_getElem?
    intro j
    rw [List.getElem?_map, List.getElem?_map, List.getElem?_take, List.getElem?_take]
    split
    · rename_i hj
      have hq := List.getElem?_eq_getElem (l := w.probers) (i := j) (by omega)
      have hqf : (w.probers[j]).intake.finished = true := by
        by_cases e : j = i
        · subst e
          obtain rfl := Option.some.inj (hq.symm.trans hp)
          exact hf
        · exact hw.finished hq (by omega)
      obtain ⟨q', hq', -, hl⟩ := ingested_of_reachable h' hq hqf
      rw [hq, hq', Option.map_some, Option.map_some, hl]
    · rfl
  calc
    w'.applied = w'.probers.flatMap Pipeline.ingested := (ordered_of_reachable (h.trans h')).applied
    _ = (w'.probers.take (i + 1)).flatMap Pipeline.ingested ++
        (w'.probers.drop (i + 1)).flatMap Pipeline.ingested := by
      rw [← List.flatMap_append, List.take_append_drop]
    _ = (w.probers.take (i + 1)).flatMap Pipeline.ingested ++
        (w'.probers.drop (i + 1)).flatMap Pipeline.ingested := by
      rw [List.flatMap_def, hsame, ← List.flatMap_def]

/-- Whatever the threads of the probers and the supervising thread do in whatever order, of each
prober holds: if its watch is over because everything has come, every line of its streams was taken
in once and in order, after which there is nothing but its code to tell. If silence has ended the
watch, that was after the exit, and what was taken in begins both streams. The supervising thread
has done what the drain does with all that it took. Once the watch is over, lines of other probers
only are applied, which were launched later. Until it is over, there is something to do other than
giving up, and it cannot go on forever. -/
theorem delivery (h : Reachable {} w) (hp : w.probers[i]? = some p) :
    (p.intake.finished = true → p.intake.abandoned = false → p.Complete) ∧
      (p.intake.abandoned = true → p.CutShort) ∧
      (∀ {σ : Type} (ingest : σ → Stream → String → σ) (x : σ),
        Intake.drain ingest { pending := p.streams } x p.taken =
          (p.intake, p.ingested.foldl (fun x l => ingest x l.1 l.2) x)) ∧
      (p.intake.finished = true → ∀ w', Reachable w w' →
        (∃ p', w'.probers[i]? = some p' ∧ p'.intake.finished = true ∧ p'.ingested = p.ingested) ∧
          w'.applied = (w.probers.take (i + 1)).flatMap Pipeline.ingested ++
            (w'.probers.drop (i + 1)).flatMap Pipeline.ingested) ∧
      (1 ≤ p.capacity → p.intake.finished = false →
        ∃ q, p.Step q ∧ q.intake.abandoned = false) ∧
      Acc (fun q p : Pipeline => p.Step q) p := by
  obtain ⟨capacity, code, streams, lines, hr⟩ :=
    (ordered_of_reachable h).launched p (List.mem_of_getElem? hp)
  have hc := Pipeline.conserved_of_reachable hr
  have hh := Pipeline.heeded_of_reachable hr
  refine ⟨Pipeline.complete_of_finished hc, Pipeline.cutShort_of_abandoned hc hh, hh.drain, ?_,
    Pipeline.exists_step hc hh, Pipeline.acc_step p⟩
  intro hf w' h'
  exact ⟨ingested_of_reachable h' hp hf, applied_of_reachable h h' hp hf⟩

/-- A queue with room for one arrival only, and an exit between the lines and the end of the stream
that they come from. -/
theorem delivery_complete :
    ∃ w p, Reachable {} w ∧ w.probers[0]? = some p ∧ p.lines .stdout = ["a", "b"] ∧
      p.intake.finished = true ∧ p.intake.abandoned = false ∧ p.Complete ∧
      ∀ w', Reachable w w' → ∃ p', w'.probers[0]? = some p' ∧ p'.intake.finished = true ∧
        p'.ingested = p.ingested := by
  have h₁ : Reachable {} _ := .tail .refl
    (.next (fun _ hp => absurd hp List.not_mem_nil) 1 0 [.stdout] fun _ => ["a", "b"])
  have h₂ : Reachable {} _ := h₁.tail (.within (i := 0) rfl (.exit rfl))
  have h₃ : Reachable {} _ := h₂.tail (.within (i := 0) rfl (.post (s := .stdout) rfl Nat.one_pos))
  have h₄ : Reachable {} _ := h₃.tail (.within (i := 0) rfl (.take rfl rfl))
  have h₅ : Reachable {} _ := h₄.tail (.within (i := 0) rfl (.post (s := .stdout) rfl Nat.one_pos))
  have h₆ : Reachable {} _ := h₅.tail (.within (i := 0) rfl (.take rfl rfl))
  have h₇ : Reachable {} _ := h₆.tail (.within (i := 0) rfl (.report rfl Nat.one_pos))
  have h₈ : Reachable {} _ := h₇.tail (.within (i := 0) rfl (.take rfl rfl))
  have h₉ : Reachable {} _ := h₈.tail (.within (i := 0) rfl (.finish (s := .stdout) rfl))
  have h₁₀ : Reachable {} _ := h₉.tail
    (.within (i := 0) rfl (.close (s := .stdout) rfl Nat.one_pos))
  have h₁₁ : Reachable {} _ := h₁₀.tail (.within (i := 0) rfl (.take rfl rfl))
  obtain ⟨hcomplete, -, -, hlater, -⟩ := delivery h₁₁ (i := 0) rfl
  exact ⟨_, _, h₁₁, rfl, rfl, rfl, rfl, hcomplete rfl rfl, fun w' hw => (hlater rfl w' hw).1⟩

end Watch

end EchoMetrics.Supervision
