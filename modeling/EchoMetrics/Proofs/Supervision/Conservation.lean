import EchoMetrics.Supervision.Pipeline

/-! # What is conserved between a prober and the registry

Main statements: of each stream, what was taken, what stands in the queue and what its reader still
has to pass on are together what the prober writes, in this order, at any time; and what was taken
so far is what the drain of a scripted prober would have taken. -/

namespace EchoMetrics.Supervision

/-! ## What was taken tells what is waited for -/

namespace Intake

variable (i : Intake) (as : List Arrival)

theorem pending_foldl_take :
    (as.foldl take i).pending = i.pending.filter fun s => decide (.closed s ∉ as) := by
  induction as generalizing i with
  | nil => exact (List.filter_eq_self.2 fun _ _ => by simp).symm
  | cons a as ih =>
    rw [List.foldl_cons, ih]
    cases a with
    | closed s =>
      rw [take, List.filter_filter]
      apply List.filter_congr
      intro s' _
      by_cases h : s' = s <;> simp [h]
    | line | exited => simp [take]
    | silence =>
      rw [take]
      split <;> simp

theorem code_foldl_take :
    (as.foldl take i).code = ((as.filterMap Arrival.code?).getLast?).or i.code := by
  induction as generalizing i with
  | nil => rfl
  | cons a as ih =>
    rw [List.foldl_cons, ih]
    cases a with
    | exited code =>
      have hcons : (Arrival.exited code :: as).filterMap Arrival.code? =
          code :: as.filterMap Arrival.code? := rfl
      rw [take, hcons, List.getLast?_cons]
      cases (as.filterMap Arrival.code?).getLast? <;> rfl
    | line | closed => rfl
    | silence =>
      rw [take, List.filterMap_cons_none rfl]
      split <;> rfl

theorem abandoned_foldl_take (h : Arrival.silence ∉ as) :
    (as.foldl take i).abandoned = i.abandoned := by
  induction as generalizing i with
  | nil => rfl
  | cons a as ih =>
    rw [List.foldl_cons, ih _ (List.not_mem_of_not_mem_cons h)]
    cases a with
    | silence => exact absurd List.mem_cons_self h
    | line | closed | exited => rfl

theorem not_abandoned_of_not_finished {i : Intake} (h : i.finished = false) :
    i.abandoned = false := by
  rw [finished, Bool.or_eq_false_iff] at h
  exact h.1

/-- One arrival more. -/
theorem drain_singleton {σ : Type} (ingest : σ → Stream → String → σ) {i : Intake}
    (h : i.finished = false) (x : σ) (a : Arrival) :
    drain ingest i x [a] =
      (i.take a, a.line?.toList.foldl (fun x l => ingest x l.1 l.2) x) := by
  cases a <;> simp [drain, h, take]

end Intake

/-! ## Nothing is lost -/

/-- What a reader has still to pass on. -/
def Reader.rest (s : Stream) : Reader → List Arrival
  | .reading lines => lines.map (.line s) ++ [.closed s]
  | .closing => [.closed s]
  | .done => []

/-- The exits that are still to be told. -/
def Waiter.rest (code : Int) : Waiter → List Int
  | .waiting | .exited => [code]
  | .done => []

namespace Pipeline

variable {p q : Pipeline}

/-- What arrived so far. -/
def arrivals (p : Pipeline) : List Arrival := p.taken ++ p.queue

def arrivalsOf (p : Pipeline) (s : Stream) : List Arrival :=
  p.arrivals.filter fun a => a.stream? = some s

/-- What arrives of a stream in the end. -/
def script (p : Pipeline) (s : Stream) : List Arrival :=
  if s ∈ p.streams then (p.lines s).map (.line s) ++ [.closed s] else []

/-- What arrived, and what is still passed on, is what the prober writes and its one exit. Readers
that have stopped pass nothing on. -/
structure Conserved (p : Pipeline) : Prop where
  isPrefix : ∀ s, p.arrivalsOf s ++ (p.readers s).rest s <+: p.script s
  eq : p.intake.abandoned = false → ∀ s, p.arrivalsOf s ++ (p.readers s).rest s = p.script s
  exit : p.arrivals.filterMap Arrival.code? ++ p.waiter.rest p.code = [p.code]

theorem conserved_start (capacity : Nat) (code : Int) (streams : List Stream)
    (lines : Stream → List String) : (start capacity code streams lines).Conserved := by
  have h (s : Stream) : (start capacity code streams lines).arrivalsOf s ++
      ((start capacity code streams lines).readers s).rest s =
        (start capacity code streams lines).script s := by
    simp only [start, arrivalsOf, arrivals, script]
    by_cases hs : s ∈ streams <;> simp [hs, Reader.rest]
  exact ⟨fun s => (h s).symm ▸ List.prefix_rfl, fun _ => h, rfl⟩

namespace Conserved

/-- What a step moves between the threads and the queue, without a trace for any of the streams. -/
theorem congr (h : p.Conserved) (hs : q.script = p.script)
    (ha : ∀ s, q.arrivalsOf s = p.arrivalsOf s)
    (hr : ∀ s, (q.readers s).rest s = (p.readers s).rest s)
    (he : q.arrivals.filterMap Arrival.code? ++ q.waiter.rest q.code = [q.code])
    (hi : q.intake.abandoned = false → p.intake.abandoned = false) : q.Conserved := by
  refine ⟨fun s => ?_, fun hq s => ?_, he⟩
  · rw [hs, ha, hr]
    exact h.isPrefix s
  · rw [hs, ha, hr]
    exact h.eq (hi hq) s

/-- A reader passes on what comes next. -/
theorem pass (h : p.Conserved) {s : Stream} {a : Arrival} {r : Reader} (ha : a.stream? = some s)
    (hr : (p.readers s).rest s = a :: r.rest s) : ((p.put a).setReader s r).Conserved := by
  have hsame (s' : Stream) : ((p.put a).setReader s r).arrivalsOf s' ++
      (((p.put a).setReader s r).readers s').rest s' =
        p.arrivalsOf s' ++ (p.readers s').rest s' := by
    simp only [arrivalsOf, arrivals, setReader, put, ← List.append_assoc, List.filter_append]
    by_cases e : s' = s
    · subst e
      simp [hr, ha]
    · simp [ha, e, Ne.symm e]
  refine ⟨fun s' => ?_, fun hq s' => ?_, ?_⟩
  · rw [hsame]
    exact h.isPrefix s'
  · rw [hsame]
    exact h.eq hq s'
  · have hcode : [a].filterMap Arrival.code? = [] := by
      cases a with
      | exited => exact absurd ha nofun
      | line | closed | silence => rfl
    have := h.exit
    simpa [arrivals, setReader, put, hcode] using this

theorem giveUp (h : p.Conserved) (s : Stream) (ha : p.intake.abandoned = true) :
    (p.setReader s .done).Conserved := by
  refine ⟨fun s' => ?_, fun hq => absurd (ha.symm.trans hq) nofun, h.exit⟩
  by_cases e : s' = s
  · subst e
    have hdone : ((p.setReader s' .done).readers s').rest s' = [] := by
      simp [setReader, Reader.rest]
    rw [hdone, List.append_nil]
    exact (List.prefix_append _ _).trans (h.isPrefix s')
  · have hother : (p.setReader s .done).readers s' = p.readers s' := if_neg e
    rw [hother]
    exact h.isPrefix s'

theorem step (h : p.Conserved) (hs : p.Step q) : q.Conserved := by
  cases hs with
  | post hr => exact h.pass rfl (by rw [hr]; rfl)
  | @finish s hr =>
    refine h.congr rfl (fun _ => rfl) (fun s' => ?_) h.exit id
    by_cases e : s' = s
    · subst e
      simp [setReader, hr, Reader.rest]
    · simp [setReader, e]
  | close hr => exact h.pass rfl (by rw [hr]; rfl)
  | giveUp _ ha => exact h.giveUp _ ha
  | exit hw =>
    refine h.congr rfl (fun _ => rfl) (fun _ => rfl) ?_ id
    have := h.exit
    rwa [hw] at this
  | report hw =>
    refine h.congr rfl (fun s => ?_) (fun _ => rfl) ?_ id
    · simp [arrivalsOf, arrivals, put]
    · have hcode : [Arrival.exited p.code].filterMap Arrival.code? = [p.code] := rfl
      have := h.exit
      rw [hw] at this
      simpa [arrivals, put, hcode, Waiter.rest] using this
  | @take a rest hq hf =>
    have he : (p.taken ++ [a]) ++ rest = p.arrivals := by
      rw [List.append_assoc, arrivals, hq]
      rfl
    refine h.congr rfl (fun s => ?_) (fun _ => rfl) ?_
      fun _ => Intake.not_abandoned_of_not_finished hf
    · simp only [arrivalsOf, arrivals, he]
    · simpa only [arrivals, he] using h.exit
  | timeOut hq _ hf =>
    refine h.congr rfl (fun s => ?_) (fun _ => rfl) ?_
      fun _ => Intake.not_abandoned_of_not_finished hf
    · simp [arrivalsOf, arrivals, hq]
    · have hcode : [Arrival.silence].filterMap Arrival.code? = [] := rfl
      have := h.exit
      simpa [arrivals, hq, hcode] using this

end Conserved

/-! ## What was taken -/

/-- Nothing is taken once the watch is over, and silence is what it is given up for. -/
structure Heeded (p : Pipeline) : Prop where
  queue : .silence ∉ p.queue
  taken : p.intake.abandoned = false → .silence ∉ p.taken
  silence : p.intake.abandoned = true →
    ∃ as, p.taken = as ++ [.silence] ∧ .silence ∉ as ∧
      (as.foldl Intake.take { pending := p.streams }).code.isSome
  drain : ∀ {σ : Type} (ingest : σ → Stream → String → σ) (x : σ),
    Intake.drain ingest { pending := p.streams } x p.taken =
      (p.intake, p.ingested.foldl (fun x l => ingest x l.1 l.2) x)

theorem heeded_start (capacity : Nat) (code : Int) (streams : List Stream)
    (lines : Stream → List String) : (start capacity code streams lines).Heeded :=
  ⟨List.not_mem_nil, fun _ => List.not_mem_nil, nofun, fun _ _ => rfl⟩

/-- One arrival more is one step of the drain more. -/
theorem drain_append_singleton (h : p.Heeded) (hf : p.intake.finished = false) (a : Arrival)
    {σ : Type} (ingest : σ → Stream → String → σ) (x : σ) :
    Intake.drain ingest { pending := p.streams } x (p.taken ++ [a]) =
      (({ p with taken := p.taken ++ [a] } : Pipeline).intake,
        (({ p with taken := p.taken ++ [a] } : Pipeline).ingested).foldl
          (fun x l => ingest x l.1 l.2) x) := by
  rw [Intake.drain_append, h.drain, Intake.drain_singleton ingest hf]
  have hline : [a].filterMap Arrival.line? = a.line?.toList := by cases a <;> rfl
  simp only [intake, ingested, List.foldl_append, List.filterMap_append, hline, List.foldl_cons,
    List.foldl_nil]

namespace Heeded

/-- Threads other than the supervising one only put what they know. -/
theorem congr (h : p.Heeded) (hs : q.streams = p.streams) (ht : q.taken = p.taken)
    (hq : .silence ∉ q.queue) : q.Heeded := by
  have hi : q.intake = p.intake := by rw [intake, intake, hs, ht]
  have hl : q.ingested = p.ingested := by rw [ingested, ingested, ht]
  refine ⟨hq, ?_, ?_, fun ingest x => ?_⟩
  · rw [hi, ht]
    exact h.taken
  · rw [hi, ht, hs]
    exact h.silence
  · rw [hi, ht, hs, hl]
    exact h.drain ingest x

theorem put (h : p.Heeded) {a : Arrival} (ha : a ≠ .silence) : .silence ∉ (p.put a).queue := by
  simp only [Pipeline.put, List.mem_append, List.mem_singleton, not_or]
  exact ⟨h.queue, ha.symm⟩

theorem step (h : p.Heeded) (hs : p.Step q) : q.Heeded := by
  cases hs with
  | post | close => exact h.congr rfl rfl (h.put nofun)
  | report => exact h.congr rfl rfl (h.put nofun)
  | finish | giveUp | exit => exact h.congr rfl rfl h.queue
  | @take a rest hq hf =>
    have hqueue := h.queue
    rw [hq] at hqueue
    have htaken : Arrival.silence ∉ p.taken ++ [a] := by
      have := h.taken (Intake.not_abandoned_of_not_finished hf)
      simp_all
    refine ⟨List.not_mem_of_not_mem_cons hqueue, fun _ => htaken, fun ha => ?_,
      fun ingest x => drain_append_singleton h hf a ingest x⟩
    exact absurd ((Intake.abandoned_foldl_take _ _ htaken).symm.trans ha) nofun
  | timeOut hq hc hf =>
    have htaken := h.taken (Intake.not_abandoned_of_not_finished hf)
    refine ⟨h.queue, fun ha => ?_, fun _ => ⟨p.taken, rfl, htaken, hc⟩,
      fun ingest x => drain_append_singleton h hf .silence ingest x⟩
    have habandoned : (p.intake.take .silence).abandoned = true := by rw [Intake.take, if_pos hc]
    simp only [intake, List.foldl_append, List.foldl_cons, List.foldl_nil] at ha habandoned
    exact absurd (habandoned.symm.trans ha) nofun

end Heeded

theorem conserved_of_reachable {capacity : Nat} {code : Int} {streams : List Stream}
    {lines : Stream → List String} (h : Reachable (start capacity code streams lines) p) :
    p.Conserved :=
  h.invariant (conserved_start capacity code streams lines) fun _ _ => .step

theorem heeded_of_reachable {capacity : Nat} {code : Int} {streams : List Stream}
    {lines : Stream → List String} (h : Reachable (start capacity code streams lines) p) :
    p.Heeded :=
  h.invariant (heeded_start capacity code streams lines) fun _ _ => .step

end Pipeline

end EchoMetrics.Supervision
