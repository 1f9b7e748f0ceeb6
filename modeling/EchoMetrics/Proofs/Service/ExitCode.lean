import EchoMetrics.Proofs.Service.Foreseen
import EchoMetrics.Proofs.Service.Script
import EchoMetrics.Proofs.Supervision.Failure

/-! # What exit codes tell

What was seen while the exporter served is a number of launches, and perhaps a failure at the end.
The cases that are left are those of the exit codes, and that of a call for the version that breaks
off. Main statement: in foreseen surroundings the exit code tells why the exporter stopped. -/

namespace EchoMetrics.Service

open Supervision

/-! ## Sights -/

section

variable {w : Surroundings} {seen : Sight} {s : Settings} {n : Nat} {o : Occurrence}

theorem Sight.not_failsLater (h : ∀ o ∈ seen.occurrences, o.isFailure = false) :
    ¬ seen.FailsLater := by
  rintro ⟨o, ho, hs⟩
  have hm : o ∈ seen.occurrences := hs.subset (List.mem_cons_of_mem _ List.mem_cons_self)
  exact Bool.false_ne_true ((h o hm).symm.trans ho)

/-- The failure that comes last follows a launch if there was any. -/
theorem Sight.failsLater_iff (h : seen.occurrences = List.replicate n .started ++ [o])
    (ho : o.isFailure = true) : seen.FailsLater ↔ 0 < n := by
  constructor
  · rintro ⟨o', -, hs⟩
    have hlen := hs.length_le
    rw [h, List.length_append, List.length_replicate] at hlen
    exact Nat.lt_of_succ_le (Nat.le_of_succ_le_succ hlen)
  · intro hn
    refine ⟨o, ho, ?_⟩
    rw [h]
    have hstarted : [Occurrence.started].Sublist (List.replicate n .started) :=
      List.singleton_sublist.2 (List.mem_replicate.2 ⟨hn.ne', rfl⟩)
    exact hstarted.append (.refl [o])

/-- With a configuration and a prober it depends on the first launch. -/
theorem Surroundings.failsToStart_iff {p : String × String}
    (h : Settings.load w.environment w.arguments = .ok s) (hf : findProber w s = .ok p) :
    w.FailsToStart seen ↔ ∃ f, seen.occurrences.head? = some (.notStarted f) := by
  constructor
  · rintro (⟨f, hl⟩ | ⟨s', f, hl, hp⟩ | hhead)
    · cases h.symm.trans hl
    · cases h.symm.trans hl
      cases hf.symm.trans hp
    · exact hhead
  · exact fun hhead => .inr (.inr hhead)

theorem Surroundings.not_callBreaks_of_error {f : Settings.Refusal}
    (h : Settings.load w.environment w.arguments = .error f) : ¬ w.CallBreaks := by
  rintro ⟨s, path, f', hs, -⟩
  cases h.symm.trans hs

theorem Surroundings.not_callBreaks_of_ok {p : String × String}
    (h : Settings.load w.environment w.arguments = .ok s) (hf : findProber w s = .ok p) :
    ¬ w.CallBreaks := by
  rw [callBreaks_iff h]
  rintro ⟨f, hf'⟩
  cases hf.symm.trans hf'

theorem tells_startupFailure (hc : ¬ w.CallBreaks) (hs : w.FailsToStart seen)
    (hl : ¬ seen.FailsLater) : Tells w seen (some startupFailure) where
  known := by
    rintro _ ⟨⟩
    exact .inr (.inl rfl)
  uncaught := iff_of_false (Option.some_ne_none _) hc
  startup := iff_of_true rfl hs
  runtime := iff_of_false (by decide) hl
  success h := absurd h (by decide)

theorem tells_runtimeFailure (hc : ¬ w.CallBreaks) (hs : ¬ w.FailsToStart seen)
    (hl : seen.FailsLater) : Tells w seen (some runtimeFailure) where
  known := by
    rintro _ ⟨⟩
    exact .inr (.inr rfl)
  uncaught := iff_of_false (Option.some_ne_none _) hc
  startup := iff_of_false (by decide) hs
  runtime := iff_of_true rfl hl
  success h := absurd h (by decide)

/-- A failure after a launch is one of those later on. -/
theorem tells_of_launched (hc : ¬ w.CallBreaks)
    (hs : w.FailsToStart seen ↔ ∃ f, seen.occurrences.head? = some (.notStarted f))
    (h : seen.occurrences = List.replicate n .started ++ [o]) (ho : o.isFailure = true)
    (hn : 0 < n) : Tells w seen (some runtimeFailure) := by
  refine tells_runtimeFailure hc ?_ ((Sight.failsLater_iff h ho).2 hn)
  rw [hs, h]
  rintro ⟨f, hhead⟩
  cases n with
  | zero => exact absurd hn (Nat.lt_irrefl 0)
  | succ n => cases hhead

theorem tells_ok (hc : ¬ w.CallBreaks) (hs : ¬ w.FailsToStart seen)
    (ht : seen.interrupted = true ∨ seen.expired = true)
    (h : ∀ o ∈ seen.occurrences, o.isFailure = false) : Tells w seen (some ok) where
  known := by
    rintro _ ⟨⟩
    exact .inl rfl
  uncaught := iff_of_false (Option.some_ne_none _) hc
  startup := iff_of_false (by decide) hs
  runtime := iff_of_false (by decide) (Sight.not_failsLater h)
  success _ := ⟨ht, h⟩

/-- Nothing is seen before the call. -/
theorem tells_none {f : Prober.CallFault}
    (h : Settings.load w.environment w.arguments = .ok s)
    (hf : findProber w s = .error (.call f)) : Tells w {} none where
  known := by
    rintro _ ⟨⟩
  uncaught := iff_of_true rfl ((Surroundings.callBreaks_iff h).2 ⟨f, hf⟩)
  startup := by
    refine iff_of_false (Option.some_ne_none _).symm ?_
    rintro (⟨_, hl⟩ | ⟨s', p, hl, hp⟩ | ⟨_, hhead⟩)
    · cases h.symm.trans hl
    · cases h.symm.trans hl
      cases hf.symm.trans hp
    · cases hhead
  runtime :=
    iff_of_false (Option.some_ne_none _).symm (Sight.not_failsLater (List.forall_mem_nil _))
  success h := absurd h (Option.some_ne_none _).symm

end

namespace Serving

variable {w : Surroundings} {v : Serving} {s : Settings}

theorem isFailure_of_mem_replicate {n : Nat} {o : Occurrence}
    (h : o ∈ List.replicate n Occurrence.started) : o.isFailure = false :=
  List.eq_of_mem_replicate h ▸ rfl

/-- The exit code tells how a run under the server came to its end. -/
theorem Faithful.tells {p : String × String} {fault : Option RunFault} (hv : Faithful s v)
    (hphased : v.threads.Phased) (h : Settings.load w.environment w.arguments = .ok s)
    (hf : findProber w s = .ok p) (hr : v.threads.runner = .ended fault) :
    Tells w v.sight (Cause.ofEnd v.threads.supervisor.launches fault).exitCode? := by
  have hseen := hv.occurrences
  have hlaunched := hv.launched
  have horderly := hv.ordered.runner
  rw [hr] at hseen hlaunched horderly
  have hstart : w.FailsToStart v.sight ↔ _ := Surroundings.failsToStart_iff h hf
  have hcall := Surroundings.not_callBreaks_of_ok h hf
  -- From here on only the number of launches and the fault count.
  generalize v.threads.supervisor.launches = n at hseen hlaunched ⊢
  cases fault with
  | none =>
    rw [story, failure?, Option.toList_none, List.append_nil] at hseen
    have hall : ∀ o ∈ v.sight.occurrences, o.isFailure = false := by
      rw [hseen]
      exact fun o hm => isFailure_of_mem_replicate hm
    refine tells_ok hcall ?_ (hv.told_of_ended hphased hr) hall
    rw [hstart]
    rintro ⟨f, hhead⟩
    exact Bool.false_ne_true (hall _ (List.mem_of_head? hhead)).symm
  | some fault =>
    cases fault with
    | launch f =>
      replace hseen : v.sight.occurrences = List.replicate n .started ++ [.notStarted f] := hseen
      cases n with
      | zero =>
        refine tells_startupFailure hcall (hstart.2 ⟨f, ?_⟩) ?_
        · rw [hseen]
          rfl
        · rw [Sight.failsLater_iff hseen rfl]
          exact Nat.lt_irrefl 0
      | succ n =>
        exact tells_of_launched hcall hstart hseen rfl n.succ_pos
    | backoff f =>
      cases f with
      | exhausted k =>
        replace hseen : v.sight.occurrences = List.replicate n .started ++ [.exhausted k] := hseen
        exact tells_of_launched hcall hstart hseen rfl (hlaunched rfl)
      | factorTooLarge => cases horderly
    | wait d => cases horderly

/-! ## After a failure -/

theorem exists_of_failure? {r : Runner} {o : Occurrence} (h : failure? r = some o) :
    ∃ f, (∃ e, r = .entering (.fail f) e) ∨ r = .ended (some f) := by
  cases r with
  | entering g e =>
    cases g with
    | fail f => exact ⟨f, .inl ⟨e, rfl⟩⟩
    | launch | watch | rest | finish => cases h
  | ended fault =>
    cases fault with
    | none => cases h
    | some f => exact ⟨f, .inr rfl⟩
  | checking | launching | watching | judging | sleeping => cases h

/-- A failure that was seen is the one that brings the supervising thread to its end. -/
theorem Faithful.failure?_of_mem {o : Occurrence} (hv : Faithful s v)
    (hm : o ∈ v.sight.occurrences) (ho : o.isFailure = true) :
    failure? v.threads.runner = some o := by
  rw [hv.occurrences, story, List.mem_append] at hm
  rcases hm with hm | hm
  · exact absurd ((isFailure_of_mem_replicate hm).symm.trans ho) Bool.false_ne_true
  · exact Option.mem_toList.1 hm

theorem concludes_of_failure {path version : String} {o : Occurrence} (hv : Faithful s v)
    (hreach : (start s path version).Reachable v) (hm : o ∈ v.sight.occurrences)
    (ho : o.isFailure = true) : v.Concludes := by
  obtain ⟨f, hr⟩ := exists_of_failure? (hv.failure?_of_mem hm ho)
  have hgone : v.threads.supervisor.running? = none := by
    refine (Threads.attended_of_reachable (reachable_threads hreach)).untended ?_
    rcases hr with ⟨e, hr⟩ | hr <;> rw [hr] <;> rfl
  have hfailing : v.threads.Failing f := ⟨hr, hgone⟩
  refine ⟨hfailing.acc, ?_⟩
  intro t ht hrest
  have hfailing' : t.Failing f := ht.invariant hfailing fun _ _ h hs => (h.work hs).1
  obtain ⟨hended, hreturned⟩ := hfailing'.ended_of_rest hrest
  exact ⟨⟨f, hended⟩, hreturned⟩

end Serving

/-! ## All exporters -/

section

variable {w : Surroundings} {s : Settings} {path version : String} {v : Serving}

theorem Surroundings.Foreseen.faithful (hw : w.Foreseen)
    (h : Settings.load w.environment w.arguments = .ok s)
    (hv : (Serving.start s path version).Reachable v) : v.Faithful s := by
  obtain ⟨hbase, hcap⟩ := Settings.pos_of_load h
  exact Serving.faithful_of_reachable (hw.retries s h)
    (canWait_delay hbase hcap (hw.waits s h).1) hv

theorem Surroundings.Foreseen.tells {cause : Cause} {seen : Sight} (hw : w.Foreseen)
    (h : Ends w cause seen) : Tells w seen cause.exitCode? := by
  have hnothing : ¬ ({} : Sight).FailsLater := Sight.not_failsLater (List.forall_mem_nil _)
  cases h with
  | argument h => exact absurd h (Settings.load_ne_stop hw.arguments _)
  | configuration h =>
    exact tells_startupFailure (Surroundings.not_callBreaks_of_error h) (.inl ⟨_, h⟩) hnothing
  | prober h hf =>
    rcases hw.prober_or_call h hf with ⟨p, rfl⟩ | ⟨f, rfl⟩
    · refine tells_startupFailure ?_ (.inr (.inl ⟨_, p, h, hf⟩)) hnothing
      rw [Surroundings.callBreaks_iff h]
      rintro ⟨f, hf'⟩
      cases hf.symm.trans hf'
    · exact tells_none h hf
  | served h hf hv ho _ =>
    exact (hw.faithful h hv).tells (Serving.phased_of_reachable hv) h hf ho.1
  | unwaitable h _ _ _ hj => exact absurd (hw.waits _ h).2 (Bool.eq_false_iff.1 hj)

end

/-- In foreseen surroundings the exit code is that of a failure to start if and only if the
configuration, the prober or the very first launch is refused, and that of a later failure if and
only if a launch was followed by a failed one or the retries were used up. It tells of success only
if the server was interrupted or the runtime limit was reached, and nothing had failed. There is no
code if and only if the call for the version breaks off: the timeout cannot be waited, or an output
is no text. After a failure the exporter comes to its end; and the exporter that is run is one of
those spoken of. -/
theorem exit_code_tells_why {w : Surroundings} (hw : w.Foreseen) :
    (∀ cause seen, Ends w cause seen → Tells w seen cause.exitCode?) ∧
    (∀ b, w.version = (fun path timeout => Prober.call path timeout b) →
      (w.CallBreaks ↔ ∃ s path f, Settings.load w.environment w.arguments = .ok s ∧
        w.lookUp s.program = some path ∧ Prober.Escapes path s.versionTimeoutS b (.call f))) ∧
    (∀ s path version v, Settings.load w.environment w.arguments = .ok s →
      findProber w s = .ok (path, version) → (Serving.start s path version).Reachable v →
      (∃ o ∈ v.sight.occurrences, o.isFailure = true) → v.Concludes) ∧
    ∃ seen, Ends w (run w).cause seen ∧ (seen.interrupted = true → w.Interrupts) ∧
      (seen.expired = true → ∃ s limit, Settings.load w.environment w.arguments = .ok s ∧
        s.runtimeLimitS = some limit) := by
  refine ⟨fun _ _ h => hw.tells h, fun _ hb => Surroundings.callBreaks_iff_escapes hb, ?_,
    exists_ends_run w⟩
  rintro s path version v h - hv ⟨o, hm, ho⟩
  exact Serving.concludes_of_failure (hw.faithful h hv) hv hm ho

/-- A prober that exits and then cannot be started again. -/
def relaunchRefused : Surroundings where
  environment := []
  arguments := ["dns"]
  lookUp _ := some "/usr/bin/fping"
  fileExists _ := true
  version path timeout :=
    Prober.call path timeout (.exited 0 (.ok "fping: Version 5.0") (.ok ""))
  probers := [{ lifetime := 1.0 }]
  clock := 0.0
  reason := "gone"

theorem foreseen_relaunchRefused : relaunchRefused.Foreseen := by
  have hsettings {s : Settings}
      (h : Settings.load relaunchRefused.environment relaunchRefused.arguments = .ok s) :
      s = { targets := ["dns"] } :=
    Except.ok.inj (h.symm.trans load_single)
  have hversion : (Prober.announcedIn? "fping: Version 5.0" <|> Prober.announcedIn? "") =
      some ⟨['5'], ['0'], ['0']⟩ := by decide +kernel
  constructor
  · decide +kernel
  · intro s h
    obtain rfl := hsettings h
    exact ⟨by decide, by decide⟩
  · intro s path code stdout stderr d h hpath ha hd
    replace ha : Prober.call path s.versionTimeoutS
        (.exited 0 (.ok "fping: Version 5.0") (.ok "")) = .exited code stdout stderr := ha
    obtain ⟨-, -, hb⟩ := Prober.call_eq_exited_iff.1 ha
    cases hb
    cases hversion.symm.trans hd
    decide
  · intro s h
    obtain rfl := hsettings h
    decide
  · intro s h
    obtain rfl := hsettings h
    exact ⟨by decide +kernel, by decide +kernel⟩

theorem exit_code_tells_why_relaunch :
    relaunchRefused.Foreseen ∧ (run relaunchRefused).cause.exitCode? = some runtimeFailure ∧
      ¬ relaunchRefused.CallBreaks ∧
      ∃ seen, Ends relaunchRefused (run relaunchRefused).cause seen ∧ seen.FailsLater ∧
        seen.interrupted = false := by
  have hw := foreseen_relaunchRefused
  obtain ⟨htells, -, -, seen, hends, hinterrupted, -⟩ := exit_code_tells_why hw
  have hcode : (run relaunchRefused).cause.exitCode? = some runtimeFailure := by decide +kernel
  have ht := htells _ _ hends
  rw [hcode] at ht
  have hcall : ¬ relaunchRefused.CallBreaks := fun h => Option.some_ne_none _ (ht.uncaught.2 h)
  refine ⟨hw, hcode, hcall, seen, hends, ht.runtime.1 rfl, Bool.eq_false_iff.2 ?_⟩
  intro h
  rcases hinterrupted h with h | ⟨c, hc, h⟩
  · cases h
  · obtain rfl := List.mem_singleton.1 hc
    cases h

end EchoMetrics.Service
