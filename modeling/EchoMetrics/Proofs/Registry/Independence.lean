import Mathlib.Data.List.Perm.Basic
import EchoMetrics.Exposition.Report
import EchoMetrics.Registry.History

/-! # Targets do not get in each other's way

A write is about one target or about none. What a registry holds of a target depends on the writes
about it only, and all other fields but the number of samples on the writes about none. Main
statement: histories that say the same of every target, and the same apart from targets, lead to the
same registry and the same exposition, in whatever order the targets are kept. -/

namespace EchoMetrics

/-- What a write does to the target that it is about. -/
def Write.change : Write → TargetState → TargetState
  | .ingest s => (·.ingest s)
  | .error _ kind => (·.countError kind)
  | .parseError | .start _ | .restart _ | .phase _ | .version _ => id

/-! ## Histories that agree -/

namespace History

/-- The writes about a target. -/
def about (ws : History) (name : String) : History := ws.filter (·.target? = some name)

/-- The writes that are about no target. -/
def apart (ws : History) : History := ws.filter (·.target? = none)

/-- The same is said of every target, and apart from targets, each in the same order. -/
structure Agree (ws ws' : History) : Prop where
  about (name : String) : ws.about name = ws'.about name
  apart : ws.apart = ws'.apart

variable {ws ws' : History}

theorem Agree.perm (h : ws.Agree ws') : ws.Perm ws' := by
  rw [List.perm_iff_count]
  intro w
  cases hw : w.target? with
  | none =>
    have hcount (ws : History) : ws.apart.count w = ws.count w := List.count_filter (by simp [hw])
    rw [← hcount ws, ← hcount ws', h.apart]
  | some name =>
    have hcount (ws : History) : (ws.about name).count w = ws.count w :=
      List.count_filter (by simp [hw])
    rw [← hcount ws, ← hcount ws', h.about]

end History

/-! ## Fields of a registry -/

namespace Registry

variable {r r' : Registry} {name : String}

theorem getElem?_targets_apply (r : Registry) (w : Write) (name : String) :
    (r.apply w).targets[name]? =
      if w.target? = some name then some (w.change (r.target name)) else r.targets[name]? := by
  have hupdate (other : String) (f : TargetState → TargetState) :
      (r.update other f).targets[name]? =
        if some other = some name then some (f (r.target name)) else r.targets[name]? := by
    rw [update, Std.ExtTreeMap.getElem?_insert]
    simp only [Std.LawfulEqCmp.compare_eq_iff_eq]
    by_cases h : other = name
    · subst h
      simp
    · simp [h]
  cases w with
  | ingest s => exact hupdate s.target (·.ingest s)
  | error other kind => exact hupdate other (·.countError kind)
  | _ => exact (if_neg (Option.some_ne_none _).symm).symm

theorem target_apply (r : Registry) (w : Write) (name : String) :
    (r.apply w).target name =
      if w.target? = some name then w.change (r.target name) else r.target name := by
  rw [target, getElem?_targets_apply]
  split <;> rfl

/-- What is held of a target depends on the writes about it. -/
theorem getElem?_targets_replay_about (h : r.targets[name]? = r'.targets[name]?) (ws : History) :
    (r.replay ws).targets[name]? = (r'.replay (ws.about name)).targets[name]? := by
  induction ws generalizing r r' with
  | nil => exact h
  | cons w ws ih =>
    by_cases hw : w.target? = some name
    · rw [History.about, List.filter_cons_of_pos (by simpa using hw)]
      refine ih ?_
      rw [getElem?_targets_apply, getElem?_targets_apply, if_pos hw, if_pos hw, target, target, h]
    · rw [History.about, List.filter_cons_of_neg (by simpa using hw)]
      refine ih ?_
      rw [getElem?_targets_apply, if_neg hw, h]

/-- Everything but the targets and the number of their samples is the same. -/
structure SameApart (r r' : Registry) : Prop where
  parseErrors : r.parseErrors = r'.parseErrors
  restarts : r.restarts = r'.restarts
  startedAt : r.startedAt = r'.startedAt
  phase : r.phase = r'.phase
  version : r.version = r'.version

theorem SameApart.symm (h : SameApart r r') : SameApart r' r :=
  ⟨h.1.symm, h.2.symm, h.3.symm, h.4.symm, h.5.symm⟩

theorem SameApart.trans {r'' : Registry} (h : SameApart r r') (h' : SameApart r' r'') :
    SameApart r r'' :=
  ⟨h.1.trans h'.1, h.2.trans h'.2, h.3.trans h'.3, h.4.trans h'.4, h.5.trans h'.5⟩

theorem SameApart.apply (h : SameApart r r') (w : Write) : SameApart (r.apply w) (r'.apply w) := by
  cases w with
  | ingest | error => exact ⟨h.1, h.2, h.3, h.4, h.5⟩
  | parseError => exact ⟨congrArg (· + 1) h.1, h.2, h.3, h.4, h.5⟩
  | start => exact ⟨h.1, h.2, rfl, h.4, h.5⟩
  | restart => exact ⟨h.1, congrArg (· + 1) h.2, rfl, h.4, h.5⟩
  | phase => exact ⟨h.1, h.2, h.3, rfl, h.5⟩
  | version => exact ⟨h.1, h.2, h.3, h.4, rfl⟩

theorem sameApart_apply {w : Write} (hw : w.target? ≠ none) : SameApart (r.apply w) r := by
  cases w with
  | ingest | error => exact ⟨rfl, rfl, rfl, rfl, rfl⟩
  | _ => exact absurd rfl hw

theorem SameApart.replay (h : SameApart r r') (ws : History) :
    SameApart (r.replay ws) (r'.replay ws.apart) := by
  induction ws generalizing r r' with
  | nil => exact h
  | cons w ws ih =>
    by_cases hw : w.target? = none
    · rw [History.apart, List.filter_cons_of_pos (by simpa using hw)]
      exact ih (h.apply w)
    · rw [History.apart, List.filter_cons_of_neg (by simpa using hw)]
      exact ih ((sameApart_apply hw).trans h)

theorem samplesIngested_replay (r : Registry) (ws : History) :
    (r.replay ws).samplesIngested = r.samplesIngested + ws.samplesIngested := by
  induction ws generalizing r with
  | nil => rfl
  | cons w ws ih =>
    rw [replay_cons, ih]
    cases w with
    | ingest => simp [apply, update, History.samplesIngested]; omega
    | _ => simp [apply, update, History.samplesIngested]

/-- Histories that agree change a registry in the same way. -/
theorem replay_eq_of_agree (r : Registry) {ws ws' : History} (h : ws.Agree ws') :
    r.replay ws = r.replay ws' := by
  have htargets : (r.replay ws).targets = (r.replay ws').targets := by
    apply Std.ExtTreeMap.ext_getElem?
    intro name
    rw [getElem?_targets_replay_about rfl ws, h.about, ← getElem?_targets_replay_about rfl ws']
  have hsamples : (r.replay ws).samplesIngested = (r.replay ws').samplesIngested := by
    rw [samplesIngested_replay, samplesIngested_replay, History.samplesIngested,
      h.perm.countP_eq, History.samplesIngested]
  have hrefl : SameApart r r := ⟨rfl, rfl, rfl, rfl, rfl⟩
  have hapart : SameApart (r.replay ws) (r.replay ws') := by
    refine (hrefl.replay ws).trans ?_
    rw [h.apart]
    exact (hrefl.replay ws').symm
  revert htargets hsamples hapart
  generalize r.replay ws = a
  generalize r.replay ws' = b
  cases a
  cases b
  rintro rfl rfl ⟨rfl, rfl, rfl, rfl, rfl⟩
  rfl

end Registry

/-! ## Orders in which entries are kept -/

namespace Exposition

variable {β : Type} {entries : List (String × β)} {m : Std.ExtTreeMap String β}

def sortByName (entries : List (String × β)) : List (String × β) :=
  entries.mergeSort fun a b => (compare a.1 b.1).isLE

/-- However the entries of a map are kept, they are listed by their names. -/
theorem sortByName_eq_toList (h : entries.Perm m.toList) : sortByName entries = m.toList := by
  have hsorted : (sortByName entries).Pairwise fun a b => (compare a.1 b.1).isLE :=
    List.pairwise_mergeSort (fun _ _ _ => Std.TransCmp.isLE_trans)
      (fun a b => by
        have hswap : compare b.1 a.1 = (compare a.1 b.1).swap := Std.OrientedCmp.eq_swap
        rw [hswap]
        cases compare a.1 b.1 <;> rfl) entries
  have hlisted : m.toList.Pairwise fun a b => (compare a.1 b.1).isLE :=
    Std.ExtTreeMap.ordered_keys_toList.imp fun h => by rw [h]; rfl
  have hperm : (sortByName entries).Perm m.toList := (List.mergeSort_perm ..).trans h
  refine hperm.eq_of_pairwise ?_ hsorted hlisted
  intro a b ha hb hab hba
  have hname : a.1 = b.1 :=
    Std.LawfulEqCmp.compare_eq_iff_eq.1 (Std.OrientedCmp.isLE_antisymm hab hba)
  have ha' := Std.ExtTreeMap.mem_toList_iff_getElem?_eq_some.1 (hperm.mem_iff.1 ha)
  have hb' := Std.ExtTreeMap.mem_toList_iff_getElem?_eq_some.1 hb
  rw [hname, hb'] at ha'
  exact Prod.ext hname (Option.some.inj ha').symm

/-- The exposition of a snapshot whose targets are kept in some order: it begins with sorting
them. -/
def renderKept (entries : List (String × TargetState)) (s : Snapshot) :
    Except RenderFault String :=
  (encode (targetFamilies ((sortByName entries).map Prod.snd) ++ exporterFamilies s)).mapError
    .ofEncoding

theorem renderKept_eq_render {entries : List (String × TargetState)} {s : Snapshot}
    (h : entries.Perm s.targetList) : renderKept entries s = render s := by
  rw [renderKept, sortByName_eq_toList h]
  rfl

end Exposition

/-! ## Main statement -/

open Exposition in
/-- Writes about different targets may come in any order. As long as each target's own writes and
those about none keep theirs, the same is known of every target, all counters are the same, and so
is the exposition, in whatever order the targets and their kinds of errors were kept until they are
written. -/
theorem History.targets_independent (r : Registry) {ws ws' : History} (h : ws.Agree ws')
    (now : Float) :
    let x := (r.replay ws).snapshot now
    let x' := (r.replay ws').snapshot now
    r.replay ws = r.replay ws' ∧ render x = render x' ∧
      (∀ entries, entries.Perm x.targetList → renderKept entries x = render x') ∧
      ∀ name counts, counts.Perm (x.target name).errors.toList →
        sortByName counts = (x'.target name).errors.toList := by
  have heq := r.replay_eq_of_agree h
  intro x x'
  have hx : x = x' := congrArg (·.snapshot now) heq
  refine ⟨heq, congrArg render hx, ?_, ?_⟩
  · intro entries hentries
    rw [← hx]
    exact renderKept_eq_render hentries
  · intro name counts hcounts
    rw [← hx]
    exact sortByName_eq_toList hcounts

open Exposition in
/-- Another target's error may come first; it does not matter that it is then kept first. -/
theorem History.targets_independent_swapped :
    let a : Sample :=
      { target := "a", source := .probe, transmitted := 1, received := 0
        received_le := Nat.zero_le 1, loss := 1.0, observedAt := 0.0 }
    let ws : History := [.ingest a, .start 1.0, .error "b" "fping", .ingest a, .parseError]
    let ws' : History := [.error "b" "fping", .start 1.0, .ingest a, .parseError, .ingest a]
    let x := (({} : Registry).replay ws).snapshot 2.0
    let x' := (({} : Registry).replay ws').snapshot 2.0
    ws.Agree ws' ∧ render x = render x' ∧ renderKept x'.targetList.reverse x' = render x := by
  intro a ws ws' x x'
  have hagree : ws.Agree ws' := by
    refine ⟨?_, rfl⟩
    intro name
    by_cases ha : "a" = name
    · subst ha
      rfl
    · by_cases hb : "b" = name
      · subst hb
        rfl
      · simp [ws, ws', a, about, Write.target?, ha, hb]
  have hagree' : ws'.Agree ws := ⟨fun name => (hagree.about name).symm, hagree.apart.symm⟩
  obtain ⟨-, hrender, -, -⟩ := targets_independent {} hagree 2.0
  obtain ⟨-, -, hkept, -⟩ := targets_independent {} hagree' 2.0
  exact ⟨hagree, hrender, hkept _ (List.reverse_perm _)⟩

end EchoMetrics
