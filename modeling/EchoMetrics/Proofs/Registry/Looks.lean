import EchoMetrics.Proofs.Binary.Difference
import EchoMetrics.Proofs.Registry.Replay
import EchoMetrics.Registry.Access

/-! # What is seen of a changing registry

The times of launches are read one after another by one thread, so they are in order among each
other and with the present, whoever takes snapshots in the meantime. Main statement: every snapshot
is the registry after a prefix of the writes, which contains all writes that were made when it was
begun; the prefixes that a thread sees one after another do not become shorter, and launches are not
seen from the future. -/

namespace EchoMetrics

open Binary

/-- The time that a write records for a launch. -/
def Write.launchTime? : Write → Option Float
  | .start now | .restart now => some now
  | .ingest _ | .error _ _ | .parseError | .phase _ | .version _ => none

theorem Job.launchTime?_write {now t : Float} {j : Job} (h : (j.write now).launchTime? = some t) :
    t = now := by
  cases j with
  | start | restart => exact (Option.some.inj h).symm
  | _ => cases h

namespace History

/-- The times of launches, in the order in which they were recorded. -/
def launches (ws : History) : List Float := ws.filterMap (·.launchTime?)

theorem launches_append (ws ws' : History) :
    launches (ws ++ ws') = ws.launches ++ ws'.launches := List.filterMap_append

theorem startedAt_replay (ws : History) :
    (({} : Registry).replay ws).startedAt = ws.launches.getLast? := by
  rw [replay_eq_registry]
  change ws.startedAt = _
  rw [startedAt, launches]
  congr 1
  refine List.filterMap_congr ?_
  intro w _
  cases w <;> rfl

theorem launches_take_prefix (ws : History) {m n : Nat} (h : m ≤ n) :
    launches (ws.take m) <+: launches (ws.take n) := by
  obtain ⟨rest, hrest⟩ := List.take_prefix_take_left h (l := ws)
  rw [← hrest, launches_append]
  exact List.prefix_append ..

theorem mem_launches_of_mem_take {ws : History} {n : Nat} {t : Float}
    (h : t ∈ launches (ws.take n)) : t ∈ ws.launches := by
  rw [← List.take_append_drop n ws, launches_append]
  exact List.mem_append_left _ h

end History

/-- In a list in order, the last element of a prefix is not greater than the last of all. -/
theorem getLast?_mono {ts us : List Float} {t : Float} (hsorted : us.Pairwise (· ≤ ·))
    (hp : ts <+: us) (ht : ts.getLast? = some t) (hself : t ≤ t) :
    ∃ u, us.getLast? = some u ∧ t ≤ u := by
  obtain ⟨rest, rfl⟩ := hp
  cases hlast : rest.getLast? with
  | none =>
    obtain rfl := List.getLast?_eq_none_iff.1 hlast
    exact ⟨t, by rw [List.append_nil, ht], hself⟩
  | some u =>
    refine ⟨u, by rw [List.getLast?_append, hlast]; rfl, ?_⟩
    exact (List.pairwise_append.1 hsorted).2.2 t (List.mem_of_getLast? ht) u
      (List.mem_of_getLast? hlast)

/-! ## Snapshots -/

/-- The uptime in a snapshot is not cut off if the launch is not in its future. -/
theorem Snapshot.uptime_eq_sub {x : Snapshot} {started : Float} (h : x.startedAt = some started)
    (hle : started ≤ x.takenAt) (hinf : ¬ (x.takenAt.isInf = true ∧ started.isInf = true)) :
    (x.uptime == x.takenAt - started) = true := by
  have hnonneg := zero_le_sub hle hinf
  simp only [uptime, h]
  split
  · exact beq_self hnonneg
  · rename_i hpos
    exact zero_beq hnonneg hpos

/-- A snapshot is the registry after some of the writes, among which are those that were made when
it was begun, and it does not know a launch from its future. -/
structure Look.Follows (l : Look) (ws : History) : Prop where
  before_le : l.before ≤ l.copiedAt
  le_length : l.copiedAt ≤ ws.length
  registry : l.snapshot.toRegistry = ({} : Registry).replay (ws.take l.copiedAt)
  started_le {started : Float} (h : l.snapshot.startedAt = some started) :
    started ≤ l.snapshot.takenAt

namespace Looker

/-- How far a thread is goes with the writes that were made. -/
def Follows (ws : History) : Looker → Prop
  | .idle => True
  | .waiting before => before ≤ ws.length
  | .copied before copiedAt copy =>
    before ≤ copiedAt ∧ copiedAt ≤ ws.length ∧ copy = ({} : Registry).replay (ws.take copiedAt)

/-- How many of the writes the next snapshot of a thread will know at least. -/
def floor (ws : History) : Looker → Nat
  | .idle => ws.length
  | .waiting before | .copied before _ _ => before

end Looker

section

variable {ws : History} {w : Write}

theorem Looker.Follows.append {l : Looker} (h : l.Follows ws) : l.Follows (ws ++ [w]) := by
  cases l with
  | idle => trivial
  | waiting before => exact h.trans (List.prefix_append ..).length_le
  | copied before copiedAt copy =>
    obtain ⟨hbefore, hlength, hcopy⟩ := h
    refine ⟨hbefore, hlength.trans (List.prefix_append ..).length_le, ?_⟩
    rw [List.take_append_of_le_length hlength]
    exact hcopy

theorem Looker.floor_le_floor_append (l : Looker) : l.floor ws ≤ l.floor (ws ++ [w]) := by
  cases l with
  | idle => exact (List.prefix_append ..).length_le
  | waiting | copied => exact le_rfl

theorem Look.Follows.append {l : Look} (h : l.Follows ws) : l.Follows (ws ++ [w]) where
  before_le := h.before_le
  le_length := h.le_length.trans (List.prefix_append ..).length_le
  registry := by
    rw [List.take_append_of_le_length h.le_length]
    exact h.registry
  started_le := h.started_le

end

namespace Access

/-- How many writes the next snapshot of a thread will know at least. -/
def floor (a : Access) (i : Nat) : Nat := (a.lookers[i]?.getD .idle).floor a.history

/-- The launches that were recorded or are about to be, and the present. -/
def times (a : Access) : List Float :=
  History.launches (a.history ++ a.pending.toList) ++ [a.clock]

/-- What every step keeps: launches are in order up to the present, and all that was seen goes with
the writes that were made. -/
structure Linear (a : Access) : Prop where
  now : a.clock ≤ a.clock
  registry : a.registry = ({} : Registry).replay a.history
  times : a.times.Pairwise (· ≤ ·)
  lookers {l : Looker} (h : l ∈ a.lookers) : l.Follows a.history
  looks {l : Look} (h : l ∈ a.looks) : l.Follows a.history
  /-- A thread does not see less than it saw before. -/
  floor {l : Look} (h : l ∈ a.looks) : l.copiedAt ≤ a.floor l.looker
  ordered : a.looks.Pairwise fun l l' => l.looker = l'.looker → l.copiedAt ≤ l'.copiedAt

namespace Linear

variable {a b : Access} {i : Nat}

theorem init {now : Float} (h : now ≤ now) (jobs : List Job) :
    Linear { clock := now, registry := {}, jobs } where
  now := h
  registry := rfl
  times := List.pairwise_singleton ..
  lookers h := absurd h List.not_mem_nil
  looks h := absurd h List.not_mem_nil
  floor h := absurd h List.not_mem_nil
  ordered := .nil

theorem times_iff {ts : List Float} {now : Float} :
    (ts ++ [now]).Pairwise (· ≤ ·) ↔ ts.Pairwise (· ≤ ·) ∧ ∀ t ∈ ts, t ≤ now := by
  simp [List.pairwise_append]

theorem launches (h : a.Linear) :
    (History.launches a.history).Pairwise (· ≤ ·) ∧
      ∀ t ∈ History.launches a.history, t ≤ a.clock := by
  obtain ⟨hsorted, hpast⟩ := times_iff.1 h.times
  rw [History.launches_append] at hsorted hpast
  exact ⟨(List.pairwise_append.1 hsorted).1, fun t ht => hpast t (List.mem_append_left _ ht)⟩

theorem tick (h : a.Linear) {now : Float} (hle : a.clock ≤ now) :
    Linear { a with clock := now } where
  now := (le_self_of_le hle).2
  registry := h.registry
  times := by
    obtain ⟨hsorted, hpast⟩ := times_iff.1 h.times
    exact times_iff.2 ⟨hsorted, fun t ht => le_trans (hpast t ht) hle⟩
  lookers := h.lookers
  looks := h.looks
  floor := h.floor
  ordered := h.ordered

theorem stamp (h : a.Linear) (hp : a.pending = none) (j : Job) (js : List Job) :
    Linear { a with jobs := js, pending := some (j.write a.clock) } where
  now := h.now
  registry := h.registry
  times := by
    have htimes := h.times
    rw [Access.times, hp, Option.toList_none, List.append_nil] at htimes
    change (History.launches (a.history ++ [j.write a.clock]) ++ [a.clock]).Pairwise _
    rw [History.launches_append]
    cases ht : (j.write a.clock).launchTime? with
    | none => simpa [History.launches, ht] using htimes
    | some t =>
      -- the launch is recorded with the present, which is not before any launch
      obtain rfl := Job.launchTime?_write ht
      have hlast : History.launches [j.write a.clock] = [a.clock] := by
        simp [History.launches, ht]
      rw [hlast]
      refine times_iff.2 ⟨htimes, ?_⟩
      intro t hmem
      rcases List.mem_append.1 hmem with hmem | hmem
      · exact (times_iff.1 htimes).2 t hmem
      · obtain rfl := List.mem_singleton.1 hmem
        exact h.now
  lookers := h.lookers
  looks := h.looks
  floor := h.floor
  ordered := h.ordered

theorem write (h : a.Linear) {w : Write} (hp : a.pending = some w) :
    Linear { a with
      registry := a.registry.apply w, history := a.history ++ [w], pending := none } where
  now := h.now
  registry := by
    change a.registry.apply w = _
    rw [Registry.replay_append, ← h.registry]
    rfl
  times := by
    have htimes := h.times
    rw [Access.times, hp] at htimes
    rw [Access.times, Option.toList_none, List.append_nil]
    exact htimes
  lookers hl := (h.lookers hl).append
  looks hl := (h.looks hl).append
  floor hl := (h.floor hl).trans (Looker.floor_le_floor_append _)
  ordered := h.ordered

theorem floor_join (a : Access) (i : Nat) :
    ({ a with lookers := a.lookers ++ [.idle] } : Access).floor i = a.floor i := by
  rcases Nat.lt_or_ge i a.lookers.length with hi | hi
  · simp [Access.floor, List.getElem?_append_left hi]
  · have hnone : a.lookers[i]? = none := List.getElem?_eq_none hi
    cases hget : ([.idle] : List Looker)[i - a.lookers.length]? with
    | none => simp [Access.floor, List.getElem?_append_right hi, hnone, hget]
    | some l =>
      obtain rfl := List.mem_singleton.1 (List.mem_of_getElem? hget)
      simp [Access.floor, List.getElem?_append_right hi, hnone, hget]

theorem join (h : a.Linear) : Linear { a with lookers := a.lookers ++ [.idle] } where
  now := h.now
  registry := h.registry
  times := h.times
  lookers := by
    intro l hl
    rcases List.mem_append.1 hl with hl | hl
    · exact h.lookers hl
    · obtain rfl := List.mem_singleton.1 hl
      trivial
  looks := h.looks
  floor := by
    intro l hl
    rw [floor_join]
    exact h.floor hl
  ordered := h.ordered

theorem floor_set_self {l l' : Looker} (hi : a.lookers[i]? = some l') :
    ({ a with lookers := a.lookers.set i l } : Access).floor i = l.floor a.history := by
  have hlt : i < a.lookers.length := (List.getElem?_eq_some_iff.1 hi).1
  simp [Access.floor, hlt]

theorem floor_set_of_ne {l : Looker} {j : Nat} (hij : i ≠ j) :
    ({ a with lookers := a.lookers.set i l } : Access).floor j = a.floor j := by
  simp [Access.floor, List.getElem?_set_ne hij]

/-- What a thread does next, and what it then will know at least. -/
theorem set (h : a.Linear) {l l' : Looker} (hi : a.lookers[i]? = some l')
    (hl : l.Follows a.history) (hfloor : l'.floor a.history ≤ l.floor a.history) :
    Linear { a with lookers := a.lookers.set i l } where
  now := h.now
  registry := h.registry
  times := h.times
  lookers := by
    intro l' hl'
    rcases List.mem_or_eq_of_mem_set hl' with hl' | rfl
    · exact h.lookers hl'
    · exact hl
  looks := h.looks
  floor := by
    intro look hlook
    have hold := h.floor hlook
    by_cases hlooker : i = look.looker
    · subst hlooker
      rw [floor_set_self hi]
      rw [Access.floor, hi] at hold
      exact hold.trans hfloor
    · rw [floor_set_of_ne hlooker]
      exact hold
  ordered := h.ordered

/-- One more snapshot, of a thread that saw no more before. -/
theorem see (h : a.Linear) {l : Look} (hl : l.Follows a.history)
    (hfloor : l.copiedAt ≤ a.floor l.looker)
    (hbefore : ∀ l' ∈ a.looks, l'.looker = l.looker → l'.copiedAt ≤ l.copiedAt) :
    Linear { a with looks := a.looks ++ [l] } where
  now := h.now
  registry := h.registry
  times := h.times
  lookers := h.lookers
  looks := by
    intro l' hl'
    rcases List.mem_append.1 hl' with hl' | hl'
    · exact h.looks hl'
    · obtain rfl := List.mem_singleton.1 hl'
      exact hl
  floor := by
    intro l' hl'
    rcases List.mem_append.1 hl' with hl' | hl'
    · exact h.floor hl'
    · obtain rfl := List.mem_singleton.1 hl'
      exact hfloor
  ordered := by
    refine List.pairwise_append.2 ⟨h.ordered, List.pairwise_singleton .., ?_⟩
    intro l' hl' l'' hl''
    obtain rfl := List.mem_singleton.1 hl''
    exact hbefore l' hl'

theorem finish (h : a.Linear) {before copiedAt : Nat} {r : Registry}
    (hi : a.lookers[i]? = some (.copied before copiedAt r)) :
    Linear { a with
      lookers := a.lookers.set i .idle
      looks := a.looks ++ [⟨i, before, copiedAt, r.snapshot a.clock⟩] } := by
  obtain ⟨hbefore, hlength, hcopy⟩ := h.lookers (List.mem_of_getElem? hi)
  have hidle := h.set (l := .idle) hi trivial (hbefore.trans hlength)
  refine hidle.see (l := ⟨i, before, copiedAt, r.snapshot a.clock⟩) ?_ ?_ ?_
  · refine ⟨hbefore, hlength, hcopy, ?_⟩
    intro started hstarted
    -- the launch is among those that were recorded, and the clock has gone on since
    have hlast : r.startedAt = some started := hstarted
    rw [hcopy, History.startedAt_replay] at hlast
    exact h.launches.2 started (History.mem_launches_of_mem_take (List.mem_of_getLast? hlast))
  · rw [floor_set_self hi]
    exact hlength
  · intro l' hl' hlooker
    have hold := h.floor hl'
    rw [hlooker, Access.floor, hi] at hold
    exact hold.trans hbefore

theorem step (h : a.Linear) (hs : Step a b) : b.Linear := by
  cases hs with
  | tick hle => exact h.tick hle
  | stamp _ hp => exact h.stamp hp _ _
  | write hp => exact h.write hp
  | join => exact h.join
  | begin hi => exact h.set hi le_rfl le_rfl
  | @copy _ before hi =>
    have hbefore : before ≤ a.history.length := h.lookers (List.mem_of_getElem? hi)
    refine h.set hi ⟨hbefore, le_rfl, ?_⟩ le_rfl
    rw [List.take_length]
    exact h.registry
  | finish hi => exact h.finish hi

theorem startedAt (h : a.Linear) {l l' : Look} (hl : l ∈ a.looks) (hl' : l' ∈ a.looks)
    (hle : l.copiedAt ≤ l'.copiedAt) {started : Float}
    (hstarted : l.snapshot.startedAt = some started) :
    ∃ started', l'.snapshot.startedAt = some started' ∧ started ≤ started' := by
  have hlast : ∀ {l : Look}, l ∈ a.looks →
      l.snapshot.startedAt = (History.launches (a.history.take l.copiedAt)).getLast? := by
    intro l hl
    rw [(h.looks hl).registry, History.startedAt_replay]
  have hself : started ≤ started := (le_self_of_le ((h.looks hl).started_le hstarted)).1
  rw [hlast hl] at hstarted
  rw [hlast hl']
  have hsorted : (History.launches (a.history.take l'.copiedAt)).Pairwise (· ≤ ·) :=
    h.launches.1.sublist ((List.take_sublist ..).filterMap _)
  exact getLast?_mono hsorted (History.launches_take_prefix a.history hle) hstarted hself

end Linear

theorem linear_of_reachable {now : Float} (hnow : now ≤ now) {jobs : List Job} {a : Access}
    (h : Reachable { clock := now, registry := {}, jobs } a) : a.Linear :=
  h.invariant (.init hnow jobs) fun _ _ => Linear.step

/-- Every snapshot is the registry after a prefix of the writes, with all writes that were made when
it was begun. Its uptime is the difference of two times, of which the later one is the snapshot's;
where both are infinite there is no difference. What a thread sees later knows no fewer writes and
no earlier launch. -/
theorem looks_of_reachable {now : Float} (hnow : now ≤ now) {jobs : List Job} {a : Access}
    (h : Reachable { clock := now, registry := {}, jobs } a) :
    (∀ l ∈ a.looks, l.Follows a.history ∧
      ∀ started, l.snapshot.startedAt = some started →
        (l.snapshot.uptime == l.snapshot.takenAt - started) = true ∨
          l.snapshot.takenAt.isInf = true ∧ started.isInf = true) ∧
    a.looks.Pairwise fun l l' => l.looker = l'.looker →
      l.copiedAt ≤ l'.copiedAt ∧
      ∀ started, l.snapshot.startedAt = some started →
        ∃ started', l'.snapshot.startedAt = some started' ∧ started ≤ started' := by
  have hlinear := linear_of_reachable hnow h
  refine ⟨?_, ?_⟩
  · intro l hl
    have hfollows := hlinear.looks hl
    refine ⟨hfollows, ?_⟩
    intro started hstarted
    by_cases hinf : l.snapshot.takenAt.isInf = true ∧ started.isInf = true
    · exact .inr hinf
    · exact .inl (Snapshot.uptime_eq_sub hstarted (hfollows.started_le hstarted) hinf)
  · refine hlinear.ordered.imp_of_mem ?_
    intro l l' hl hl' hordered hlooker
    have hle := hordered hlooker
    exact ⟨hle, fun _ => hlinear.startedAt hl hl' hle⟩

/-- A copy is made while a restart waits for the lock, and the clock goes on before the snapshot is
finished; the next one knows the restart. -/
theorem looks_of_reachable_between : ∃ a : Access,
    Reachable { clock := 1.0, registry := {}, jobs := [.start, .restart] } a ∧
    a.looks.map (fun l => (l.before, l.copiedAt, l.snapshot.startedAt, l.snapshot.takenAt)) =
      [(1, 1, some 1.0, 3.0), (2, 2, some 2.0, 3.0)] ∧
    (∀ l ∈ a.looks, l.Follows a.history ∧
      ∀ started, l.snapshot.startedAt = some started →
        (l.snapshot.uptime == l.snapshot.takenAt - started) = true ∨
          l.snapshot.takenAt.isInf = true ∧ started.isInf = true) ∧
    a.looks.Pairwise fun l l' => l.looker = l'.looker →
      l.copiedAt ≤ l'.copiedAt ∧
      ∀ started, l.snapshot.startedAt = some started →
        ∃ started', l'.snapshot.startedAt = some started' ∧ started ≤ started' := by
  have h12 : (1.0 : Float) ≤ 2.0 := by decide +kernel
  have h23 : (2.0 : Float) ≤ 3.0 := by decide +kernel
  let jobs : List Job := [.start, .restart]
  let started : Registry := ({} : Registry).apply (.start 1.0)
  let restarted : Registry := started.apply (.restart 2.0)
  let first : Look := ⟨0, 1, 1, started.snapshot 3.0⟩
  have hjoin : Reachable { clock := 1.0, registry := {}, jobs }
      { clock := 1.0, registry := {}, jobs, lookers := [.idle] } := .tail .refl .join
  have hstart : Reachable { clock := 1.0, registry := {}, jobs }
      { clock := 2.0, registry := started, history := [.start 1.0], jobs := [.restart],
        lookers := [.idle] } :=
    ((hjoin.tail (.stamp rfl rfl)).tail (.tick h12)).tail (.write rfl)
  have hcopy : Reachable { clock := 1.0, registry := {}, jobs }
      { clock := 2.0, registry := started, history := [.start 1.0], jobs := [],
        pending := some (.restart 2.0), lookers := [.copied 1 1 started] } :=
    ((hstart.tail (.stamp rfl rfl)).tail (.begin (i := 0) rfl)).tail (.copy (i := 0) rfl)
  have hfirst : Reachable { clock := 1.0, registry := {}, jobs }
      { clock := 3.0, registry := restarted, history := [.start 1.0, .restart 2.0], jobs := [],
        lookers := [.idle], looks := [first] } :=
    ((hcopy.tail (.write rfl)).tail (.tick h23)).tail (.finish (i := 0) rfl)
  have hsecond : Reachable { clock := 1.0, registry := {}, jobs }
      { clock := 3.0, registry := restarted, history := [.start 1.0, .restart 2.0], jobs := [],
        lookers := [.idle], looks := [first, ⟨0, 2, 2, restarted.snapshot 3.0⟩] } :=
    ((hfirst.tail (.begin (i := 0) rfl)).tail (.copy (i := 0) rfl)).tail (.finish (i := 0) rfl)
  exact ⟨_, hsecond, rfl, looks_of_reachable (le_self_of_le h12).1 hsecond⟩

end Access

end EchoMetrics
