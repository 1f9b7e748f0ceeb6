import Mathlib.Data.List.Find
import Mathlib.Data.List.Induction
import EchoMetrics.Supervision.Schedule

/-! # Schedules grow with the exits

A schedule is told from all lifetimes at once. Here it is told exit by exit: what one more lifetime
adds to it, and that it leaves the part before as it was. -/

namespace EchoMetrics.Supervision

namespace Schedule

variable (b : Backoff) (threshold : Float) (ls : List Float) (l : Float)

/-! ## One more exit -/

theorem stable_append {i : Nat} (h : 1 ≤ i) (hi : i ≤ ls.length) :
    stable threshold (ls ++ [l]) i = stable threshold ls i := by
  rw [stable, stable, List.getElem?_append_left (by omega)]

theorem stable_append_length :
    stable threshold (ls ++ [l]) (ls.length + 1) = decide (threshold ≤ l) := by
  simp [stable]

theorem anchor_append {i : Nat} (hi : i ≤ ls.length) :
    anchor threshold (ls ++ [l]) i = anchor threshold ls i := by
  rw [anchor, anchor]
  congr 1
  apply List.find?_congr
  intro k hk
  have := List.mem_range'.1 (List.mem_reverse.1 hk)
  exact stable_append threshold ls l (by omega) (by omega)

theorem retries_append {i : Nat} (hi : i ≤ ls.length) :
    retries threshold (ls ++ [l]) i = retries threshold ls i := by
  rw [retries, retries, anchor_append threshold ls l hi]

theorem anchor_succ (i : Nat) :
    anchor threshold ls (i + 1) =
      if stable threshold ls (i + 1) then i + 1 else anchor threshold ls i := by
  rw [anchor, List.range'_1_concat, List.reverse_append, List.reverse_singleton,
    List.singleton_append, List.find?_cons, Nat.add_comm 1 i]
  cases stable threshold ls (i + 1) <;> rfl

theorem anchor_le {i : Nat} (h : 1 ≤ i) : anchor threshold ls i ≤ i := by
  induction i with
  | zero => simp at h
  | succ i ih =>
    rw [anchor_succ]
    split
    · exact Nat.le_refl _
    · rcases Nat.eq_zero_or_pos i with rfl | hi
      · exact Nat.le_refl 1
      · exact Nat.le_succ_of_le (ih hi)

/-- The retries that are used before the next exit, if that is not a stable one: none before the
first exit, and one more than at the last exit afterwards. -/
def used : Nat := if ls = [] then 0 else retries threshold ls ls.length + 1

/-- A stable exit restores all retries before it uses one. -/
theorem retries_append_length :
    retries threshold (ls ++ [l]) (ls.length + 1) =
      if threshold ≤ l then 0 else used threshold ls := by
  rw [retries, anchor_succ, stable_append_length, anchor_append threshold ls l (Nat.le_refl _),
    used, retries]
  by_cases hs : threshold ≤ l
  · simp [hs]
  · by_cases hn : ls = []
    · subst hn
      simp [hs, anchor]
    · have := anchor_le threshold ls (List.length_pos_iff.2 hn)
      simp only [hs, hn, decide_false, Bool.false_eq_true, if_false]
      omega

theorem used_append :
    used threshold (ls ++ [l]) = retries threshold (ls ++ [l]) (ls.length + 1) + 1 := by
  simp [used]

theorem delays_append :
    delays b threshold (ls ++ [l]) =
      delays b threshold ls ++ [b.delay (retries threshold (ls ++ [l]) (ls.length + 1))] := by
  rw [delays, List.length_append, List.length_singleton, List.range'_1_concat, List.map_append,
    List.map_singleton, Nat.add_comm 1, delays]
  congr 1
  apply List.map_congr_left
  intro i hi
  have := List.mem_range'.1 hi
  rw [retries_append threshold ls l (by omega)]

@[simp] theorem length_delays : (delays b threshold ls).length = ls.length := by simp [delays]

theorem moves_append :
    moves b threshold (ls ++ [l]) = moves b threshold ls ++
      [.spawn, .exit l, .sleep (b.delay (retries threshold (ls ++ [l]) (ls.length + 1)))] := by
  rw [moves, delays_append, List.zip_append (by simp), List.flatMap_append, moves]
  rfl

theorem lastExit?_append :
    lastExit? b threshold (ls ++ [l]) = (lastExit? b threshold ls).or
      (if b.maxRetries ≤ retries threshold (ls ++ [l]) (ls.length + 1) then some (ls.length + 1)
        else none) := by
  rw [lastExit?, List.length_append, List.length_singleton, List.range'_1_concat, List.find?_append,
    Nat.add_comm 1, lastExit?]
  congr 1
  · apply List.find?_congr
    intro i hi
    have := List.mem_range'.1 hi
    rw [retries_append threshold ls l (by omega)]
  · rw [List.find?_singleton]
    simp

end Schedule

/-! ## What the moves tell -/

namespace Move

def lifetime? : Move → Option Float
  | .exit l => some l
  | .spawn | .sleep _ => none

def delay? : Move → Option Float
  | .sleep d => some d
  | .spawn | .exit _ => none

end Move

namespace Journal

variable (j : Journal)

theorem spawns_eq_count_moves : j.spawns = j.moves.count .spawn := by
  simp only [spawns, moves, List.count_filterMap]
  apply List.countP_congr
  intro e _
  cases e with
  | reported r => cases r <;> simp
  | _ => simp

theorem lifetimes_eq_filterMap_moves : j.lifetimes = j.moves.filterMap (·.lifetime?) := by
  rw [lifetimes, moves, List.filterMap_filterMap]
  congr 1
  funext e
  cases e with
  | reported r => cases r <;> rfl
  | _ => rfl

theorem delays_eq_filterMap_moves : j.delays = j.moves.filterMap (·.delay?) := by
  rw [delays, moves, List.filterMap_filterMap]
  congr 1
  funext e
  cases e with
  | reported r => cases r <;> rfl
  | _ => rfl

end Journal

namespace Schedule

variable (b : Backoff) (threshold : Float) (ls : List Float)

theorem count_spawn_moves : (moves b threshold ls).count .spawn = ls.length := by
  induction ls using List.reverseRecOn with
  | nil => rfl
  | append_singleton ls l ih => simp [moves_append, ih]

theorem filterMap_lifetime?_moves : (moves b threshold ls).filterMap (·.lifetime?) = ls := by
  induction ls using List.reverseRecOn with
  | nil => rfl
  | append_singleton ls l ih => rw [moves_append, List.filterMap_append, ih]; rfl

theorem filterMap_delay?_moves :
    (moves b threshold ls).filterMap (·.delay?) = delays b threshold ls := by
  induction ls using List.reverseRecOn with
  | nil => rfl
  | append_singleton ls l ih => rw [moves_append, delays_append, List.filterMap_append, ih]; rfl

/-! The run ends before the last wait if no retry is left. -/

theorem dropLast_moves_append (l : Float) :
    (moves b threshold (ls ++ [l])).dropLast = moves b threshold ls ++ [.spawn, .exit l] := by
  rw [moves_append, List.dropLast_append_of_ne_nil (List.cons_ne_nil _ _)]
  rfl

theorem count_spawn_dropLast_moves :
    (moves b threshold ls).dropLast.count .spawn = ls.length := by
  cases ls using List.reverseRecOn with
  | nil => rfl
  | append_singleton ls l =>
    rw [dropLast_moves_append, List.count_append, count_spawn_moves, List.length_append]
    rfl

theorem filterMap_lifetime?_dropLast_moves :
    (moves b threshold ls).dropLast.filterMap (·.lifetime?) = ls := by
  cases ls using List.reverseRecOn with
  | nil => rfl
  | append_singleton ls l =>
    rw [dropLast_moves_append, List.filterMap_append, filterMap_lifetime?_moves]
    rfl

theorem filterMap_delay?_dropLast_moves :
    (moves b threshold ls).dropLast.filterMap (·.delay?) =
      (delays b threshold ls).take (ls.length - 1) := by
  cases ls using List.reverseRecOn with
  | nil => rfl
  | append_singleton ls l =>
    rw [dropLast_moves_append, List.filterMap_append, filterMap_delay?_moves, delays_append,
      List.length_append, List.length_singleton, Nat.add_sub_cancel,
      List.take_left' (length_delays ..)]
    exact List.append_nil _

end Schedule

end EchoMetrics.Supervision
