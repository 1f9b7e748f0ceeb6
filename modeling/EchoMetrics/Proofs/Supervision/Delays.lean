import EchoMetrics.Backoff
import EchoMetrics.Proofs.Binary.Difference
import EchoMetrics.Proofs.Binary.Doubling

/-! # Delays over any number of calls

Every answer depends on the retries since the last reset only, which the answers before it tell. A
retry after `k` others waits for `base * 2 ^ k`, or for the cap if that is less. Main statement:
this holds of all retries, but for the one whose power of two is no float any more, which is refused
though the budget is not used up. -/

namespace EchoMetrics.Backoff

open Binary

/-- A finite base above zero, and a cap that is not less. -/
structure Valid (b : Backoff) : Prop where
  isFinite : b.base.isFinite = true
  pos : 0.0 < b.base
  le : b.base ≤ b.cap

/-! ## One delay -/

namespace Valid

variable {b : Backoff} {j k : Nat}

theorem zero_le_cap (h : b.Valid) : 0.0 ≤ b.cap :=
  le_trans (zero_le_of_pos h.pos) h.le

theorem size_delay (h : b.Valid) (hk : k < 1024) : 0.0 ≤ b.delay k ∧
    size (b.delay k) = min (size b.cap) (saturate (val b.base * 2 ^ k)) := by
  obtain ⟨hnonneg, hsize⟩ := size_mul_two_pow h.isFinite h.pos hk
  change 0.0 ≤ (if b.base * floatOfNat (2 ^ k) < b.cap then _ else _) ∧
    size (if b.base * floatOfNat (2 ^ k) < b.cap then _ else _) = _
  rw [← hsize]
  have hlt := lt_iff_size_lt hnonneg h.zero_le_cap
  split
  · rename_i hcap
    exact ⟨hnonneg, (min_eq_right (hlt.1 hcap).le).symm⟩
  · rename_i hcap
    exact ⟨h.zero_le_cap, (min_eq_left (not_lt.1 fun hd => hcap (hlt.2 hd))).symm⟩

theorem delay_le_cap (h : b.Valid) (hk : k < 1024) : b.delay k ≤ b.cap := by
  obtain ⟨hnonneg, hsize⟩ := h.size_delay hk
  rw [le_iff_size_le hnonneg h.zero_le_cap, hsize]
  exact min_le_left _ _

theorem val_pos (h : b.Valid) : 0 < val b.base := by
  have hpos := h.pos
  rwa [lt_iff_val_lt isFinite_zero h.isFinite, val_zero] at hpos

theorem delay_pos (h : b.Valid) (hk : k < 1024) : 0.0 < b.delay k := by
  have hzero : (0.0 : Float) ≤ 0.0 := by decide +kernel
  have hbase := zero_le_of_pos h.pos
  obtain ⟨hnonneg, hsize⟩ := h.size_delay hk
  have hcap : size 0.0 < size b.cap :=
    ((lt_iff_size_lt hzero hbase).1 h.pos).trans_le ((le_iff_size_le hbase h.zero_le_cap).1 h.le)
  have hproduct : size 0.0 < saturate (val b.base * 2 ^ k) := by
    rw [size, unpack_zero]
    exact saturate_pos (mul_pos h.val_pos (pow_pos two_pos k))
  rw [lt_iff_size_lt hzero hnonneg, hsize]
  exact lt_min hcap hproduct

theorem delay_mono (h : b.Valid) (hjk : j ≤ k) (hk : k < 1024) : b.delay j ≤ b.delay k := by
  obtain ⟨hj, hjsize⟩ := h.size_delay (hjk.trans_lt hk)
  obtain ⟨hk, hksize⟩ := h.size_delay hk
  rw [le_iff_size_le hj hk, hjsize, hksize]
  refine min_le_min_left _ (saturate_mono ?_)
  exact mul_le_mul_of_nonneg_left (pow_le_pow_right₀ one_le_two hjk) h.val_pos.le

end Valid

/-! ## Retries since the last reset -/

/-- Whether a retry was granted. -/
def granted : Option (Except Fault Float) → Bool
  | some (.ok _) => true
  | some (.error _) | none => false

/-- The retries that were granted since the last reset. -/
def retries (as : List (Option (Except Fault Float))) : Nat :=
  (as.reverse.takeWhile (·.isSome)).countP granted

section

variable (as : List (Option (Except Fault Float)))

@[simp] theorem retries_append_none : retries (as ++ [none]) = 0 := by
  simp [retries]

@[simp] theorem retries_append_some (r : Except Fault Float) :
    retries (as ++ [some r]) = retries as + if granted (some r) then 1 else 0 := by
  simp [retries, List.countP_cons]

theorem retries_le_append {bs : List (Option (Except Fault Float))}
    (h : ∀ a ∈ bs, a.isSome = true) : retries as ≤ retries (as ++ bs) := by
  rw [retries, retries, List.reverse_append,
    List.takeWhile_append_of_pos fun a ha => h a (List.mem_reverse.1 ha), List.countP_append]
  exact Nat.le_add_left _ _

end

/-! ## One call after another -/

/-- The state after one call after another. -/
def after (b : Backoff) (cs : List Call) : Backoff := cs.foldl (fun b c => (b.answer c).2) b

/-- What is answered to one call after another. -/
def outcomes (b : Backoff) (cs : List Call) : List (Option (Except Fault Float)) :=
  (b.answers cs).map (·.1)

section

variable (b : Backoff)

theorem answers_append (cs cs' : List Call) :
    b.answers (cs ++ cs') = b.answers cs ++ (b.after cs).answers cs' := by
  induction cs generalizing b with
  | nil => rfl
  | cons c cs ih => exact congrArg (b.answer c :: ·) (ih (b.answer c).2)

theorem after_append_singleton (cs : List Call) (c : Call) :
    b.after (cs ++ [c]) = ((b.after cs).answer c).2 := List.foldl_append

theorem outcomes_append (cs cs' : List Call) :
    b.outcomes (cs ++ cs') = b.outcomes cs ++ (b.after cs).outcomes cs' := by
  rw [outcomes, answers_append, List.map_append]
  rfl

theorem getElem?_answers {cs : List Call} {i : Nat} {c : Call} (h : cs[i]? = some c) :
    (b.answers cs)[i]? = some ((b.after (cs.take i)).answer c) := by
  induction cs generalizing b i with
  | nil => cases h
  | cons c' cs ih =>
    cases i with
    | zero =>
      obtain rfl := Option.some.inj h
      rfl
    | succ i => exact ih (b.answer c').2 h

end

/-- The answer to a retry after `k` others, and the state that it leaves. The delay is the lesser of
the cap and the exact product. -/
inductive Answered (b : Backoff) (k : Nat) : Option (Except Fault Float) × Backoff → Prop
  | delay (hk : k < b.maxRetries) (hfactor : k < 1024) (hpos : 0.0 < b.delay k)
      (hcap : b.delay k ≤ b.cap)
      (hsize : size (b.delay k) = min (size b.cap) (saturate (val b.base * 2 ^ k))) :
      Answered b k (some (.ok (b.delay k)), { b with attempts := k + 1 })
  | exhausted (hk : b.maxRetries ≤ k) :
      Answered b k (some (.error (.exhausted (k + 1))), { b with attempts := k })
  | factorTooLarge (hk : k < b.maxRetries) (hfactor : k = 1024) :
      Answered b k (some (.error .factorTooLarge), { b with attempts := k })

section

variable {b : Backoff} {k : Nat}

theorem next_of_lt (hk : k < b.maxRetries) (hfactor : k < 1024) :
    ({ b with attempts := k } : Backoff).next =
      .ok (b.delay k, { b with attempts := k + 1 }) := by
  have hfinite := mt isInf_floatOfNat_two_pow_iff.1 hfactor.not_ge
  rw [next, if_neg hk.not_ge, if_neg hfinite]
  rfl

theorem next_of_ge (hk : k < b.maxRetries) (hfactor : 1024 ≤ k) :
    ({ b with attempts := k } : Backoff).next = .error .factorTooLarge := by
  rw [next, if_neg hk.not_ge, if_pos (isInf_floatOfNat_two_pow_iff.2 hfactor)]

theorem answered_next (h : b.Valid) (hk : k ≤ 1024) :
    b.Answered k (({ b with attempts := k } : Backoff).answer .next) := by
  rw [answer]
  rcases Nat.lt_or_ge k b.maxRetries with hmax | hmax
  · rcases hk.lt_or_eq with hfactor | hfactor
    · rw [next_of_lt hmax hfactor]
      exact .delay hmax hfactor (h.delay_pos hfactor) (h.delay_le_cap hfactor)
        (h.size_delay hfactor).2
    · rw [next_of_ge hmax hfactor.ge]
      exact .factorTooLarge hmax hfactor
  · rw [next_eq_exhausted hmax]
    exact .exhausted hmax

/-- The answer to a call and the state after it go together. -/
theorem answer_retries (h : b.Valid) {as : List (Option (Except Fault Float))}
    (hle : retries as ≤ 1024) (c : Call) :
    (({ b with attempts := retries as } : Backoff).answer c).2 =
        { b with
          attempts :=
            retries (as ++ [(({ b with attempts := retries as } : Backoff).answer c).1]) } ∧
      retries (as ++ [(({ b with attempts := retries as } : Backoff).answer c).1]) ≤ 1024 := by
  cases c with
  | reset =>
    change ({ b with attempts := 0 } : Backoff) = { b with attempts := retries (as ++ [none]) } ∧
      retries (as ++ [none]) ≤ 1024
    rw [retries_append_none]
    exact ⟨rfl, Nat.zero_le _⟩
  | next =>
    have hanswer := answered_next h hle
    generalize ({ b with attempts := retries as } : Backoff).answer .next = a at hanswer
    cases hanswer with
    | delay _ hfactor _ _ _ =>
      rw [retries_append_some]
      exact ⟨rfl, hfactor⟩
    | exhausted | factorTooLarge =>
      rw [retries_append_some]
      exact ⟨rfl, hle⟩

/-- The answers tell the state. -/
theorem after_eq (h : b.Valid) (h0 : b.attempts = 0) (cs : List Call) :
    b.after cs = { b with attempts := retries (b.outcomes cs) } ∧
      retries (b.outcomes cs) ≤ 1024 := by
  induction cs using List.reverseRecOn with
  | nil =>
    obtain ⟨base, cap, maxRetries, attempts⟩ := b
    obtain rfl : attempts = 0 := h0
    exact ⟨rfl, Nat.zero_le _⟩
  | append_singleton cs c ih =>
    obtain ⟨hafter, hle⟩ := ih
    have hlast : b.outcomes (cs ++ [c]) = b.outcomes cs ++ [((b.after cs).answer c).1] :=
      b.outcomes_append cs [c]
    rw [after_append_singleton, hlast, hafter]
    exact answer_retries h hle c

theorem isSome_of_next {cs : List Call} (hcs : ∀ c ∈ cs, c ≠ .reset) :
    ∀ a ∈ b.outcomes cs, a.isSome = true := by
  induction cs generalizing b with
  | nil => nofun
  | cons c cs ih =>
    obtain ⟨hc, hcs⟩ := List.forall_mem_cons.1 hcs
    refine List.forall_mem_cons.2 ⟨?_, ih hcs⟩
    cases c with
    | reset => exact absurd rfl hc
    | next =>
      rw [answer]
      cases b.next <;> rfl

/-- So many retries are granted in a row. -/
theorem after_replicate (h0 : b.attempts = 0) (hk : k ≤ b.maxRetries) (hfactor : k ≤ 1024) :
    b.after (List.replicate k .next) = { b with attempts := k } := by
  induction k with
  | zero =>
    obtain ⟨base, cap, maxRetries, attempts⟩ := b
    obtain rfl : attempts = 0 := h0
    rfl
  | succ k ih =>
    rw [List.replicate_succ', after_append_singleton, ih (by omega) (by omega), answer,
      next_of_lt hk hfactor]

/-- Where no reset stands in between, there were more retries later. -/
theorem retries_mono {cs : List Call} {i j : Nat} (hij : i ≤ j)
    (hcs : ∀ l, i ≤ l → l < j → cs[l]? ≠ some .reset) :
    retries (b.outcomes (cs.take i)) ≤ retries (b.outcomes (cs.take j)) := by
  have htake : cs.take i ++ (cs.take j).drop i = cs.take j := by
    rw [← min_eq_left hij, ← List.take_take, min_eq_left hij, List.take_append_drop]
  rw [← htake, outcomes_append]
  refine retries_le_append _ (isSome_of_next ?_)
  rintro _ hc rfl
  obtain ⟨l, hl⟩ := List.getElem?_of_mem hc
  rw [List.getElem?_drop, List.getElem?_take] at hl
  split at hl
  · rename_i hlt
    exact hcs (i + l) (Nat.le_add_right i l) hlt hl
  · cases hl

theorem granted_eq (h : b.Valid) (h0 : b.attempts = 0) {cs : List Call} {i : Nat} {d : Float}
    (hd : (b.outcomes cs)[i]? = some (some (.ok d))) :
    cs[i]? = some .next ∧ retries (b.outcomes (cs.take i)) < 1024 ∧
      d = b.delay (retries (b.outcomes (cs.take i))) := by
  have hlt : i < cs.length := by
    rw [← length_answers b cs, ← List.length_map (·.1)]
    exact (List.getElem?_eq_some_iff.1 hd).1
  obtain ⟨hafter, hle⟩ := after_eq h h0 (cs.take i)
  have hcall : cs[i]? = some cs[i] := List.getElem?_eq_getElem hlt
  rw [outcomes, List.getElem?_map, b.getElem?_answers hcall, hafter] at hd
  cases hc : cs[i] with
  | reset =>
    rw [hc] at hd
    cases hd
  | next =>
    rw [hc] at hd hcall
    have hanswer := answered_next h hle
    generalize ({ b with attempts := retries _ } : Backoff).answer .next = a at hanswer hd
    cases hanswer with
    | delay _ hfactor _ _ _ =>
      cases hd
      exact ⟨hcall, hfactor, rfl⟩
    | exhausted | factorTooLarge => cases hd

end

/-- Every retry is answered by what the answers before it tell, and delays do not decrease until the
next reset. -/
theorem answers_delays {b : Backoff} (h : b.Valid) (h0 : b.attempts = 0) (cs : List Call) :
    (∀ i : Nat, cs[i]? = some .next → ∃ a, (b.answers cs)[i]? = some a ∧
      b.Answered (retries (b.outcomes (cs.take i))) a) ∧
    (∀ i : Nat, cs[i]? = some .reset → (b.answers cs)[i]? = some (none, { b with attempts := 0 })) ∧
    ∀ (i j : Nat) (d d' : Float), i < j → (∀ l, i < l → l < j → cs[l]? ≠ some .reset) →
      (b.outcomes cs)[i]? = some (some (.ok d)) → (b.outcomes cs)[j]? = some (some (.ok d')) →
        d ≤ d' := by
  refine ⟨?_, ?_, ?_⟩
  · intro i hi
    obtain ⟨hafter, hle⟩ := after_eq h h0 (cs.take i)
    refine ⟨_, b.getElem?_answers hi, ?_⟩
    rw [hafter]
    exact answered_next h hle
  · intro i hi
    rw [b.getElem?_answers hi, (after_eq h h0 (cs.take i)).1]
    rfl
  · intro i j d d' hij hcs hd hd'
    obtain ⟨hi, -, rfl⟩ := granted_eq h h0 hd
    obtain ⟨-, hk, rfl⟩ := granted_eq h h0 hd'
    refine h.delay_mono (retries_mono hij.le ?_) hk
    intro l hil hlj
    rcases hil.eq_or_lt with rfl | hil
    · rw [hi]
      nofun
    · exact hcs l hil hlj

/-- The budget is used up, and after a reset the first retry is granted again. -/
theorem answers_delays_reset :
    (⟨1.0, 30.0, 2, 0⟩ : Backoff).Valid ∧
    (∃ a,
      ((⟨1.0, 30.0, 2, 0⟩ : Backoff).answers [.next, .next, .next, .reset, .next])[2]? = some a ∧
      (⟨1.0, 30.0, 2, 0⟩ : Backoff).Answered 2 a) ∧
    ∃ a, ((⟨1.0, 30.0, 2, 0⟩ : Backoff).answers [.next, .next, .next, .reset, .next])[4]? = some a ∧
      (⟨1.0, 30.0, 2, 0⟩ : Backoff).Answered 0 a := by
  have hvalid : (⟨1.0, 30.0, 2, 0⟩ : Backoff).Valid :=
    ⟨isFinite_one, by decide +kernel, by decide +kernel⟩
  obtain ⟨hnext, -⟩ := answers_delays hvalid rfl [.next, .next, .next, .reset, .next]
  have hused : retries ((⟨1.0, 30.0, 2, 0⟩ : Backoff).outcomes [.next, .next]) = 2 := by
    decide +kernel
  have hreset :
      retries ((⟨1.0, 30.0, 2, 0⟩ : Backoff).outcomes [.next, .next, .next, .reset]) = 0 := by
    decide +kernel
  exact ⟨hvalid, hused ▸ hnext 2 rfl, hreset ▸ hnext 4 rfl⟩

/-- A retry is refused though more than 900 are left. -/
theorem answers_factorTooLarge :
    ((⟨1.0, 30.0, 2000, 0⟩ : Backoff).answers (List.replicate 1025 .next))[1024]? =
      some (some (.error .factorTooLarge), ⟨1.0, 30.0, 2000, 1024⟩) := by
  have hcall : (List.replicate 1025 Call.next)[1024]? = some .next := by
    rw [List.getElem?_replicate, if_pos (by decide)]
  rw [getElem?_answers _ hcall, List.take_replicate, min_eq_left (by decide),
    after_replicate rfl (by decide) (by decide), answer, next_of_ge (by decide) (by decide)]

end EchoMetrics.Backoff
