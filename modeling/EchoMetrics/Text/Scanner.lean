import EchoMetrics.Text.Blank

/-! # Scanners

A scanner reads a part of a text off its front, or fails. None of them guesses: a run is always the
longest one, so that what a scanner reads is determined by the text. -/

namespace EchoMetrics.Text

abbrev Scanner := StateT (List Char) Option

namespace Scanner

/-- The longest run of characters satisfying `p`, which must not be empty. -/
def run (p : Char → Bool) : Scanner (List Char) := fun cs =>
  match cs.takeWhile p with
  | [] => none
  | c :: t => some (c :: t, cs.dropWhile p)

/-- The longest run of characters other than `stop`, and `stop` itself, which is dropped. -/
def upTo (stop : Char) : Scanner (List Char) := fun cs =>
  match cs.dropWhile (· != stop) with
  | [] => none
  | _ :: rest => some (cs.takeWhile (· != stop), rest)

/-- What follows `front` in a text that starts with it. -/
def after? : (front : List Char) → List Char → Option (List Char)
  | [], cs => some cs
  | _ :: _, [] => none
  | c :: front, d :: cs => if c = d then after? front cs else none

/-- The text itself. -/
def lit (s : String) : Scanner Unit := fun cs => (after? s.toList cs).map ((), ·)

/-- A word: no blanks in it. -/
def word : Scanner (List Char) := run fun c => !isBlank c

/-- One blank or more. -/
def blanks : Scanner Unit := fun cs => (run isBlank cs).map fun p => ((), p.2)

/-- Any number of blanks. -/
def spaces : Scanner Unit := fun cs => some ((), cs.dropWhile isBlank)

/-- The end of the text. -/
def done : Scanner Unit := fun
  | [] => some ((), [])
  | _ :: _ => none

/-- A part that may be missing. -/
def maybe {α : Type} (s : Scanner α) : Scanner (Option α) := fun cs =>
  match s cs with
  | some (a, rest) => some (some a, rest)
  | none => some (none, cs)

/-- The shortest text, of one character or more and without a line break, after which `next`
succeeds. -/
def shortestBefore {α : Type} (next : Scanner α) : Scanner (List Char × α) := fun
  | [] => none
  | c :: cs =>
    if c = '\n' then none
    else match next cs with
      | some (a, rest) => some (([c], a), rest)
      | none => (shortestBefore next cs).map fun ((t, a), rest) => ((c :: t, a), rest)

section

variable {α β : Type} {cs rest : List Char}

theorem bind_eq_some_iff {s : Scanner α} {f : α → Scanner β} {b : β} :
    (s >>= f) cs = some (b, rest) ↔
      ∃ a middle, s cs = some (a, middle) ∧ f a middle = some (b, rest) := by
  change (s cs >>= fun p => f p.1 p.2) = _ ↔ _
  simp [Option.bind_eq_some_iff]

@[simp] theorem pure_eq_some_iff {a b : α} :
    (pure a : Scanner α) cs = some (b, rest) ↔ a = b ∧ cs = rest := by
  change some (a, cs) = _ ↔ _
  simp

theorem map_eq_some_iff {s : Scanner α} {f : α → β} {b : β} :
    (f <$> s) cs = some (b, rest) ↔ ∃ a, s cs = some (a, rest) ∧ f a = b := by
  change (s cs >>= fun p => some (f p.1, p.2)) = _ ↔ _
  simp [Option.bind_eq_some_iff]

theorem orElse_eq_some_iff {s t : Scanner α} {a : α} :
    (s <|> t) cs = some (a, rest) ↔
      s cs = some (a, rest) ∨ s cs = none ∧ t cs = some (a, rest) := by
  change (s cs).orElse (fun _ => t cs) = _ ↔ _
  cases s cs <;> simp

theorem maybe_eq_some_iff {s : Scanner α} {a : Option α} :
    maybe s cs = some (a, rest) ↔
      (∃ b, s cs = some (b, rest) ∧ a = some b) ∨ s cs = none ∧ a = none ∧ cs = rest := by
  simp only [maybe]
  split
  · rename_i b middle h
    simp only [h, Option.some.injEq, Prod.mk.injEq, reduceCtorEq, false_and, or_false]
    constructor
    · rintro ⟨rfl, rfl⟩
      exact ⟨b, ⟨rfl, rfl⟩, rfl⟩
    · rintro ⟨b, ⟨rfl, rfl⟩, rfl⟩
      exact ⟨rfl, rfl⟩
  · rename_i h
    simp [h, eq_comm]

@[simp] theorem done_eq_some_iff {u : Unit} : done cs = some (u, rest) ↔ cs = [] ∧ rest = [] := by
  cases cs <;> simp [done, eq_comm]

end

theorem after?_eq_some_iff {front cs rest : List Char} :
    after? front cs = some rest ↔ cs = front ++ rest := by
  fun_induction after? front cs with
  | case1 => simp [eq_comm]
  | case2 => simp
  | case3 c front cs ih => simp [ih]
  | case4 c front d cs h => simp [Ne.symm h]

@[simp] theorem lit_eq_some_iff {s : String} {cs rest : List Char} {u : Unit} :
    lit s cs = some (u, rest) ↔ cs = s.toList ++ rest := by
  simp [lit, after?_eq_some_iff]

theorem lit_append (s : String) (rest : List Char) : lit s (s.toList ++ rest) = some ((), rest) :=
  lit_eq_some_iff.2 rfl

/-- A run is a nonempty text of its class, in front of a rest that cannot extend it. -/
theorem run_eq_some_iff {p : Char → Bool} {cs t rest : List Char} :
    run p cs = some (t, rest) ↔
      cs = t ++ rest ∧ t ≠ [] ∧ (∀ c ∈ t, p c = true) ∧ ∀ c ∈ rest.head?, p c = false := by
  constructor
  · intro h
    simp only [run] at h
    split at h
    · simp at h
    · rename_i c t' ht
      simp only [Option.some.injEq, Prod.mk.injEq] at h
      obtain ⟨rfl, rfl⟩ := h
      refine ⟨by rw [← ht, List.takeWhile_append_dropWhile], by simp, fun d hd => ?_,
        fun d hd => ?_⟩
      · rw [← ht] at hd
        exact List.all_eq_true.1 (List.all_takeWhile ..) d hd
      · have := List.head?_dropWhile_not p cs
        rw [Option.mem_def.1 hd] at this
        exact this
  · rintro ⟨rfl, ht, hp, hr⟩
    have h₁ : (t ++ rest).takeWhile p = t := by
      rw [List.takeWhile_append_of_pos hp]
      cases rest with
      | nil => simp
      | cons c rest => simp [hr c (by simp)]
    have h₂ : (t ++ rest).dropWhile p = rest := by
      rw [List.dropWhile_append_of_pos hp]
      cases rest with
      | nil => simp
      | cons c rest => simp [hr c (by simp)]
    cases t with
    | nil => exact absurd rfl ht
    | cons c t => simp only [run, h₁, h₂]

theorem upTo_eq_some_iff {stop : Char} {cs t rest : List Char} :
    upTo stop cs = some (t, rest) ↔ cs = t ++ stop :: rest ∧ ∀ c ∈ t, c ≠ stop := by
  constructor
  · intro h
    simp only [upTo] at h
    split at h
    · simp at h
    · rename_i d rest' hd
      simp only [Option.some.injEq, Prod.mk.injEq] at h
      obtain ⟨rfl, rfl⟩ := h
      have hs : d = stop := by
        have := List.head?_dropWhile_not (· != stop) cs
        simpa [hd] using this
      refine ⟨?_, fun c hc => ?_⟩
      · subst hs
        rw [← hd, List.takeWhile_append_dropWhile]
      · simpa using List.all_eq_true.1 (List.all_takeWhile ..) c hc
  · rintro ⟨rfl, ht⟩
    have hp : ∀ c ∈ t, (c != stop) = true := fun c hc => by simpa using ht c hc
    simp [upTo, List.takeWhile_append_of_pos hp, List.dropWhile_append_of_pos hp]

/-- The text in front of `next` has no line break, and `next` fails behind every shorter one. -/
theorem shortestBefore_eq_some_iff {α : Type} {next : Scanner α} {cs t rest : List Char} {a : α} :
    shortestBefore next cs = some ((t, a), rest) ↔
      ∃ middle, cs = t ++ middle ∧ t ≠ [] ∧ (∀ c ∈ t, c ≠ '\n') ∧ next middle = some (a, rest) ∧
        ∀ t₁ t₂, t = t₁ ++ t₂ → t₁ ≠ [] → t₂ ≠ [] → next (t₂ ++ middle) = none := by
  induction cs generalizing t with
  | nil =>
    simp only [shortestBefore, reduceCtorEq, false_iff]
    rintro ⟨middle, h, ht, -⟩
    exact ht (List.append_eq_nil_iff.1 h.symm).1
  | cons c cs ih =>
    rw [shortestBefore]
    constructor
    · intro h
      split at h
      · simp at h
      · rename_i hc
        split at h
        · rename_i hn
          simp only [Option.some.injEq, Prod.mk.injEq] at h
          obtain ⟨⟨rfl, rfl⟩, rfl⟩ := h
          refine ⟨cs, rfl, by simp, by simpa using hc, hn, fun t₁ t₂ e h₁ h₂ => ?_⟩
          have := congrArg List.length e
          have := List.length_pos_iff.2 h₁
          have := List.length_pos_iff.2 h₂
          simp only [List.length_append, List.length_singleton] at *
          omega
        · rename_i hn
          simp only [Option.map_eq_some_iff, Prod.mk.injEq] at h
          obtain ⟨⟨⟨t, a⟩, rest⟩, h, ⟨rfl, rfl⟩, rfl⟩ := h
          obtain ⟨middle, rfl, ht, hl, hm, hs⟩ := ih.1 h
          refine ⟨middle, rfl, by simp, by simpa [hc] using hl, hm, fun t₁ t₂ e h₁ h₂ => ?_⟩
          cases t₁ with
          | nil => exact absurd rfl h₁
          | cons d t₁ =>
            simp only [List.cons_append, List.cons.injEq] at e
            obtain ⟨rfl, e⟩ := e
            cases t₁ with
            | nil =>
              obtain rfl : t = t₂ := by simpa using e
              exact hn
            | cons d t₁ => exact hs _ _ e (by simp) h₂
    · rintro ⟨middle, e, ht, hl, hm, hs⟩
      cases t with
      | nil => exact absurd rfl ht
      | cons d t =>
        simp only [List.cons_append, List.cons.injEq] at e
        obtain ⟨rfl, rfl⟩ := e
        rw [if_neg (hl c (by simp))]
        cases t with
        | nil => simp [hm]
        | cons d t =>
          have hn : next (d :: t ++ middle) = none := hs [c] (d :: t) rfl (by simp) (by simp)
          simp only [hn, Option.map_eq_some_iff, Prod.mk.injEq]
          refine ⟨((d :: t, a), rest), ih.2 ⟨middle, rfl, by simp, ?_, hm, ?_⟩, ⟨rfl, rfl⟩, rfl⟩
          · exact fun x hx => hl x (by simp [List.mem_cons.1 hx])
          · exact fun t₁ t₂ e h₁ h₂ => hs (c :: t₁) t₂ (by simp [e]) (by simp) h₂

end Scanner

end EchoMetrics.Text
