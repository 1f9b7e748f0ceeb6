import EchoMetrics.Proofs.Line.Source
import EchoMetrics.Registry.History
import EchoMetrics.Supervision.Intake

/-! # When a line is read

The time at which a line is read becomes part of its sample, and has no other influence. Main
statements: apart from that time, a line says the same and writes the same whenever it is read. -/

namespace EchoMetrics

namespace Sample

/-- A sample without its time. -/
def undated (s : Sample) : Sample := { s with observedAt := 0.0 }

variable (s : Sample)

@[simp] theorem undated_undated : s.undated.undated = s.undated := rfl
@[simp] theorem target_undated : s.undated.target = s.target := rfl
@[simp] theorem addr_undated : s.undated.addr = s.addr := rfl
@[simp] theorem source_undated : s.undated.source = s.source := rfl
@[simp] theorem transmitted_undated : s.undated.transmitted = s.transmitted := rfl
@[simp] theorem received_undated : s.undated.received = s.received := rfl
@[simp] theorem loss_undated : s.undated.loss = s.loss := rfl
@[simp] theorem rtt_undated : s.undated.rtt = s.rtt := rfl
@[simp] theorem seq_undated : s.undated.seq = s.seq := rfl
@[simp] theorem error_undated : s.undated.error = s.error := rfl

end Sample

namespace Write

/-- A write without the time of its sample. -/
def undated : Write → Write
  | .ingest s => .ingest s.undated
  | .error name kind => .error name kind
  | .parseError => .parseError
  | .start now => .start now
  | .restart now => .restart now
  | .phase p => .phase p
  | .version v => .version v

@[simp] theorem target?_undated (w : Write) : w.undated.target? = w.target? := by
  cases w <;> rfl

/-- A write about a target, or one that counts a line. -/
def OfLine : Write → Prop
  | .ingest _ | .error _ _ | .parseError => True
  | .start _ | .restart _ | .phase _ | .version _ => False

theorem OfLine.eq_parseError {w : Write} (h : w.OfLine) (hw : w.target? = none) :
    w = .parseError := by
  cases w with
  | parseError => rfl
  | ingest | error => cases hw
  | _ => exact h.elim

end Write

namespace Line

/-! ## What lines say -/

/-- A line may become this sample. -/
def Reads (raw : String) (s : Sample) : Prop :=
  ∃ observedAt, read (.float observedAt) raw = .sample s

def Outcome.undated : Outcome → Outcome
  | .sample s => .sample s.undated
  | .ignored notice raw => .ignored notice raw
  | .unreadable fault raw => .unreadable fault raw

variable {m : Measurement} {s s' : Sample} {raw : String}

/-- A round trip is told from its three times. -/
theorem roundTrip_inj {o o' : Option RoundTrip}
    (h : o.map (fun t => (t.min, t.avg, t.max)) = o'.map (fun t => (t.min, t.avg, t.max))) :
    o = o' := by
  refine Option.map_injective ?_ h
  rintro ⟨min, avg, max, _, _⟩ ⟨min', avg', max', _, _⟩ ht
  cases ht
  rfl

/-- The samples that hold a measurement differ in their times only. -/
theorem Measurement.HeldBy.undated_eq {t t' : Float} (h : m.HeldBy t s) (h' : m.HeldBy t' s') :
    s.undated = s'.undated := by
  have hrtt : s.rtt = s'.rtt := roundTrip_inj (h.rtt.trans h'.rtt.symm)
  have htarget := h.target.trans h'.target.symm
  have haddr := h.addr.trans h'.addr.symm
  have hsource := h.source.trans h'.source.symm
  have htransmitted := h.transmitted.trans h'.transmitted.symm
  have hreceived := h.received.trans h'.received.symm
  have hloss := h.loss.trans h'.loss.symm
  have hseq := h.seq.trans h'.seq.symm
  have herror := h.error.trans h'.error.symm
  cases s
  cases s'
  simp only at *
  subst_vars
  rfl

/-- Apart from its time, what a line says does not depend on when it is read. -/
theorem undated_read (t t' : Float) (raw : String) :
    (read (.float t) raw).undated = (read (.float t') raw).undated := by
  by_cases hempty : Text.trim raw = ""
  · simp only [read, if_pos hempty]
  · cases hs : shape? (Text.trim raw).toList with
    | none => simp only [read, hs, if_neg hempty]
    | some x =>
      cases hr : x.reading with
      | error fault => simp only [read, hs, hr, if_neg hempty]
      | ok said =>
        cases said with
        | inl notice => simp only [read, hs, hr, if_neg hempty]
        | inr m =>
          obtain ⟨s, hread, hheld⟩ := read_of_reading hs hr t
          obtain ⟨s', hread', hheld'⟩ := read_of_reading hs hr t'
          rw [hread, hread']
          exact congrArg Outcome.sample (hheld.undated_eq hheld')

theorem Reads.undated_eq (h : Reads raw s) (h' : Reads raw s') : s.undated = s'.undated := by
  obtain ⟨t, ht⟩ := h
  obtain ⟨t', ht'⟩ := h'
  have hread := undated_read t t' raw
  rw [ht, ht'] at hread
  exact Outcome.sample.inj hread

/-! ## What lines write -/

theorem Outcome.write?_undated (o : Outcome) : o.undated.write? = o.write?.map Write.undated := by
  rcases o with s | ⟨_ | _ | _, _⟩ | _ <;> rfl

theorem Outcome.ofLine_of_write? {o : Outcome} {w : Write} (h : o.write? = some w) : w.OfLine := by
  rcases o with s | ⟨_ | _ | _, _⟩ | _ <;> cases h <;> trivial

theorem Outcome.eq_sample_of_write? {o : Outcome} (h : o.write? = some (.ingest s)) :
    o = .sample s := by
  rcases o with s | ⟨_ | _ | _, _⟩ | _ <;> cases h
  rfl

/-- What a line writes, whenever it is read. -/
def write? (raw : String) : Option Write := (read (.float 0.0) raw).write?

theorem undated_write? (now : Float) (raw : String) :
    (read (.float now) raw).write?.map Write.undated = (write? raw).map Write.undated := by
  rw [← Outcome.write?_undated, undated_read now 0.0, Outcome.write?_undated, write?]

theorem reads_of_write? (h : write? raw = some (.ingest s)) : Reads raw s :=
  ⟨0.0, Outcome.eq_sample_of_write? h⟩

end Line

namespace Registry

variable {lines : List (Float × String)}

/-- What lines write is told from the lines, but for its times. -/
theorem undated_writesOf (lines : List (Float × String)) :
    (writesOf lines).map Write.undated =
      ((lines.map Prod.snd).filterMap Line.write?).map Write.undated := by
  rw [writesOf, List.map_filterMap, List.filterMap_map, List.map_filterMap]
  exact List.filterMap_congr fun line _ => Line.undated_write? line.1 line.2

theorem ofLine_of_mem_writesOf {w : Write} (h : w ∈ writesOf lines) : w.OfLine := by
  obtain ⟨_, -, hw⟩ := List.mem_filterMap.1 h
  exact Line.Outcome.ofLine_of_write? hw

theorem exists_reads_of_mem_writesOf {s : Sample} (h : .ingest s ∈ writesOf lines) :
    ∃ line ∈ lines, Line.Reads line.2 s := by
  obtain ⟨line, hline, hw⟩ := List.mem_filterMap.1 h
  exact ⟨line, hline, line.1, Line.Outcome.eq_sample_of_write? hw⟩

end Registry

end EchoMetrics
