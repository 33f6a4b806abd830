import PacketBus.Proofs.Session.Trace
import PacketBus.Session.Run

/-! # What a pump adds to its trace

Events are added at the end, and each write call that they tell of has been counted. Closing adds a
read call, a warning if the stream ends within a packet, and the shutdown.
-/
namespace PacketBus.Pump
variable {σ : Type}

@[simp] theorem emit_trace (p : Pump σ) (es : List Event) :
    (p.emit es).trace.toList = p.trace.toList ++ es := by
  simp [emit]

@[simp] theorem emit_deframer (p : Pump σ) (es : List Event) :
    (p.emit es).deframer = p.deframer := rfl

@[simp] theorem emit_state (p : Pump σ) (es : List Event) : (p.emit es).state = p.state := rfl

@[simp] theorem emit_stats (p : Pump σ) (es : List Event) : (p.emit es).stats = p.stats := rfl

theorem emit_emit (p : Pump σ) (es fs : List Event) :
    (p.emit es).emit fs = p.emit (es ++ fs) := by
  have h : p.trace ++ es ++ fs = p.trace ++ (es ++ fs) := by
    apply Array.toList_inj.mp
    simp
  simp only [emit, h]

/-- Events have been added, and the write calls among them counted. -/
structure Adds (es : List Event) (p q : Pump σ) : Prop where
  trace_eq : q.trace.toList = p.trace.toList ++ es
  deframer_eq : q.deframer = p.deframer
  state_eq : q.state = p.state
  stats_eq : q.stats = p.stats
  calls_eq : q.calls = p.calls + Event.writeCalls es

theorem adds_refl (p : Pump σ) : Adds [] p p := ⟨by simp, rfl, rfl, rfl, rfl⟩

theorem adds_emit (p : Pump σ) {es : List Event} (hes : Event.writeCalls es = 0) :
    Adds es p (p.emit es) :=
  ⟨emit_trace p es, rfl, rfl, rfl, by rw [hes]; rfl⟩

theorem Adds.trans {es fs : List Event} {p q r : Pump σ} (hpq : Adds es p q) (hqr : Adds fs q r) :
    Adds (es ++ fs) p r where
  trace_eq := by rw [hqr.trace_eq, hpq.trace_eq, List.append_assoc]
  deframer_eq := hqr.deframer_eq.trans hpq.deframer_eq
  state_eq := hqr.state_eq.trans hpq.state_eq
  stats_eq := hqr.stats_eq.trans hpq.stats_eq
  calls_eq := by rw [hqr.calls_eq, hpq.calls_eq, Event.writeCalls_append, Nat.add_assoc]

/-- The warning of a stream that ends within a packet. -/
def cutWarning (p : Pump σ) : List Event :=
  if p.deframer.hasPartial then [.log (.cutStream p.deframer.length)] else []

theorem isLocal_cutWarning {p : Pump σ} : ∀ e ∈ p.cutWarning, e.isLocal = true := by
  intro e he
  unfold cutWarning at he
  split at he
  · rw [List.mem_singleton.mp he]
    rfl
  · simp at he

theorem close_of_none {sink : Sink} {p : Pump σ} (h : sink.shutdown.at? p.calls = none) :
    p.close sink =
      ⟨(p.emit (.read 0 :: (p.cutWarning ++ [.shutDown, .log (.closed p.stats)]))).trace, p.state,
        .ok p.stats⟩ := by
  have hcalls (es : List Event) : (p.emit es).calls = p.calls := rfl
  cases hp : p.deframer.hasPartial with
  | false => simp [close, cutWarning, hp, hcalls, h, emit_emit]
  | true => simp [close, cutWarning, hp, hcalls, h, emit_emit]

theorem close_of_some {sink : Sink} {p : Pump σ} {fault : IoFault}
    (h : sink.shutdown.at? p.calls = some fault) :
    p.close sink =
      (p.emit (.read 0 :: (p.cutWarning ++ [.shutDownFailed]))).stop (.io fault) := by
  have hcalls (es : List Event) : (p.emit es).calls = p.calls := rfl
  cases hp : p.deframer.hasPartial with
  | false => simp [close, cutWarning, hp, hcalls, h, emit_emit]
  | true => simp [close, cutWarning, hp, hcalls, h, emit_emit]

theorem close_state (sink : Sink) (p : Pump σ) : (p.close sink).state = p.state := by
  cases h : sink.shutdown.at? p.calls with
  | none => rw [close_of_none h]
  | some fault => rw [close_of_some h, stop, emit_state]

end PacketBus.Pump
