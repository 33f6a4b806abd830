import PacketBus.Proofs.Session.Writes

/-! # Rounds with faulty sinks

Two sessions that differ in their sinks alone go through the same rounds as long as their sinks do
not fail. A fault ends the session that meets it after all packets of the round have been served.
-/
namespace PacketBus
variable {σ : Type}

namespace Event

/-- What a trace shows apart from the calls to the sink. -/
def aside (trace : List Event) : List Event := trace.filter (!·.isSinkCall)

@[simp] theorem aside_append (es fs : List Event) : aside (es ++ fs) = aside es ++ aside fs :=
  List.filter_append _ _

theorem aside_of_isSending {es : List Event} (h : ∀ e ∈ es, e.isSending = true) :
    aside es = [] := by
  refine List.filter_eq_nil_iff.mpr ?_
  intro e he
  simp [isSinkCall_of_isSending (h e he)]

/-- Two traces that show the same apart from the pieces in which octets were written. -/
structure Agree (sink : Sink) (es fs : List Event) : Prop where
  written_eq : written es = written fs
  aside_eq : aside es = aside fs
  harmless : Harmless true sink 0 es

variable {sink other : Sink} {es fs es' fs' : List Event} {out : Octets}

theorem agree_nil (sink : Sink) : Agree sink [] [] := ⟨rfl, rfl, trivial⟩

theorem Agree.append (h : Agree sink es fs) (hw : written es' = written fs')
    (ha : aside es' = aside fs') (hh : Harmless true sink (writeCalls es) es') :
    Agree sink (es ++ es') (fs ++ fs') where
  written_eq := by rw [written_append, written_append, h.written_eq, hw]
  aside_eq := by rw [aside_append, aside_append, h.aside_eq, ha]
  harmless := harmless_append.mpr ⟨h.harmless, by rwa [Nat.zero_add]⟩

theorem Agree.append_self (h : Agree sink es fs) (hes : ∀ e ∈ es', e.isSinkCall = false) :
    Agree sink (es ++ es') (fs ++ es') :=
  h.append rfl rfl (harmless_of_forall hes)

/-- Sessions agree that have sent the same, in whatever pieces. -/
theorem Agree.append_sends (h : Agree sink es fs) {n : Nat}
    (hes : Sends true sink (writeCalls es) out es') (hfs : Sends true other n out fs') :
    Agree sink (es ++ es') (fs ++ fs') := by
  refine h.append ?_ ?_ hes.harmless
  · rw [hes.written_eq, hfs.written_eq]
  · rw [aside_of_isSending hes.isSending, aside_of_isSending hfs.isSending]

end Event

namespace Pump
open Event
variable {config : SessionConfig} {bus : Bus σ} {sink : Sink} {p q : Pump σ}

/-- Two sessions that have come equally far, the first with a sink that has not failed. -/
structure Matches (sink : Sink) (p q : Pump σ) : Prop where
  deframer_eq : p.deframer = q.deframer
  state_eq : p.state = q.state
  stats_eq : p.stats = q.stats
  calls_eq : p.calls = writeCalls p.trace.toList
  agree : Agree sink p.trace.toList q.trace.toList

theorem matches_new (sink : Sink) (limit : UInt32) (start : σ) :
    Matches sink { deframer := .new limit, state := start }
      { deframer := .new limit, state := start } :=
  ⟨rfl, rfl, rfl, rfl, agree_nil sink⟩

theorem Matches.receive (h : Matches sink p q) (config : SessionConfig) (bus : Bus σ)
    (chunk : Octets) :
    ∃ p' q' out fault, p.receive config bus chunk = (p', out, fault) ∧
      q.receive config bus chunk = (q', out, fault) ∧ Matches sink p' q' ∧
      p.trace.toList ++ [.read chunk.length] <+: p'.trace.toList := by
  obtain ⟨deframer, state, stats, calls, trace⟩ := p
  obtain ⟨_, _, _, calls', trace'⟩ := q
  obtain ⟨rfl, rfl, rfl, hcalls, hagree⟩ := h
  have hquiet (served : List Served) :
      ∀ e ∈ .read chunk.length :: served.flatMap Served.events, e.isSinkCall = false := by
    refine List.forall_mem_cons.mpr ⟨rfl, fun e he => ?_⟩
    exact not_isSinkCall_of_local (Served.isLocal_events e he)
  refine ⟨_, _, _, _, rfl, rfl, ⟨rfl, rfl, rfl, ?_, ?_⟩, ?_⟩
  · rw [emit_trace, writeCalls_append, writeCalls_eq_zero (hquiet _)]
    exact hcalls
  · rw [emit_trace, emit_trace]
    exact hagree.append_self (hquiet _)
  · rw [emit_trace]
    exact ⟨_, by rw [List.append_assoc, List.singleton_append]⟩

/-- How a session stands that a fault of its sink has ended, next to one that goes on. -/
structure Broken (sink : Sink) (before : List Event) (fault : IoFault) (p q : Pump σ) : Prop where
  state_eq : p.state = q.state
  prefix_written : written p.trace.toList <+: written q.trace.toList
  aside_eq : aside p.trace.toList = aside q.trace.toList
  ends : ∃ init last, p.trace.toList = init ++ [last] ∧ before <+: init ∧
    Harmless true sink 0 init ∧ sink.Strikes true (writeCalls init) last ∧
    sink.fault? (writeCalls init) last = some fault

theorem Matches.send (h : Matches sink p q) (out : Octets) :
    ∃ q', q.send {} out = (q', none) ∧
      ((∃ p', p.send sink out = (p', none) ∧ Matches sink p' q') ∨
        ∃ p' fault, p.send sink out = (p', some fault) ∧
          Broken sink p.trace.toList fault p' q') := by
  obtain ⟨q', fs, hq', hq, hfs⟩ := send_of_reliable Sink.reliable_default out q
  refine ⟨q', hq, ?_⟩
  obtain ⟨p', es, hadds, ⟨hp, hes⟩ | ⟨fault, hp, -, hb⟩⟩ := send_cases sink out p
  · rw [h.calls_eq] at hes
    refine .inl ⟨p', hp, ?_, ?_, ?_, ?_, ?_⟩
    · rw [hadds.deframer_eq, h.deframer_eq, hq'.deframer_eq]
    · rw [hadds.state_eq, h.state_eq, hq'.state_eq]
    · rw [hadds.stats_eq, h.stats_eq, hq'.stats_eq]
    · rw [hadds.calls_eq, hadds.trace_eq, writeCalls_append, h.calls_eq]
    · rw [hadds.trace_eq, hq'.trace_eq]
      exact h.agree.append_sends hes hfs
  · rw [h.calls_eq] at hb
    refine .inr ⟨p', fault, hp, ?_, ?_, ?_, ?_⟩
    · rw [hadds.state_eq, h.state_eq, hq'.state_eq]
    · rw [hadds.trace_eq, hq'.trace_eq, written_append, written_append, h.agree.written_eq,
        hfs.written_eq]
      exact (List.prefix_append_right_inj _).mpr hb.prefix_written
    · rw [hadds.trace_eq, hq'.trace_eq, aside_append, aside_append, h.agree.aside_eq,
        aside_of_isSending hb.isSending, aside_of_isSending hfs.isSending]
    · obtain ⟨init, last, rfl, hinit, hstrikes, hfault⟩ := hb.strikes_last
      rw [← writeCalls_append] at hstrikes hfault
      refine ⟨p.trace.toList ++ init, last, ?_, List.prefix_append _ _, ?_, hstrikes, hfault⟩
      · rw [hadds.trace_eq, List.append_assoc]
      · exact harmless_append.mpr ⟨h.agree.harmless, by rwa [Nat.zero_add]⟩

theorem Matches.round (h : Matches sink p q) (config : SessionConfig) (bus : Bus σ)
    (chunk : Octets) :
    ∃ q' ended, q.round config bus {} chunk = (q', ended) ∧
      ((∃ p', p.round config bus sink chunk = (p', ended) ∧ Matches sink p' q') ∨
        ∃ p' fault, p.round config bus sink chunk = (p', some (.io fault)) ∧
          Broken sink (p.trace.toList ++ [.read chunk.length]) fault p' q') := by
  obtain ⟨p₁, q₁, out, ended, hp, hq, h₁, hread⟩ := h.receive config bus chunk
  obtain ⟨q', hsend, hcases⟩ := h₁.send out
  refine ⟨q', ended, by simp only [Pump.round, hq, hsend], ?_⟩
  rcases hcases with ⟨p', hp', hmatches⟩ | ⟨p', fault, hp', hbroken⟩
  · exact .inl ⟨p', by simp only [Pump.round, hp, hp'], hmatches⟩
  · obtain ⟨init, last, htrace, hbefore, hends⟩ := hbroken.ends
    exact .inr ⟨p', fault, by simp only [Pump.round, hp, hp'], hbroken.state_eq,
      hbroken.prefix_written, hbroken.aside_eq, init, last, htrace, hread.trans hbefore, hends⟩

end Pump
end PacketBus
