import PacketBus.Catalog.Handlers
import PacketBus.Proofs.Session.Faults
import PacketBus.Proofs.Session.Reads

/-! # Sessions that a fault of the sink ends

A session with any sink does what it does with one that takes all and never fails, up to the event
that reports the fault of a write or flush, and this event is its last.
-/
namespace PacketBus
variable {σ : Type}

namespace Event

/-- An event that tells of a fault is the last one if no event before the last does. -/
theorem Harmless.eq_of_concat {again : Bool} {sink : Sink} {init before later : List Event}
    {last e : Event} (hinit : Harmless again sink 0 init)
    (h : init ++ [last] = before ++ e :: later) (he : sink.Strikes again (writeCalls before) e) :
    before = init ∧ e = last ∧ later = [] := by
  rcases List.append_eq_append_iff.mp h with ⟨middle, rfl, hm⟩ | ⟨middle, rfl, hm⟩
  · cases middle with
    | nil =>
      obtain ⟨rfl, rfl⟩ := List.cons.inj hm
      exact ⟨List.append_nil init, rfl, rfl⟩
    | cons x middle => simp at hm
  · cases middle with
    | nil =>
      obtain ⟨rfl, rfl⟩ := List.cons.inj hm
      exact ⟨(List.append_nil before).symm, rfl, rfl⟩
    | cons x middle =>
      obtain ⟨rfl, -⟩ := List.cons.inj hm
      exact absurd he hinit.of_append_cons.1

theorem written_mono {es fs : List Event} (h : es <+: fs) :
    written es <+: written fs := by
  obtain ⟨more, rfl⟩ := h
  exact written_append es more ▸ List.prefix_append _ _

end Event

namespace Pump
open Event
variable {config : SessionConfig} {bus : Bus σ} {sink : Sink} {p q : Pump σ}

theorem round_prefix_run (config : SessionConfig) (bus : Bus σ) (sink : Sink) (last : SourceEnd)
    (chunk : Octets) (chunks : List Octets) (p : Pump σ) :
    (p.round config bus sink chunk).1.trace.toList <+:
      (run config bus sink last (chunk :: chunks) p).trace.toList := by
  rw [run]
  split
  · rename_i q fault hq
    rw [hq]
    exact List.prefix_rfl
  · rename_i q hq
    rw [hq]
    exact trace_prefix_run config bus sink last chunks q

/-- How a session ends next to one with a sink that does not fail: in the same way; or its sink is
not shut down; or a fault breaks it off in a round in which the other one serves the same. -/
inductive Compared (config : SessionConfig) (bus : Bus σ) (sink : Sink) (chunks₀ : List Octets)
    (p₀ : Pump σ) (a b : RunResult σ) : Prop
  | same (hagree : Agree sink a.trace.toList b.trace.toList) (hstate : a.state = b.state)
      (houtcome : a.outcome = b.outcome)
  | unclosed {es fs : List Event} {fault : IoFault} {stats : Stats}
      (hshut : sink.shutdown.at? (writeCalls es) = some fault)
      (hagree : Agree sink es fs) (ha : a.trace.toList = es ++ [.shutDownFailed])
      (hb : b.trace.toList = fs ++ [.shutDown, .log (.closed stats)]) (hstate : a.state = b.state)
      (haerror : a.outcome = .error (.io fault)) (hbok : b.outcome = .ok stats)
  | broken {chunk : Octets} {chunks : List Octets} {p q : Pump σ} {fault : IoFault}
      (hp : AtRead config bus sink chunks₀ p₀ (chunk :: chunks) p)
      (hq : AtRead config bus {} chunks₀ p₀ (chunk :: chunks) q)
      (hround : Broken sink (p.trace.toList ++ [.read chunk.length]) fault
        (p.round config bus sink chunk).1 (q.round config bus {} chunk).1)
      (ha : a = (p.round config bus sink chunk).1.stop (.io fault))
      (hb : (q.round config bus {} chunk).1.trace.toList <+: b.trace.toList)

theorem Matches.close {chunks₀ : List Octets} {p₀ : Pump σ} (h : Matches sink p q)
    (config : SessionConfig) (bus : Bus σ) :
    Compared config bus sink chunks₀ p₀ (p.close sink) (q.close {}) := by
  have hcut : p.cutWarning = q.cutWarning := by rw [cutWarning, cutWarning, h.deframer_eq]
  have hquiet : ∀ e ∈ .read 0 :: q.cutWarning, e.isSinkCall = false := by
    refine List.forall_mem_cons.mpr ⟨rfl, fun e he => ?_⟩
    exact not_isSinkCall_of_local (isLocal_cutWarning e he)
  have hagree := h.agree.append_self hquiet
  have hcalls : p.calls = writeCalls (p.trace.toList ++ .read 0 :: q.cutWarning) := by
    rw [writeCalls_append, writeCalls_eq_zero hquiet]
    exact h.calls_eq
  have hclose : q.close {} = _ := close_of_none rfl
  cases hshut : sink.shutdown.at? p.calls with
  | none =>
    rw [close_of_none hshut, hcut, h.stats_eq, h.state_eq, hclose]
    refine .same ?_ rfl rfl
    simp only [emit_trace, ← List.cons_append, ← List.append_assoc]
    exact hagree.append rfl rfl harmless_shutDown
  | some fault =>
    rw [close_of_some hshut, hcut, hclose]
    rw [hcalls] at hshut
    refine .unclosed hshut hagree ?_ ?_ h.state_eq rfl rfl
    · simp only [stop, emit_trace, List.append_assoc, List.cons_append]
    · simp only [emit_trace, List.append_assoc, List.cons_append]

/-- Sessions that have come equally far are compared by what comes next. -/
theorem Matches.run {chunks₀ chunks : List Octets} {p₀ : Pump σ} (h : Matches sink p q)
    (hp : AtRead config bus sink chunks₀ p₀ chunks p)
    (hq : AtRead config bus {} chunks₀ p₀ chunks q) (last : SourceEnd) :
    Compared config bus sink chunks₀ p₀ (run config bus sink last chunks p)
      (run config bus {} last chunks q) := by
  induction chunks generalizing p q with
  | nil =>
    cases last with
    | closed => exact h.close config bus
    | failed fault =>
      refine .same ?_ h.state_eq rfl
      simp only [Pump.run, stop, emit_trace]
      exact h.agree.append_self (by simp [isSinkCall, isSending, isShutdown])
  | cons chunk chunks ih =>
    -- the sessions go on together, end together, or the first one stops at a fault of its sink
    obtain ⟨q', ended, hqround, hcases⟩ := h.round config bus chunk
    rcases hcases with ⟨p', hpround, hmatches⟩ | ⟨p', fault, hpround, hbroken⟩
    · rw [Pump.run, Pump.run, hpround, hqround]
      cases ended with
      | none => exact ih hmatches (hp.again hpround) (hq.again hqround)
      | some fault => exact .same hmatches.agree hmatches.state_eq rfl
    · have hb := round_prefix_run config bus {} last chunk chunks q
      have ha : Pump.run config bus sink last (chunk :: chunks) p =
          (p.round config bus sink chunk).1.stop (.io fault) := by rw [Pump.run, hpround]
      refine .broken hp hq ?_ ha hb
      rw [hpround, hqround]
      exact hbroken

section
variable {chunks₀ : List Octets} {p₀ : Pump σ} {a b : RunResult σ}

theorem Compared.prefix_written (h : Compared config bus sink chunks₀ p₀ a b) :
    written a.trace.toList <+: written b.trace.toList := by
  cases h with
  | same hagree hstate houtcome => exact hagree.written_eq ▸ List.prefix_rfl
  | unclosed hshut hagree ha hb hstate haerror hbok =>
    rw [ha, hb, written_append, written_append, hagree.written_eq]
    exact List.prefix_rfl
  | broken hp hq hround ha hb =>
    subst ha
    exact hround.prefix_written.trans (written_mono hb)

theorem Compared.prefix_aside (h : Compared config bus sink chunks₀ p₀ a b) :
    aside a.trace.toList <+: aside b.trace.toList := by
  cases h with
  | same hagree hstate houtcome => exact hagree.aside_eq ▸ List.prefix_rfl
  | unclosed hshut hagree ha hb hstate haerror hbok =>
    rw [ha, hb, aside_append, aside_append, hagree.aside_eq]
    exact (List.prefix_append_right_inj _).mpr ⟨_, rfl⟩
  | broken hp hq hround ha hb =>
    subst ha
    exact hround.aside_eq ▸ hb.filter _

/-- An event that tells of a fault is the last one of the round that a fault breaks off. -/
theorem Compared.of_strikes (h : Compared config bus sink chunks₀ p₀ a b)
    {before later : List Event} {e : Event} (htrace : a.trace.toList = before ++ e :: later)
    (he : sink.Strikes true (writeCalls before) e) :
    ∃ fault, sink.fault? (writeCalls before) e = some fault ∧ a.outcome = .error (.io fault) ∧
      later = [] ∧ ∃ (chunk : Octets) (chunks : List Octets) (p q : Pump σ),
        AtRead config bus sink chunks₀ p₀ (chunk :: chunks) p ∧
        AtRead config bus {} chunks₀ p₀ (chunk :: chunks) q ∧
        a = (p.round config bus sink chunk).1.stop (.io fault) ∧
        a.state = (q.round config bus {} chunk).1.state := by
  cases h with
  | same hagree hstate houtcome =>
    have hharmless := hagree.harmless
    rw [htrace] at hharmless
    exact absurd he hharmless.of_append_cons.1
  | unclosed hshut hagree ha hb hstate haerror hbok =>
    obtain ⟨rfl, rfl, rfl⟩ := hagree.harmless.eq_of_concat (ha.symm.trans htrace) he
    exact absurd he id
  | @broken chunk chunks p q fault hp hq hround ha hb =>
    subst ha
    obtain ⟨init, last, hends, -, hinit, hlast, hfault⟩ := hround.ends
    obtain ⟨rfl, rfl, rfl⟩ := hinit.eq_of_concat (hends.symm.trans htrace) he
    exact ⟨fault, hfault, rfl, rfl, chunk, chunks, p, q, hp, hq, rfl, hround.state_eq⟩

theorem Compared.of_shutDownFailed (h : Compared config bus sink chunks₀ p₀ a b)
    (hmem : .shutDownFailed ∈ a.trace.toList) :
    ∃ fault stats, sink.shutdown.at? (writeCalls a.trace.toList) = some fault ∧
      a.outcome = .error (.io fault) ∧ b.outcome = .ok stats ∧ a.state = b.state ∧
      written a.trace.toList = written b.trace.toList := by
  cases h with
  | same hagree hstate houtcome => exact absurd hmem hagree.harmless.shutDownFailed_not_mem
  | unclosed hshut hagree ha hb hstate haerror hbok =>
    refine ⟨_, _, ?_, haerror, hbok, hstate, ?_⟩
    · rw [ha, writeCalls_append]
      exact hshut
    · rw [ha, hb, written_append, written_append, hagree.written_eq]
      rfl
  | broken hp hq hround ha hb =>
    subst ha
    obtain ⟨init, last, hends, -, hinit, hlast, -⟩ := hround.ends
    rw [stop, hends] at hmem
    rcases List.mem_append.mp hmem with hmem | hmem
    · exact absurd hmem hinit.shutDownFailed_not_mem
    · rw [← List.mem_singleton.mp hmem] at hlast
      exact absurd hlast id

theorem Compared.of_harmless (h : Compared config bus sink chunks₀ p₀ a b)
    (hall : Harmless true sink 0 a.trace.toList) :
    a.state = b.state ∧ written a.trace.toList = written b.trace.toList ∧
      a.outcome = b.outcome := by
  cases h with
  | same hagree hstate houtcome => exact ⟨hstate, hagree.written_eq, houtcome⟩
  | unclosed hshut hagree ha hb hstate haerror hbok =>
    exact absurd (by simp [ha]) hall.shutDownFailed_not_mem
  | broken hp hq hround ha hb =>
    subst ha
    obtain ⟨init, last, hends, -, -, hlast, -⟩ := hround.ends
    rw [stop, hends] at hall
    have hnot := hall.of_append_cons.1
    exact absurd hlast hnot

end
end Pump

/-- Sessions are compared with those of a sink that takes all. -/
theorem runSession_compared (config : SessionConfig) (bus : Bus σ) (start : σ) (source : Source)
    (sink : Sink) :
    Pump.Compared config bus sink (source.chunks (max 1 config.readSize)).1
      { deframer := .new config.limit, state := start }
      (runSession config bus start source sink) (runSession config bus start source {}) :=
  (Pump.matches_new sink config.limit start).run .first .first _

/-- What is left of a session when its sink fails, beside one with a sink that takes all. A write
call that is interrupted is a fault unless such calls are made again. -/
structure CutCleanly (again : Bool) (config : SessionConfig) (bus : Bus σ) (start : σ)
    (source : Source) (sink : Sink) (a b : RunResult σ) : Prop where
  prefix_written : Event.written a.trace.toList <+: Event.written b.trace.toList
  prefix_aside : Event.aside a.trace.toList <+: Event.aside b.trace.toList
  /-- A fault of a write or flush is the end, and the packets of its batch have been served. -/
  of_strikes : ∀ before e later, a.trace.toList = before ++ e :: later →
    sink.Strikes again (Event.writeCalls before) e →
      ∃ fault, sink.fault? (Event.writeCalls before) e = some fault ∧
        a.outcome = .error (.io fault) ∧ later = [] ∧
        ∃ (chunk : Octets) (chunks : List Octets) (p q : Pump σ),
          Pump.AtRead config bus sink (source.chunks (max 1 config.readSize)).1
            { deframer := .new config.limit, state := start } (chunk :: chunks) p ∧
          Pump.AtRead config bus {} (source.chunks (max 1 config.readSize)).1
            { deframer := .new config.limit, state := start } (chunk :: chunks) q ∧
          a = (p.round config bus sink chunk).1.stop (.io fault) ∧
          a.state = (q.round config bus {} chunk).1.state
  of_shutDownFailed : .shutDownFailed ∈ a.trace.toList →
    ∃ fault stats, sink.shutdown.at? (Event.writeCalls a.trace.toList) = some fault ∧
      a.outcome = .error (.io fault) ∧ b.outcome = .ok stats ∧ a.state = b.state ∧
      Event.written a.trace.toList = Event.written b.trace.toList
  of_harmless : Event.Harmless again sink 0 a.trace.toList →
    a.state = b.state ∧ Event.written a.trace.toList = Event.written b.trace.toList ∧
      a.outcome = b.outcome

/-- A session whose sink fails is cut off cleanly, where an interrupted write call is made again. -/
theorem runSession_cutCleanly (config : SessionConfig) (bus : Bus σ) (start : σ) (source : Source)
    (sink : Sink) :
    CutCleanly true config bus start source sink
      (runSession config bus start source sink) (runSession config bus start source {}) := by
  have h := runSession_compared config bus start source sink
  exact
    { prefix_written := h.prefix_written
      prefix_aside := h.prefix_aside
      of_strikes := fun _ _ _ htrace he => h.of_strikes htrace he
      of_shutDownFailed := h.of_shutDownFailed
      of_harmless := h.of_harmless }

/-- A flush fails in a batch that a refused header ends, and its fault is the one that counts. -/
theorem runSession_cutCleanly_flushFailed :
    let bus := ((Registry.new .msgPack).install [Catalog.ReplyHandler.double.register 5 6]).1.build
    let source : Source := [.octets [0, 5, 0, 0, 0, 1, 21, 0, 0, 0, 0, 0, 0]]
    let sink : Sink := { flush := .always ⟨.brokenPipe, "gone"⟩ }
    let a := runSession {} bus {} source sink
    let b := runSession {} bus {} source {}
    a.outcome = .error (.io ⟨.brokenPipe, "gone"⟩) ∧
      b.trace.toList = [.read 13, .wrote [0, 6, 0, 0, 0, 1, 42], .flushed] ∧
      Event.aside a.trace.toList <+: Event.aside b.trace.toList := by
  intro bus source sink a b
  have hcut := runSession_cutCleanly {} bus {} source sink
  have htrace : a.trace.toList =
      [.read 13, .wrote [0, 6, 0, 0, 0, 1, 42]] ++ .flushFailed :: [] := by
    dsimp only [a, bus, source, sink]
    decide +kernel
  obtain ⟨fault, hfault, houtcome, -⟩ := hcut.of_strikes _ _ _ htrace trivial
  obtain rfl := Option.some.inj hfault
  refine ⟨houtcome, ?_, hcut.prefix_aside⟩
  dsimp only [b, bus, source]
  decide +kernel

/-- Write calls that are interrupted are made again until one breaks, which ends the session. -/
example :
    let bus := ((Registry.new .msgPack).install [Catalog.ReplyHandler.double.register 5 6]).1.build
    let write : Faults :=
      { at? := fun n => some (if n < 3 then ⟨.interrupted, "again"⟩ else ⟨.brokenPipe, "gone"⟩)
        steady := 3
        at?_eq := fun n hn => by rw [if_neg (by omega), if_neg (by omega)] }
    (runSession {} bus {} [.octets [0, 5, 0, 0, 0, 1, 21]] { write := write }).trace.toList =
      [.read 7, .writeFailed, .writeFailed, .writeFailed] := by
  decide +kernel

/-- A reply is sent in full although a write call has failed: the call is made again. -/
theorem not_cutCleanly_interrupted :
    let bus := ((Registry.new .msgPack).install [Catalog.ReplyHandler.double.register 5 6]).1.build
    let source : Source := [.octets [0, 5, 0, 0, 0, 1, 21]]
    let sink : Sink := { write := .once 1 ⟨.interrupted, "again"⟩ }
    ¬CutCleanly false {} bus {} source sink (runSession {} bus {} source sink)
      (runSession {} bus {} source {}) := by
  intro bus source sink h
  have htrace : (runSession {} bus {} source sink).trace.toList =
      [.read 7] ++ .writeFailed :: [.wrote [0, 6, 0, 0, 0, 1, 42], .flushed, .read 0, .shutDown,
        .log (.closed { received := 1, replied := 1 })] := by
    dsimp only [bus, source, sink]
    decide +kernel
  obtain ⟨fault, -, -, hlater, -⟩ := h.of_strikes _ _ _ htrace (by simp [Sink.Strikes])
  simp at hlater

end PacketBus
