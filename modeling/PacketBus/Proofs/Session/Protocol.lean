import PacketBus.Proofs.Session.Record
import PacketBus.Proofs.Session.Round
import PacketBus.Proofs.Session.Writes

/-! # The protocol of a session

Whatever its source and its sink do, a session goes through complete batches and then ends in one of
five ways. A batch is a read call, what serving the packets leaves that the read completes, and the
sending of their replies. All that is said of whole sessions follows from this.
-/
namespace PacketBus
open PacketBus.Stream
variable {σ : Type}

/-- The packets that are dispatched, one round after another. -/
def Pump.dispatched (config : SessionConfig) (bus : Bus σ) (sink : Sink) :
    List Octets → Pump σ → List Packet
  | [], _ => []
  | chunk :: chunks, p =>
    p.handed config bus chunk ++
      match p.round config bus sink chunk with
      | (_, some _) => []
      | (q, none) => dispatched config bus sink chunks q

/-- The packets that a session dispatches. -/
def sessionPackets (config : SessionConfig) (bus : Bus σ) (start : σ) (source : Source)
    (sink : Sink) : List Packet :=
  Pump.dispatched config bus sink (source.chunks (max 1 config.readSize)).1
    { deframer := .new config.limit, state := start }

variable (config : SessionConfig) (bus : Bus σ) (start : σ)

namespace SessionConfig

/-- What one read may yield. -/
def Yields (chunk : Octets) : Prop := 1 ≤ chunk.length ∧ chunk.length ≤ max 1 config.readSize

theorem yields_chunks (source : Source) :
    ∀ c ∈ (source.chunks (max 1 config.readSize)).1, config.Yields c := by
  intro c hc
  obtain ⟨hne, hle⟩ := Source.length_chunks (max 1 config.readSize) source c hc
  exact ⟨List.length_pos_iff.mpr hne, hle⟩

/-- The warning that octets deserve with which a stream ends, if they end within a packet. -/
def CutWarning (bs : Octets) (warning : List Event) : Prop :=
  let rest := (parse config.limit bs).rest
  if rest = [] then warning = []
  else ∃ record : Record, warning = [.log record] ∧
    record.Warns (if rest.length < Header.size then rest.length else rest.length - Header.size)

theorem cutWarning_iff {bs : Octets} {warning : List Event} :
    config.CutWarning bs warning ↔ warning = config.cut bs := by
  unfold CutWarning cut
  dsimp only
  split
  · rfl
  · simp only [Record.warns_iff, exists_eq_right]

end SessionConfig

namespace Event

/-- The traces of batches that are complete, each with the octets of its reads. -/
inductive Waiting (again : Bool) (sink : Sink) : Octets → List Event → Prop
  | first : Waiting again sink [] []
  | batch {bs chunk : Octets} {trace sent : List Event} (h : Waiting again sink bs trace)
      (hchunk : config.Yields chunk) (hnone : config.fault? bus start (bs ++ chunk) = none)
      (hsent : Sends again sink (writeCalls trace) (wires (config.queued bus start bs chunk))
        sent) :
      Waiting again sink (bs ++ chunk) (trace ++ config.batch bus start bs chunk ++ sent)

/-- The traces of sessions that are over, with the octets read and with what the sessions return. -/
inductive Finished (again : Bool) (source : Source) (sink : Sink) :
    Octets → List Event → Except SessionFault Stats → Prop
  | closed {trace warning : List Event} {record : Record} (hend : source.ending = .closed)
      (h : Waiting config bus start again sink source.delivered trace)
      (hcut : config.CutWarning source.delivered warning)
      (hshut : sink.shutdown.at? (writeCalls trace) = none)
      (hrecord : record.Closes (config.totals bus start source.delivered)) :
      Finished again source sink source.delivered
        (trace ++ .read 0 :: (warning ++ [shutDown, .log record]))
        (.ok (config.totals bus start source.delivered))
  | unclosed {trace warning : List Event} {fault : IoFault} (hend : source.ending = .closed)
      (h : Waiting config bus start again sink source.delivered trace)
      (hcut : config.CutWarning source.delivered warning)
      (hshut : sink.shutdown.at? (writeCalls trace) = some fault) :
      Finished again source sink source.delivered
        (trace ++ .read 0 :: (warning ++ [shutDownFailed])) (.error (.io fault))
  | readFailed {trace : List Event} {fault : IoFault} (hend : source.ending = .failed fault)
      (h : Waiting config bus start again sink source.delivered trace) :
      Finished again source sink source.delivered (trace ++ [.readFailed]) (.error (.io fault))
  | broken {bs chunk : Octets} {trace es : List Event} {fault : IoFault}
      (h : Waiting config bus start again sink bs trace) (hchunk : config.Yields chunk)
      (hne : config.queued bus start bs chunk ≠ [])
      (hb : Breaks again sink (writeCalls trace) (wires (config.queued bus start bs chunk)) es
        fault) :
      Finished again source sink (bs ++ chunk)
        (trace ++ config.batch bus start bs chunk ++ es) (.error (.io fault))
  | stopped {bs chunk : Octets} {trace sent : List Event} {fault : SessionFault}
      (h : Waiting config bus start again sink bs trace) (hchunk : config.Yields chunk)
      (hfault : config.fault? bus start (bs ++ chunk) = some fault)
      (hsent : Sends again sink (writeCalls trace) (wires (config.queued bus start bs chunk))
        sent) :
      Finished again source sink (bs ++ chunk)
        (trace ++ config.batch bus start bs chunk ++ sent) (.error fault)

end Event

/-- How a session is over that has received octets and dispatched packets. -/
structure Concludes (source : Source) (sink : Sink) (received : Octets) (packets : List Packet)
    (r : RunResult σ) : Prop where
  prefix_delivered : received <+: source.delivered
  served_eq : config.served bus start received = packets
  state_eq : r.state = bus.after packets start
  finished : Event.Finished config bus start true source sink received r.trace.toList r.outcome

namespace Pump

/-- A session at a read call, with what it has received. -/
structure Conforms (sink : Sink) (bs : Octets) (p : Pump σ) : Prop extends
    Stands config bus start bs p where
  calls_eq : p.calls = Event.writeCalls p.trace.toList
  waiting : Event.Waiting config bus start true sink bs p.trace.toList

theorem conforms_new (sink : Sink) :
    Conforms config bus start sink [] { deframer := .new config.limit, state := start } :=
  ⟨stands_new config bus start, rfl, .first⟩

end Pump

section
variable {config bus start} {again : Bool} {sink : Sink} {bs chunk : Octets}

theorem Event.Waiting.fault_eq {trace : List Event}
    (h : Waiting config bus start again sink bs trace) : config.fault? bus start bs = none := by
  cases h with
  | first => exact SessionConfig.fault?_nil config bus start
  | batch h hchunk hnone hsent => exact hnone

namespace Pump
variable {p q : Pump σ}

/-- A round is a batch whose replies are all sent, or one that a fault of the sink breaks off. -/
theorem Conforms.round (h : Conforms config bus start sink bs p) (chunk : Octets) :
    ∃ q es, q.trace.toList = p.trace.toList ++ config.batch bus start bs chunk ++ es ∧
      Stands config bus start (bs ++ chunk) q ∧ q.calls = Event.writeCalls q.trace.toList ∧
      ((p.round config bus sink chunk = (q, config.fault? bus start (bs ++ chunk)) ∧
          Event.Sends true sink (Event.writeCalls p.trace.toList)
            (wires (config.queued bus start bs chunk)) es) ∨
        ∃ fault, p.round config bus sink chunk = (q, some (.io fault)) ∧
          config.queued bus start bs chunk ≠ [] ∧
          Event.Breaks true sink (Event.writeCalls p.trace.toList)
            (wires (config.queued bus start bs chunk)) es fault) := by
  obtain ⟨r, hreceive, hr, hcalls, htrace⟩ := h.receive h.waiting.fault_eq chunk
  obtain ⟨q, es, hadds, hcases⟩ := send_cases sink (wires (config.queued bus start bs chunk)) r
  rw [hcalls, h.calls_eq] at hcases
  refine ⟨q, es, by rw [hadds.trace_eq, htrace], hr.adds hadds, ?_, ?_⟩
  · have hbatch : Event.writeCalls (config.batch bus start bs chunk) = 0 :=
      Event.writeCalls_eq_zero SessionConfig.not_isSinkCall_batch
    rw [hadds.calls_eq, hadds.trace_eq, htrace, Event.writeCalls_append, Event.writeCalls_append,
      hbatch, hcalls, h.calls_eq, Nat.add_zero]
  · rcases hcases with ⟨hsend, hsends⟩ | ⟨fault, hsend, hne, hbreaks⟩
    · exact .inl ⟨by simp only [Pump.round, hreceive, hsend], hsends⟩
    · refine .inr ⟨fault, by simp only [Pump.round, hreceive, hsend], ?_, hbreaks⟩
      exact mt wires_eq_nil_iff.mpr hne

/-- A session that goes on after a round is at a read call again. -/
theorem Conforms.next (h : Conforms config bus start sink bs p) (hchunk : config.Yields chunk)
    (hround : p.round config bus sink chunk = (q, none)) :
    Conforms config bus start sink (bs ++ chunk) q := by
  obtain ⟨q', es, htrace, hstands, hcalls, ⟨hq, hsends⟩ | ⟨fault, hq, -⟩⟩ := h.round chunk
  · obtain ⟨rfl, hnone⟩ := Prod.mk.inj (hq.symm.trans hround)
    exact ⟨hstands, hcalls, htrace ▸ .batch h.waiting hchunk hnone hsends⟩
  · simp [hround] at hq

theorem Conforms.close {source : Source} (hend : source.ending = .closed)
    (h : Conforms config bus start sink source.delivered p) :
    Event.Finished config bus start true source sink source.delivered
      (p.close sink).trace.toList (p.close sink).outcome := by
  have hcut := config.cutWarning_iff.mpr (h.cutWarning_eq h.waiting.fault_eq)
  cases hshut : sink.shutdown.at? p.calls with
  | some fault =>
    rw [close_of_some hshut, stop, emit_trace]
    rw [h.calls_eq] at hshut
    exact .unclosed hend h.waiting hcut hshut
  | none =>
    rw [close_of_none hshut, emit_trace, h.stats_eq]
    rw [h.calls_eq] at hshut
    exact .closed hend h.waiting hcut hshut (Record.closes_iff.mpr rfl)

/-- A round that meets a fault is the last one. -/
theorem Stands.concludes {source : Source} {chunks : List Octets} {fault : SessionFault}
    (hq : Stands config bus start (bs ++ chunk) q)
    (hround : p.round config bus sink chunk = (q, some fault))
    (hreceived : bs ++ chunk <+: source.delivered)
    (hserved : config.served bus start (bs ++ chunk) =
      config.served bus start bs ++ p.handed config bus chunk)
    (hfinished : Event.Finished config bus start true source sink (bs ++ chunk) q.trace.toList
      (.error fault)) :
    Concludes config bus start source sink (bs ++ chunk)
      (config.served bus start bs ++ dispatched config bus sink (chunk :: chunks) p)
      (run config bus sink source.ending (chunk :: chunks) p) := by
  rw [dispatched, run, hround, List.append_nil, ← hserved]
  exact ⟨hreceived, rfl, hq.state_eq, hfinished⟩

/-- A session goes on to the end of its source, to octets that have a fault, or to a fault of its
sink. -/
theorem Conforms.run {source : Source} {chunks : List Octets}
    (h : Conforms config bus start sink bs p) (hall : bs ++ chunks.flatten = source.delivered)
    (hchunks : ∀ c ∈ chunks, config.Yields c) :
    ∃ received, Concludes config bus start source sink received
      (config.served bus start bs ++ dispatched config bus sink chunks p)
      (run config bus sink source.ending chunks p) := by
  induction chunks generalizing bs p with
  | nil =>
    rw [List.flatten_nil, List.append_nil] at hall
    subst hall
    refine ⟨source.delivered, List.prefix_rfl, (List.append_nil _).symm, ?_, ?_⟩
    · rw [dispatched, List.append_nil, ← h.state_eq]
      cases source.ending with
      | closed => exact close_state sink p
      | failed fault => rfl
    · cases hend : source.ending with
      | closed => exact h.close hend
      | failed fault =>
        simp only [Pump.run, stop, emit_trace]
        exact .readFailed hend h.waiting
  | cons chunk chunks ih =>
    have hchunk := hchunks chunk List.mem_cons_self
    rw [List.flatten_cons, ← List.append_assoc] at hall
    have hreceived : bs ++ chunk <+: source.delivered := hall ▸ List.prefix_append _ _
    have hserved : config.served bus start (bs ++ chunk) =
        config.served bus start bs ++ p.handed config bus chunk := by
      rw [h.handed_eq h.waiting.fault_eq,
        SessionConfig.served_append_completed h.waiting.fault_eq]
    obtain ⟨q, es, htrace, hq, hcalls, ⟨hround, hsends⟩ | ⟨fault, hround, hne, hbreaks⟩⟩ :=
      h.round chunk
    -- the batch is complete, and the octets received so far decide whether it is the last
    · cases hfault : config.fault? bus start (bs ++ chunk) with
      | none =>
        rw [hfault] at hround
        obtain ⟨received, hrest⟩ :=
          ih (h.next hchunk hround) hall fun c hc => hchunks c (List.mem_cons_of_mem _ hc)
        refine ⟨received, ?_⟩
        rwa [dispatched, Pump.run, hround, ← List.append_assoc, ← hserved]
      | some fault =>
        rw [hfault] at hround
        refine ⟨bs ++ chunk, hq.concludes hround hreceived hserved ?_⟩
        rw [htrace]
        exact .stopped h.waiting hchunk hfault hsends
    · refine ⟨bs ++ chunk, hq.concludes hround hreceived hserved ?_⟩
      rw [htrace]
      exact .broken h.waiting hchunk hne hbreaks

end Pump
end

/-- Each session keeps to the protocol. It ends with the octets that it has received of its source,
and it has served the packets that it has dispatched. -/
theorem runSession_concludes (source : Source) (sink : Sink) :
    ∃ received, Concludes config bus start source sink received
      (sessionPackets config bus start source sink)
      (runSession config bus start source sink) := by
  have hsize : max 1 config.readSize ≠ 0 := by omega
  have hflat := Source.flatten_chunks hsize source
  obtain ⟨received, hconcludes⟩ :=
    (Pump.conforms_new config bus start sink).run hflat (config.yields_chunks source)
  rw [← Source.chunks_ending (max 1 config.readSize), SessionConfig.served_nil,
    List.nil_append] at hconcludes
  exact ⟨received, hconcludes⟩

end PacketBus
