import PacketBus.Catalog.Handlers
import PacketBus.Proofs.Session.Run

/-! # A session and the whole of its stream

However a stream is cut into reads and whatever each write takes, a session comes to what one pass
over the whole stream comes to: the packets of the stream are dispatched in order, up to one that
stops the session, and their replies are written.
-/
namespace PacketBus
open PacketBus.Stream
variable {σ : Type} {config : SessionConfig} {bus : Bus σ} {start : σ}

/-- What ends a session with its source does not depend on what was left unread. -/
theorem SessionConfig.eq_of_prefix {received whole : Octets} (h : received <+: whole)
    (hall : config.fault? bus start received = none → received = whole) :
    config.served bus start received = config.served bus start whole ∧
      config.fault? bus start received = config.fault? bus start whole := by
  obtain ⟨more, rfl⟩ := h
  cases hf : config.fault? bus start received with
  | none =>
    rw [← hall hf]
    exact ⟨rfl, hf.symm⟩
  | some fault =>
    obtain ⟨hserved, hfault⟩ := append_of_fault hf more
    exact ⟨hserved.symm, hfault.symm⟩

/-- With a reliable sink it is as if a session had received all that its source delivers. -/
theorem runSession_whole (config : SessionConfig) (bus : Bus σ) (start : σ) (source : Source)
    {sink : Sink} (hs : sink.Reliable) :
    let r := runSession config bus start source sink
    Settled config.limit bus start (config.served bus start source.delivered) r.state
        r.trace.toList ∧
      r.outcome = Pump.outcome config bus start source.ending source.delivered := by
  intro r
  obtain ⟨received, hprefix, hall, hended⟩ := runSession_ended config bus start source hs
  obtain ⟨hserved, hfault⟩ := SessionConfig.eq_of_prefix hprefix hall
  refine ⟨hserved ▸ hended.settled, ?_⟩
  rw [hended.outcome_eq]
  simp only [Pump.outcome, hfault, hserved]

/-- The state, the octets written and the result of a session are told by one pass over all that its
source delivers: the packets in order, up to one that does not decode if that is to stop it. -/
theorem runSession_eq_wholeStream (config : SessionConfig) (bus : Bus σ) (start : σ)
    {source : Source} {sink : Sink} (hsource : source.ending = .closed) (hsink : sink.Reliable) :
    let whole := parse config.limit source.delivered
    let packets :=
      if config.stopOnDecodeFault then bus.upToUndecodable whole.packets start else whole.packets
    let outcomes := bus.outcomes packets start
    let r := runSession config bus start source sink
    r.state = packets.foldl (fun state p => (bus.dispatch p state).state) start ∧
      Event.written r.trace.toList = wires (acceptedReplies config.limit outcomes) ∧
      r.outcome =
        match bus.stopFault? config.stopOnDecodeFault packets start, whole.fault with
        | some fault, _ => .error (.dispatch fault)
        | none, some fault => .error (.framing fault)
        | none, none => .ok (Stats.tally config.limit outcomes) := by
  intro whole packets outcomes r
  obtain ⟨hsettled, houtcome⟩ := runSession_whole config bus start source hsink
  have hpackets : config.served bus start source.delivered = packets := rfl
  rw [hpackets] at hsettled
  refine ⟨hsettled.state_eq, hsettled.written_eq, ?_⟩
  have hstop : bus.stopFault? config.stopOnDecodeFault packets start =
      bus.stopFault? config.stopOnDecodeFault whole.packets start :=
    Bus.stopFault?_admitted whole.packets start
  have hwhole : config.fault? bus start source.delivered =
      ((bus.stopFault? config.stopOnDecodeFault whole.packets start).map .dispatch).or
        (whole.fault.map .framing) := rfl
  simp only [Pump.outcome, hpackets, hsource, hwhole] at houtcome
  rw [houtcome, hstop]
  cases bus.stopFault? config.stopOnDecodeFault whole.packets start with
  | some fault => rfl
  | none =>
    cases whole.fault with
    | some fault => rfl
    | none => rfl

/-- Reads of one octet and writes of growing length, up to a packet that is cut short. -/
theorem runSession_eq_wholeStream_stopped :
    let config : SessionConfig := { limit := 9, readSize := 0, stopOnDecodeFault := true }
    let bus := ((Registry.new .msgPack).install
      [Catalog.ReplyHandler.double.register 5 6, Catalog.SilentHandler.ping.register 7]).1.build
    let source : Source :=
      [.octets [0, 5, 0, 0], .octets [0, 1, 21, 0, 7, 0, 0, 0, 0, 0, 5, 0, 0, 0, 1, 0xD2, 0, 7]]
    let sink : Sink := { limit := fun call => some (call + 1) }
    let r := runSession config bus {} source sink
    source.ending = .closed ∧ sink.Reliable ∧ r.state.counter.val = 1 ∧
      Event.written r.trace.toList = [0, 6, 0, 0, 0, 1, 42] ∧
      r.outcome = .error (.dispatch (.decode 5 (.msgPackRead .noData))) := by
  intro config bus source sink r
  have hsource : source.ending = .closed := rfl
  have hsink : sink.Reliable := Sink.reliable_limit (by simp)
  obtain ⟨hstate, hwritten, houtcome⟩ := runSession_eq_wholeStream config bus {} hsource hsink
  refine ⟨hsource, hsink, ?_, ?_, ?_⟩
  · rw [hstate]
    decide +kernel
  · rw [hwritten]
    decide +kernel
  · rw [houtcome]
    dsimp only [source, bus, config]
    decide +kernel

end PacketBus
