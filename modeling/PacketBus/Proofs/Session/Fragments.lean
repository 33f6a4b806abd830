import PacketBus.Catalog.Handlers
import PacketBus.Proofs.Session.WholeStream

/-! # Streams in fragments

Two sessions whose sources deliver the same octets dispatch the same packets and leave the same
notes and records in the same order. How the octets are cut into reads, and the replies into writes,
shows in none of them.
-/
namespace PacketBus
open PacketBus.Stream
variable {σ : Type} {config : SessionConfig} {bus : Bus σ} {start : σ}

/-- All notes and records of a session with a reliable sink, up to the end of a whole stream. -/
def SessionConfig.account (config : SessionConfig) (bus : Bus σ) (start : σ) (whole : Octets) :
    List Event :=
  config.told bus start whole ++
    match config.fault? bus start whole with
    | some _ => []
    | none => config.cut whole ++ [.log (.closed (config.totals bus start whole))]

section
variable {source : Source} {sink : Sink} {received : Octets}

theorem Event.Finished.history_eq {again : Bool} {trace : List Event}
    {outcome : Except SessionFault Stats}
    (h : Finished config bus start again source sink received trace outcome)
    (hsource : source.ending = .closed) (hsink : sink.Reliable) :
    history trace = config.account bus start received := by
  cases h with
  | closed hend h hcut hshut hrecord =>
    obtain rfl := config.cutWarning_iff.mp hcut
    obtain rfl := Record.closes_iff.mp hrecord
    rw [SessionConfig.account, h.fault_eq, history_append, h.shows.history_eq,
      ← List.singleton_append, history_append, history_append,
      history_of_local SessionConfig.isLocal_cut]
    rfl
  | unclosed hend h hcut hshut => simp [hsink.shutdown] at hshut
  | readFailed hend => simp [hsource] at hend
  | broken h hchunk hne hb => exact absurd hsink hb.not_reliable
  | stopped h hchunk hfault hsent =>
    rw [SessionConfig.account, hfault, (h.shows.batch h.fault_eq hsent).history_eq, List.append_nil]

/-- A session with a reliable sink dispatches and records what its whole stream comes to. -/
theorem Concludes.of_reliable {packets : List Packet} {r : RunResult σ}
    (h : Concludes config bus start source sink received packets r)
    (hsource : source.ending = .closed) (hsink : sink.Reliable) :
    packets = config.served bus start source.delivered ∧
      Event.history r.trace.toList = config.account bus start source.delivered := by
  obtain ⟨hall, -⟩ := h.finished.of_reliable hsink
  obtain ⟨hserved, hfault⟩ := SessionConfig.eq_of_prefix h.prefix_delivered hall
  refine ⟨h.served_eq.symm.trans hserved, ?_⟩
  rw [h.finished.history_eq hsource hsink]
  cases hf : config.fault? bus start received with
  | none => rw [hall hf]
  | some fault =>
    rw [hf] at hfault
    simp only [SessionConfig.account, SessionConfig.told, hserved, hf, ← hfault]

theorem sessionPackets_of_reliable (hsource : source.ending = .closed) (hsink : sink.Reliable) :
    sessionPackets config bus start source sink = config.served bus start source.delivered := by
  obtain ⟨received, h⟩ := runSession_concludes config bus start source sink
  exact (h.of_reliable hsource hsink).1

theorem history_of_reliable (hsource : source.ending = .closed) (hsink : sink.Reliable) :
    Event.history (runSession config bus start source sink).trace.toList =
      config.account bus start source.delivered := by
  obtain ⟨received, h⟩ := runSession_concludes config bus start source sink
  exact (h.of_reliable hsource hsink).2

end

/-- The notes of handlers and the records of a session, in order and with all that they say, depend
on the octets that its source delivers and neither on how many come with a read nor on how many a
write takes. -/
theorem runSession_history_eq (config : SessionConfig) (readSize : Nat) (bus : Bus σ) (start : σ)
    {source other : Source} {sink otherSink : Sink}
    (hsame : other.delivered = source.delivered) (hsource : source.ending = .closed)
    (hother : other.ending = .closed) (hsink : sink.Reliable) (hotherSink : otherSink.Reliable) :
    let r := runSession config bus start source sink
    let r' := runSession { config with readSize } bus start other otherSink
    Event.history r'.trace.toList = Event.history r.trace.toList := by
  intro r r'
  calc Event.history r'.trace.toList
      = SessionConfig.account { config with readSize } bus start other.delivered :=
        history_of_reliable hother hotherSink
    _ = config.account bus start source.delivered := by
        rw [hsame]
        rfl
    _ = Event.history r.trace.toList := (history_of_reliable hsource hsink).symm

/-- Octet by octet and in one read: a note, a packet that nobody waits for, one that does not
decode, and a header whose payload lacks an octet. -/
theorem runSession_history_eq_octets :
    let config : SessionConfig := { limit := 9, readSize := 0 }
    let bus := ((Registry.new .msgPack).install
      [Catalog.ReplyHandler.double.register 5 6, Catalog.SilentHandler.ping.register 7]).1.build
    let bs : Octets := [0, 7, 0, 0, 0, 0, 0, 9, 0, 0, 0, 0, 0, 5, 0, 0, 0, 1, 0xD2,
      0, 5, 0, 0, 0, 2, 21]
    let source : Source := [.octets (bs.take 8), .octets (bs.drop 8)]
    let other : Source := [.octets bs]
    let sink : Sink := { limit := (some 1 : Option Nat) }
    let r := runSession config bus {} source sink
    let r' := runSession { config with readSize := 64 } bus {} other {}
    other.delivered = source.delivered ∧ source.ending = .closed ∧ other.ending = .closed ∧
      sink.Reliable ∧ Event.history r'.trace.toList = Event.history r.trace.toList ∧
      Event.history r.trace.toList =
        [.note "ping", .log (.noHandler 9), .log (.undecodable (.decode 5 (.msgPackRead .noData))),
          .log (.cutStream 1), .log (.closed { received := 3, unhandled := 1, failed := 1 })] := by
  intro config bus bs source other sink r r'
  have hsame : other.delivered = source.delivered := rfl
  have hsource : source.ending = .closed := rfl
  have hother : other.ending = .closed := rfl
  have hsink : sink.Reliable := Sink.reliable_limit (by simp)
  refine ⟨hsame, hsource, hother, hsink, ?_, ?_⟩
  · exact runSession_history_eq config 64 bus {} hsame hsource hother hsink Sink.reliable_default
  · dsimp only [r, sink, source, bs, bus, config]
    decide +kernel

end PacketBus
