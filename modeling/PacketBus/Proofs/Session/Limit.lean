import PacketBus.Catalog.Handlers
import PacketBus.Proofs.Session.Acceptance
import PacketBus.Proofs.Session.Fragments

/-! # A larger payload limit

The limit of a session is asked twice, of the headers that come in and of the replies that go out.
Unless it refuses a header, all that a smaller limit does is to drop replies, and a reply that is
dropped shows in nothing else.
-/
namespace PacketBus
open PacketBus.Stream
variable {σ : Type} {config : SessionConfig} {bus : Bus σ} {start : σ} {limit : UInt32}

/-- A stream that no header ends is served alike with a larger limit. -/
theorem SessionConfig.withLimit_eq (hle : config.limit ≤ limit) {bs : Octets}
    (hf : ∀ fault, config.fault? bus start bs ≠ some (.framing fault)) :
    (config.withLimit limit).served bus start bs = config.served bus start bs ∧
      (config.withLimit limit).fault? bus start bs = config.fault? bus start bs := by
  have hgrow := parse_of_le hle bs
  simp only [withLimit, served, fault?] at hf ⊢
  cases hs : bus.stopFault? config.stopOnDecodeFault (parse config.limit bs).packets start with
  | some stop =>
    -- what a larger limit takes besides comes after the packet that stops the session
    rw [hgrow, Parse.prepend_packets, Bus.admitted_append_of_some hs,
      Bus.stopFault?_append_of_some hs]
    exact ⟨rfl, rfl⟩
  | none =>
    have hnone : (parse config.limit bs).fault = none := by
      cases hfault : (parse config.limit bs).fault with
      | none => rfl
      | some fault =>
        have hnot := hf fault
        simp [hs, hfault] at hnot
    rw [parse_eq_of_le hle hnone, hs]
    exact ⟨rfl, rfl⟩

/-- With a smaller limit fewer replies go out, and the others count as failed. -/
theorem Stats.tally_of_le (hle : config.limit ≤ limit) (os : List (Except DispatchFault Outcome)) :
    let stats := tally config.limit os
    let raised := tally limit os
    raised.received = stats.received ∧ raised.unhandled = stats.unhandled ∧
      stats.replied ≤ raised.replied ∧
      stats.replied + stats.failed = raised.replied + raised.failed := by
  intro stats raised
  have hreplied : stats.replied ≤ raised.replied := by
    change (acceptedReplies config.limit os).length ≤ (acceptedReplies limit os).length
    rw [acceptedReplies_of_le hle]
    exact List.length_filter_le _ _
  have hstats := received_tally config.limit os
  have hraised := received_tally limit os
  have hunhandled : raised.unhandled = stats.unhandled := rfl
  have hreceived : raised.received = stats.received := rfl
  refine ⟨hreceived, hunhandled, hreplied, ?_⟩
  dsimp only [stats, raised] at hunhandled hreceived ⊢
  omega

/-- All replies that a session writes fit its limit. -/
theorem SessionConfig.parse_replies (config : SessionConfig) (bus : Bus σ) (start : σ)
    (bs : Octets) :
    parse config.limit (config.replies bus start bs) =
      ⟨acceptedReplies config.limit (bus.outcomes (config.served bus start bs) start),
        none, []⟩ := by
  refine Deframer.parse_wires ?_
  intro reply hreply
  rw [← Bus.map_snd_exchanges] at hreply
  obtain ⟨e, he, rfl⟩ := List.mem_map.mp hreply
  exact (Bus.responseId_of_mem_exchanges he).2

/-- A session that no header ends comes to the same with a larger limit, but for the replies that
the smaller limit drops. They are counted as failed and not as replied. -/
theorem runSession_withLimit (config : SessionConfig) (readSize : Nat) (bus : Bus σ) (start : σ)
    {source other : Source} {sink otherSink : Sink} (hle : config.limit ≤ limit)
    (hsame : other.delivered = source.delivered) (hsource : source.ending = .closed)
    (hother : other.ending = .closed) (hsink : sink.Reliable) (hotherSink : otherSink.Reliable)
    (hframing : ∀ fault,
      (runSession config bus start source sink).outcome ≠ .error (.framing fault)) :
    let raised := { config.withLimit limit with readSize }
    let r := runSession config bus start source sink
    let r' := runSession raised bus start other otherSink
    sessionPackets raised bus start other otherSink =
        sessionPackets config bus start source sink ∧
      r'.state = r.state ∧ Event.noted r'.trace.toList = Event.noted r.trace.toList ∧
      (∃ replies : List Packet,
        parse limit (Event.written r'.trace.toList) = ⟨replies, none, []⟩ ∧
          parse config.limit (Event.written r.trace.toList) =
            ⟨replies.filter fun reply => reply.length ≤ config.limit.toNat, none, []⟩) ∧
      match r.outcome, r'.outcome with
      | .ok stats, .ok stats' =>
        stats'.received = stats.received ∧ stats'.unhandled = stats.unhandled ∧
          stats.replied ≤ stats'.replied ∧
          stats.replied + stats.failed = stats'.replied + stats'.failed
      | .error fault, .error fault' => fault' = fault
      | _, _ => False := by
  intro raised r r'
  obtain ⟨hsettled, houtcome⟩ := runSession_whole config bus start source hsink
  obtain ⟨hsettled', houtcome'⟩ := runSession_whole raised bus start other hotherSink
  rw [hsource] at houtcome
  rw [hsame] at hsettled' houtcome'
  rw [hother] at houtcome'
  have hfault : ∀ fault, config.fault? bus start source.delivered ≠ some (.framing fault) := by
    intro fault hf
    refine hframing fault ?_
    rw [houtcome]
    simp only [Pump.outcome, hf]
  obtain ⟨hserved, hends⟩ := SessionConfig.withLimit_eq hle hfault
  have hpackets : raised.served bus start source.delivered =
      config.served bus start source.delivered := hserved
  have hends' : raised.fault? bus start source.delivered =
      config.fault? bus start source.delivered := hends
  rw [hpackets] at hsettled'
  refine ⟨?_, ?_, ?_, ?_, ?_⟩
  · rw [sessionPackets_of_reliable hsource hsink, sessionPackets_of_reliable hother hotherSink,
      hsame]
    exact hpackets
  · exact hsettled'.state_eq.trans hsettled.state_eq.symm
  · exact hsettled'.noted_eq.trans hsettled.noted_eq.symm
  · refine ⟨acceptedReplies limit
      (bus.outcomes (config.served bus start source.delivered) start), ?_, ?_⟩
    · have hparse := raised.parse_replies bus start source.delivered
      rw [SessionConfig.replies, hpackets] at hparse
      rw [hsettled'.written_eq]
      exact hparse
    · rw [← acceptedReplies_of_le hle, hsettled.written_eq]
      exact config.parse_replies bus start source.delivered
  · cases hf : config.fault? bus start source.delivered with
    | some fault =>
      simp only [Pump.outcome, hf] at houtcome
      simp only [Pump.outcome, hends', hf] at houtcome'
      rw [houtcome, houtcome']
    | none =>
      simp only [Pump.outcome, hf] at houtcome
      simp only [Pump.outcome, hends', hf, hpackets] at houtcome'
      rw [houtcome, houtcome']
      exact Stats.tally_of_le hle _

/-- A reply of five octets, which a limit of three drops, between two that fit. -/
theorem runSession_withLimit_dropped :
    let config : SessionConfig := { limit := 3 }
    let bus := ((Registry.new .msgPack).install [Catalog.ReplyHandler.double.register 5 6]).1.build
    let bs : Octets :=
      [0, 5, 0, 0, 0, 1, 21, 0, 5, 0, 0, 0, 3, 0xCD, 0x9C, 0x40, 0, 5, 0, 0, 0, 1, 1]
    let source : Source := [.octets bs]
    let other : Source := [.octets (bs.take 9), .octets (bs.drop 9)]
    let sink : Sink := { limit := (some 4 : Option Nat) }
    let r := runSession config bus {} source sink
    let r' := runSession { config.withLimit 5 with readSize := 2 } bus {} other {}
    config.limit ≤ 5 ∧ other.delivered = source.delivered ∧ source.ending = .closed ∧
      other.ending = .closed ∧ sink.Reliable ∧
      r.outcome = .ok { received := 3, replied := 2, failed := 1 } ∧ r'.state = r.state ∧
      ∃ replies : List Packet,
        parse 5 (Event.written r'.trace.toList) = ⟨replies, none, []⟩ ∧
        replies = [⟨6, [42]⟩, ⟨6, [0xCE, 0, 1, 0x38, 0x80]⟩, ⟨6, [2]⟩] ∧
        parse 3 (Event.written r.trace.toList) = ⟨[⟨6, [42]⟩, ⟨6, [2]⟩], none, []⟩ := by
  intro config bus bs source other sink r r'
  have hle : config.limit ≤ 5 := by decide
  have hsame : other.delivered = source.delivered := rfl
  have hsource : source.ending = .closed := rfl
  have hother : other.ending = .closed := rfl
  have hsink : sink.Reliable := Sink.reliable_limit (by simp)
  have houtcome : r.outcome = .ok { received := 3, replied := 2, failed := 1 } := by
    dsimp only [r, sink, source, bs, bus, config]
    decide +kernel
  have hframing : ∀ fault, r.outcome ≠ .error (.framing fault) := by
    intro fault hf
    simp [houtcome] at hf
  obtain ⟨-, hstate, -, ⟨replies, hreplies, hkept⟩, -⟩ := runSession_withLimit config 2 bus {} hle
    hsame hsource hother hsink Sink.reliable_default hframing
  have hall : replies = [⟨6, [42]⟩, ⟨6, [0xCE, 0, 1, 0x38, 0x80]⟩, ⟨6, [2]⟩] := by
    refine (congrArg Parse.packets hreplies).symm.trans ?_
    dsimp only [other, bs, bus, config]
    decide +kernel
  refine ⟨hle, hsame, hsource, hother, hsink, houtcome, hstate, replies, hreplies, hall, ?_⟩
  rw [hall] at hkept
  exact hkept

end PacketBus
