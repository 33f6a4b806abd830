import PacketBus.Proofs.Frame.RoundTrip
import PacketBus.Proofs.Session.Cut
import PacketBus.Proofs.Session.WholeStream

/-! # What the peer of a session gets

A receiver with the limit of the session takes all that the session writes, in whatever pieces it
comes and wherever a faulty sink cuts it off. It gets the replies to the packets that the session
has served, each with the id that its request was registered with.
-/
namespace PacketBus
open PacketBus.Stream

namespace Deframer
variable {limit : UInt32} {ps : List Packet} {chunks : List Octets}

/-- The front of some frames gives the packets that are complete in it and is never refused. -/
theorem pushAll_of_prefix (hp : ∀ p ∈ ps, p.Fits limit) (h : chunks.flatten <+: wires ps) :
    ∃ (batches : List (List Packet)) (d : Deframer),
      (new limit).pushAll chunks = (batches.map .ok, d) ∧ batches.flatten <+: ps ∧
      (chunks.flatten = wires ps → batches.flatten = ps ∧ d.hasPartial = false) := by
  obtain ⟨more, hmore⟩ := h
  have hwhole : parse limit (chunks.flatten ++ more) = ⟨ps, none, []⟩ := by
    rw [hmore]
    exact parse_wires hp
  have hnone := fault_eq_none_of_append (congrArg Parse.fault hwhole)
  obtain ⟨batches, d, hpush, hflat, hd⟩ := (holds_new limit).pushAll front_nil hnone
  rw [List.nil_append] at hflat hd
  refine ⟨batches, d, hpush, ?_, ?_⟩
  · have hprefix := packets_prefix_append limit chunks.flatten more
    rwa [hwhole, ← hflat] at hprefix
  · intro hall
    have hparse : parse limit chunks.flatten = ⟨ps, none, []⟩ := hall ▸ parse_wires hp
    rw [hparse] at hflat hd
    exact ⟨hflat, hd.hasPartial_eq_false_iff.mpr rfl⟩

end Deframer

theorem acceptedReply?_eq_some_iff {limit : UInt32} {o : Except DispatchFault Outcome}
    {reply : Packet} :
    acceptedReply? limit o = some reply ↔
      o = .ok (.reply reply) ∧ reply.length ≤ limit.toNat := by
  cases o with
  | error fault => simp [acceptedReply?]
  | ok outcome =>
    cases outcome with
    | noHandler => simp [acceptedReply?]
    | silent => simp [acceptedReply?]
    | reply other =>
      by_cases hl : other.length ≤ limit.toNat
      · simp only [acceptedReply?, hl, if_true, Option.some.injEq, Except.ok.injEq,
          Outcome.reply.injEq]
        constructor
        · rintro rfl
          exact ⟨rfl, hl⟩
        · exact And.left
      · simp only [acceptedReply?, hl, if_false, Except.ok.injEq, Outcome.reply.injEq]
        constructor
        · simp
        · rintro ⟨rfl, hle⟩
          exact absurd hle hl

variable {σ : Type}

namespace Bus

/-- The packets that get a reply which a peer takes, each with its reply. -/
def exchanges (bus : Bus σ) (limit : UInt32) (ps : List Packet) (state : σ) :
    List (Packet × Packet) :=
  (bus.steps ps state).filterMap fun s =>
    (acceptedReply? limit s.2.value).map fun reply => (s.1, reply)

variable {bus : Bus σ} {limit : UInt32} {ps : List Packet} {state : σ}

theorem map_snd_exchanges (bus : Bus σ) (limit : UInt32) (ps : List Packet) (state : σ) :
    (bus.exchanges limit ps state).map Prod.snd =
      acceptedReplies limit (bus.outcomes ps state) := by
  simp [exchanges, acceptedReplies, outcomes, List.map_filterMap, List.filterMap_map,
    Function.comp_def]

/-- A reply has the id that is registered for its request, and fits the limit. -/
theorem responseId_of_mem_exchanges {e : Packet × Packet}
    (h : e ∈ bus.exchanges limit ps state) :
    bus.responseId e.1.id = some e.2.id ∧ e.2.Fits limit := by
  simp only [exchanges, List.mem_filterMap, Option.map_eq_some_iff] at h
  obtain ⟨s, hs, reply, hreply, rfl⟩ := h
  obtain ⟨hvalue, hlength⟩ := acceptedReply?_eq_some_iff.mp hreply
  obtain ⟨before, hstep⟩ := dispatch_of_mem_steps hs
  rw [hstep] at hvalue
  exact ⟨responseId_of_reply hvalue, reply_id_ne_reserved hvalue, hlength⟩

end Bus

section
variable (config : SessionConfig) (bus : Bus σ) (start : σ) (source : Source) {sink : Sink}

theorem written_of_reliable (hs : sink.Reliable) :
    Event.written (runSession config bus start source sink).trace.toList =
      config.replies bus start source.delivered :=
  (runSession_whole config bus start source hs).1.written_eq

theorem stats_of_reliable (hs : sink.Reliable) {stats : Stats}
    (h : (runSession config bus start source sink).outcome = .ok stats) :
    stats = Stats.tally config.limit
      (bus.outcomes (config.served bus start source.delivered) start) := by
  have houtcome := (runSession_whole config bus start source hs).2
  simp only [h, Pump.outcome] at houtcome
  split at houtcome
  · simp at houtcome
  · split at houtcome
    · simp at houtcome
    · exact Except.ok.inj houtcome

/-- Whatever its sink does, a session writes the front of what it writes to a reliable one. -/
theorem written_prefix_replies (sink : Sink) :
    Event.written (runSession config bus start source sink).trace.toList <+:
      config.replies bus start source.delivered := by
  rw [← written_of_reliable config bus start source Sink.reliable_default]
  exact (runSession_compared config bus start source sink).prefix_written

end

/-- What a session writes is taken by a peer with the same limit, however it is cut into chunks and
wherever a faulty sink ends it. The peer gets the replies in order, with the ids registered for
their requests, and none is missing or cut short if the sink is reliable. -/
theorem runSession_accepted (config : SessionConfig) (bus : Bus σ) (start : σ) (source : Source)
    (sink : Sink) :
    let exchanges :=
      bus.exchanges config.limit (config.served bus start source.delivered) start
    let r := runSession config bus start source sink
    (∀ chunks : List Octets, chunks.flatten = Event.written r.trace.toList →
      ∃ (batches : List (List Packet)) (d : Deframer),
        (Deframer.new config.limit).pushAll chunks = (batches.map .ok, d) ∧
        batches.flatten <+: exchanges.map Prod.snd ∧
        (sink.Reliable → batches.flatten = exchanges.map Prod.snd ∧ d.hasPartial = false)) ∧
      (sink.Reliable → ∀ stats, r.outcome = .ok stats → stats.replied = exchanges.length) ∧
      ∀ e ∈ exchanges, bus.responseId e.1.id = some e.2.id ∧ e.2.id ≠ Header.reservedId := by
  intro exchanges r
  have hreplies : exchanges.map Prod.snd = acceptedReplies config.limit
      (bus.outcomes (config.served bus start source.delivered) start) :=
    Bus.map_snd_exchanges bus config.limit _ start
  have hfits : ∀ p ∈ exchanges.map Prod.snd, p.Fits config.limit := by
    intro p hp
    obtain ⟨e, he, rfl⟩ := List.mem_map.mp hp
    exact (Bus.responseId_of_mem_exchanges he).2
  have hwires : wires (exchanges.map Prod.snd) = config.replies bus start source.delivered := by
    rw [hreplies]
    rfl
  refine ⟨?_, ?_, ?_⟩
  · intro chunks hchunks
    have hprefix : chunks.flatten <+: wires (exchanges.map Prod.snd) := by
      rw [hchunks, hwires]
      exact written_prefix_replies config bus start source sink
    obtain ⟨batches, d, hpush, hfront, hall⟩ := Deframer.pushAll_of_prefix hfits hprefix
    refine ⟨batches, d, hpush, hfront, fun hs => hall ?_⟩
    rw [hchunks, hwires, written_of_reliable config bus start source hs]
  · intro hs stats hstats
    rw [stats_of_reliable config bus start source hs hstats, Stats.tally, ← hreplies,
      List.length_map]
  · intro e he
    obtain ⟨hid, hfit⟩ := Bus.responseId_of_mem_exchanges he
    exact ⟨hid, hfit.1⟩

/-- Of three replies the second is too long for the peer, and the others come in torn chunks. -/
theorem runSession_accepted_torn :
    let config : SessionConfig := { limit := 3 }
    let bus := ((Registry.new .msgPack).install [Catalog.ReplyHandler.double.register 5 6]).1.build
    let source : Source :=
      [.octets [0, 5, 0, 0, 0, 1, 21, 0, 5, 0, 0, 0, 3, 0xCD, 0x9C, 0x40, 0, 5, 0, 0, 0, 1, 1]]
    let sink : Sink := { limit := (some 4 : Option Nat) }
    let r := runSession config bus {} source sink
    let chunks : List Octets := [[0, 6, 0], [0, 0, 1, 42, 0, 6, 0, 0, 0, 1], [2]]
    sink.Reliable ∧ chunks.flatten = Event.written r.trace.toList ∧
      ∃ (batches : List (List Packet)) (d : Deframer),
        (Deframer.new 3).pushAll chunks = (batches.map .ok, d) ∧
        batches.flatten = [⟨6, [42]⟩, ⟨6, [2]⟩] ∧ d.hasPartial = false := by
  intro config bus source sink r chunks
  have hsink : sink.Reliable := Sink.reliable_limit (by simp)
  have hchunks : chunks.flatten = Event.written r.trace.toList := by
    dsimp only [r, chunks, sink, source, bus, config]
    decide +kernel
  obtain ⟨haccepted, -, -⟩ := runSession_accepted config bus {} source sink
  obtain ⟨batches, d, hpush, -, hall⟩ := haccepted chunks hchunks
  obtain ⟨hflat, hpartial⟩ := hall hsink
  refine ⟨hsink, hchunks, batches, d, hpush, ?_, hpartial⟩
  rw [hflat]
  dsimp only [source, bus, config]
  decide +kernel

end PacketBus
