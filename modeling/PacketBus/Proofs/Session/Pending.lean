import PacketBus.Catalog.Handlers
import PacketBus.Proofs.Session.Reads
import PacketBus.Proofs.Session.Run

/-! # No work is pending when a session waits

Whenever a session makes a read call, and when it returns, it has served all packets that are
complete in what it has received, and their replies have been written and flushed. Only packets
after one that stops the session are left.
-/
namespace PacketBus
open PacketBus.Stream
variable {σ : Type} {config : SessionConfig} {bus : Bus σ} {start : σ} {sink : Sink}

namespace SessionConfig
variable {bs : Octets}

theorem served_of_dispatch {fault : DispatchFault}
    (hf : config.fault? bus start bs = some (.dispatch fault)) :
    config.served bus start bs = bus.upToUndecodable (parse config.limit bs).packets start := by
  cases hs : config.stopOnDecodeFault with
  | true => simp only [served, Bus.admitted, hs, if_true]
  | false => simp [fault?, Bus.stopFault?, hs] at hf

theorem served_of_framing {fault : HeaderFault}
    (hf : config.fault? bus start bs = some (.framing fault)) :
    config.served bus start bs = (parse config.limit bs).packets := by
  refine Bus.admitted_eq_self ?_
  cases hs : bus.stopFault? config.stopOnDecodeFault (parse config.limit bs).packets start with
  | none => rfl
  | some stop => simp [fault?, hs] at hf

end SessionConfig

namespace Pump

/-- Each read call is made by a session that keeps to the protocol. -/
theorem AtRead.conforms {chunks₀ chunks : List Octets} {p₀ p : Pump σ} {bs : Octets}
    (h : AtRead config bus sink chunks₀ p₀ chunks p) (hp : Conforms config bus start sink bs p₀)
    (hchunks : ∀ c ∈ chunks₀, config.Yields c) :
    ∃ received, received ++ chunks.flatten = bs ++ chunks₀.flatten ∧
      Conforms config bus start sink received p :=
  h.keeps (Conforms config bus start sink) hp
    (fun hchunk hconforms hround => hconforms.next (hchunks _ hchunk) hround)

/-- The packets served are those complete in what was received, unless one of them has stopped the
session. -/
theorem Ended.served_eq {last : SourceEnd} {received : Octets} {r : RunResult σ}
    (h : Ended config bus start last received r) :
    config.served bus start received =
      match r.outcome with
      | .error (.dispatch _) => bus.upToUndecodable (parse config.limit received).packets start
      | _ => (parse config.limit received).packets := by
  have houtcome := h.outcome_eq
  simp only [outcome] at houtcome
  cases hf : config.fault? bus start received with
  | none =>
    rw [hf] at houtcome
    rw [houtcome, SessionConfig.served_eq_packets hf]
    cases last <;> rfl
  | some fault =>
    rw [hf] at houtcome
    rw [houtcome]
    cases fault with
    | dispatch stop => exact SessionConfig.served_of_dispatch hf
    | framing refusal => exact SessionConfig.served_of_framing hf
    | io broken => exact absurd hf (SessionConfig.fault?_ne_io broken)

end Pump

/-- At each read call, and at the end, the packets that are complete in the octets read so far have
been dispatched, each once and in order, and their replies have been written and flushed. At an end
by a packet that does not decode, these are the packets up to that one. -/
theorem runSession_settled (config : SessionConfig) (bus : Bus σ) (start : σ) (source : Source)
    {sink : Sink} (hsink : sink.Reliable) :
    let chunks := (source.chunks (max 1 config.readSize)).1
    let r := runSession config bus start source sink
    let complete (trace : List Event) :=
      (parse config.limit (source.delivered.take (Event.readCount trace))).packets
    (∀ before e later, r.trace.toList = before ++ e :: later → e.isRead = true →
      ∃ (cs : List Octets) (p : Pump σ),
        Pump.AtRead config bus sink chunks { deframer := .new config.limit, state := start } cs p ∧
        Pump.run config bus sink source.ending cs p = r ∧ p.trace.toList = before ∧
        Settled config.limit bus start (complete before) p.state before) ∧
    Settled config.limit bus start
      (match r.outcome with
        | .error (.dispatch _) => bus.upToUndecodable (complete r.trace.toList) start
        | _ => complete r.trace.toList)
      r.state r.trace.toList := by
  intro chunks r complete
  have hsize : max 1 config.readSize ≠ 0 := by omega
  have hchunks : chunks.flatten = source.delivered := Source.flatten_chunks hsize source
  have hrun : Pump.run config bus sink source.ending chunks
      { deframer := .new config.limit, state := start } = r := by
    rw [← Source.chunks_ending (max 1 config.readSize)]
    rfl
  have hcomplete {trace : List Event} {received : Octets} (hp : received <+: source.delivered)
      (hc : Event.readCount trace = received.length) :
      complete trace = (parse config.limit received).packets := by
    obtain ⟨more, hmore⟩ := hp
    simp only [complete, hc, ← hmore, List.take_left]
  refine ⟨?_, ?_⟩
  · intro before e later htrace he
    rw [← hrun] at htrace
    obtain ⟨cs, p, hp, hbefore⟩ := Pump.AtRead.first.exists_of_isRead htrace he (by simp)
    obtain ⟨received, hall, hconforms⟩ := hp.conforms (Pump.conforms_new config bus start sink)
      (config.yields_chunks source)
    rw [List.nil_append, hchunks] at hall
    refine ⟨cs, p, hp, hp.run_eq.trans hrun, hbefore, ?_⟩
    have hshows := hconforms.waiting.shows
    rw [hbefore] at hshows
    rw [hcomplete (hall ▸ List.prefix_append _ _) hshows.readCount_eq]
    have hsettled := hshows.settled hconforms.state_eq
    rwa [SessionConfig.served_eq_packets hconforms.waiting.fault_eq] at hsettled
  · obtain ⟨received, hprefix, -, hended⟩ := runSession_ended config bus start source hsink
    rw [hcomplete hprefix hended.readCount_eq, ← hended.served_eq]
    exact hended.settled

/-- A failed read after a packet with a reply, one without a payload and a header cut short. -/
theorem runSession_settled_readFailed :
    let config : SessionConfig := { limit := 9, readSize := 4 }
    let bus := ((Registry.new .msgPack).install
      [Catalog.ReplyHandler.double.register 5 6, Catalog.SilentHandler.ping.register 7]).1.build
    let source : Source := [.octets [0, 5, 0, 0, 0, 1, 21, 0, 7, 0, 0, 0, 0, 0], .fault .writeZero]
    let sink : Sink := { limit := (some 2 : Option Nat) }
    let r := runSession config bus {} source sink
    sink.Reliable ∧ Settled 9 bus {} [⟨5, [21]⟩, ⟨7, []⟩] r.state r.trace.toList := by
  intro config bus source sink r
  have hsink : sink.Reliable := Sink.reliable_limit (by simp)
  obtain ⟨-, hend⟩ := runSession_settled config bus {} source hsink
  have houtcome : r.outcome = .error (.io .writeZero) := by
    dsimp only [r, sink, source, bus, config]
    decide +kernel
  have hcount : Event.readCount r.trace.toList = 14 := by
    dsimp only [r, sink, source, bus, config]
    decide +kernel
  have hparse : (parse 9 (source.delivered.take 14)).packets = [⟨5, [21]⟩, ⟨7, []⟩] := by
    decide +kernel
  refine ⟨hsink, ?_⟩
  dsimp only at hend
  rw [houtcome, hcount] at hend
  rwa [hparse] at hend

end PacketBus
