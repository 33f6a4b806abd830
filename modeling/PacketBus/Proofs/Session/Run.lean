import PacketBus.Proofs.Session.Recorded

/-! # How sessions end

A session with a reliable sink goes on until its source ends or until what it has received has a
fault. Either way it has dealt with all that it has received.
-/
namespace PacketBus
open PacketBus.Stream
variable {σ : Type}

namespace Pump

/-- How a session ends that has received octets. -/
def outcome (config : SessionConfig) (bus : Bus σ) (start : σ) (last : SourceEnd) (bs : Octets) :
    Except SessionFault Stats :=
  match config.fault? bus start bs with
  | some fault => .error fault
  | none =>
    match last with
    | .failed fault => .error (.io fault)
    | .closed =>
      .ok (Stats.tally config.limit (bus.outcomes (config.served bus start bs) start))

/-- A session that is over has dealt with all octets received. -/
structure Ended (config : SessionConfig) (bus : Bus σ) (start : σ) (last : SourceEnd)
    (bs : Octets) (r : RunResult σ) : Prop where
  settled : Settled config.limit bus start (config.served bus start bs) r.state r.trace.toList
  readCount_eq : Event.readCount r.trace.toList = bs.length
  outcome_eq : r.outcome = outcome config bus start last bs

end Pump

variable {config : SessionConfig} {bus : Bus σ} {start : σ} {again : Bool} {source : Source}
  {sink : Sink} {received : Octets} {trace : List Event} {outcome : Except SessionFault Stats}

theorem SessionConfig.noted_cut (config : SessionConfig) (bs : Octets) :
    Event.noted (config.cut bs) = [] := by
  unfold cut
  dsimp only
  split <;> rfl

/-- No fault of a reliable sink ends a session. -/
theorem Event.Finished.of_reliable
    (h : Finished config bus start again source sink received trace outcome)
    (hs : sink.Reliable) :
    (config.fault? bus start received = none → received = source.delivered) ∧
      outcome = Pump.outcome config bus start source.ending received := by
  cases h with
  | closed hend h hcut hshut hrecord =>
    refine ⟨fun _ => rfl, ?_⟩
    simp only [Pump.outcome, h.fault_eq, hend]
    rfl
  | unclosed hend h hcut hshut => simp [hs.shutdown] at hshut
  | readFailed hend h =>
    refine ⟨fun _ => rfl, ?_⟩
    simp only [Pump.outcome, h.fault_eq, hend]
  | broken h hchunk hne hb => exact absurd hs hb.not_reliable
  | stopped h hchunk hfault hsent => simp [Pump.outcome, hfault]

theorem Event.Finished.settled
    (h : Finished config bus start again source sink received trace outcome)
    (hs : sink.Reliable) {state : σ}
    (hstate : state = bus.after (config.served bus start received) start) :
    Settled config.limit bus start (config.served bus start received) state trace ∧
      readCount trace = received.length := by
  cases h with
  | @closed trace warning record hend h hcut hshut hrecord =>
    obtain rfl := config.cutWarning_iff.mp hcut
    have hlocal : ∀ e ∈ config.cut source.delivered, e.isLocal = true := SessionConfig.isLocal_cut
    refine ⟨h.shows.settled_append hstate ?_ ?_, ?_⟩
    · rw [← List.singleton_append, noted_append, noted_append, config.noted_cut]
      rfl
    · refine List.forall_mem_cons.mpr ⟨by simp, List.forall_mem_append.mpr ⟨?_, by simp⟩⟩
      exact ne_wrote_of_local hlocal
    · rw [readCount_append, h.shows.readCount_eq, ← List.singleton_append, readCount_append,
        readCount_append, readCount_eq_zero (isRead_of_local hlocal)]
      rfl
  | unclosed hend h hcut hshut => simp [hs.shutdown] at hshut
  | readFailed hend h =>
    refine ⟨h.shows.settled_append hstate rfl (by simp), ?_⟩
    rw [readCount_append, h.shows.readCount_eq]
    rfl
  | broken h hchunk hne hb => exact absurd hs hb.not_reliable
  | stopped h hchunk hfault hsent =>
    have hshows := h.shows.batch h.fault_eq hsent
    exact ⟨hshows.settled hstate, hshows.readCount_eq⟩

/-- A session with a reliable sink ends with what it has received of its source. -/
theorem runSession_ended (config : SessionConfig) (bus : Bus σ) (start : σ) (source : Source)
    {sink : Sink} (hs : sink.Reliable) :
    ∃ received, received <+: source.delivered ∧
      (config.fault? bus start received = none → received = source.delivered) ∧
      Pump.Ended config bus start source.ending received
        (runSession config bus start source sink) := by
  obtain ⟨received, h⟩ := runSession_concludes config bus start source sink
  obtain ⟨hall, houtcome⟩ := h.finished.of_reliable hs
  obtain ⟨hsettled, hcount⟩ := h.finished.settled hs (h.served_eq ▸ h.state_eq)
  exact ⟨received, h.prefix_delivered, hall, hsettled, hcount, houtcome⟩

end PacketBus
