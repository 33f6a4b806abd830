import PacketBus.Proofs.Session.Protocol

/-! # What a session has shown

The trace of complete batches shows what the octets received so far come to: the notes and records
of the packets served, in order, and their replies, written and flushed. The end of a session adds
the records that are due for it.
-/
namespace PacketBus
open PacketBus.Stream
variable {σ : Type}

/-- What a session is to have done by the time that packets have been served: each was dispatched
once and in order, and all replies that a peer takes have been written and flushed. -/
structure Settled (limit : UInt32) (bus : Bus σ) (start : σ) (ps : List Packet) (state : σ)
    (trace : List Event) : Prop where
  state_eq : state = bus.after ps start
  noted_eq : Event.noted trace = bus.notes ps start
  written_eq : Event.written trace = wires (acceptedReplies limit (bus.outcomes ps start))
  flushed : Event.Flushed trace

/-- What a trace shows of the octets received. -/
structure Shows (config : SessionConfig) (bus : Bus σ) (start : σ) (bs : Octets)
    (trace : List Event) : Prop where
  history_eq : Event.history trace = config.told bus start bs
  written_eq : Event.written trace = config.replies bus start bs
  flushed : Event.Flushed trace
  readCount_eq : Event.readCount trace = bs.length

variable {config : SessionConfig} {bus : Bus σ} {start : σ} {again : Bool} {sink : Sink}
  {bs chunk : Octets} {trace es : List Event}

theorem shows_nil : Shows config bus start [] [] := by
  have hserved := SessionConfig.served_nil config bus start
  refine ⟨?_, ?_, Event.flushed_of_forall (by simp), rfl⟩
  · rw [SessionConfig.told, hserved]
    rfl
  · rw [SessionConfig.replies, hserved]
    rfl

namespace Shows

theorem history_append_batch (h : Shows config bus start bs trace)
    (hf : config.fault? bus start bs = none) (hes : ∀ e ∈ es, e.isSending = true) :
    Event.history (trace ++ config.batch bus start bs chunk ++ es) =
      config.told bus start (bs ++ chunk) := by
  rw [Event.history_append, Event.history_append, Event.history_of_isSending hes, List.append_nil,
    h.history_eq, SessionConfig.told_append hf]

/-- A batch shows what its read completes. -/
theorem batch (h : Shows config bus start bs trace) (hf : config.fault? bus start bs = none)
    {n : Nat} (hes : Event.Sends again sink n (wires (config.queued bus start bs chunk)) es) :
    Shows config bus start (bs ++ chunk) (trace ++ config.batch bus start bs chunk ++ es) where
  history_eq := h.history_append_batch hf hes.isSending
  written_eq := by
    rw [Event.written_append, Event.written_append, SessionConfig.written_batch, List.append_nil,
      h.written_eq, hes.written_eq, SessionConfig.replies_append hf]
  flushed := (h.flushed.append SessionConfig.flushed_batch).append hes.flushed
  readCount_eq := by
    have hzero := Event.readCount_eq_zero fun e he =>
      Event.not_isRead_of_isSending (hes.isSending e he)
    rw [Event.readCount_append, Event.readCount_append, SessionConfig.readCount_batch, hzero,
      h.readCount_eq, List.length_append, Nat.add_zero]

/-- A session whose trace shows what it has received has settled it, also with more events that
neither note nor write. -/
theorem settled_append (h : Shows config bus start bs trace) {state : σ}
    (hstate : state = bus.after (config.served bus start bs) start) (hn : Event.noted es = [])
    (hw : ∀ e ∈ es, ∀ bs, e ≠ .wrote bs) :
    Settled config.limit bus start (config.served bus start bs) state (trace ++ es) where
  state_eq := hstate
  noted_eq := by
    rw [Event.noted_append, hn, List.append_nil, ← Event.noted_history, h.history_eq,
      SessionConfig.told, SessionConfig.noted_journal]
  written_eq := by
    rw [Event.written_append, Event.written_eq_nil hw, List.append_nil, h.written_eq]
    rfl
  flushed := h.flushed.append (Event.flushed_of_forall hw)

theorem settled (h : Shows config bus start bs trace) {state : σ}
    (hstate : state = bus.after (config.served bus start bs) start) :
    Settled config.limit bus start (config.served bus start bs) state trace := by
  have hnone : Event.noted [] = [] := rfl
  simpa only [List.append_nil] using h.settled_append hstate hnone (by simp)

end Shows

theorem Event.Waiting.shows (h : Waiting config bus start again sink bs trace) :
    Shows config bus start bs trace := by
  induction h with
  | first => exact shows_nil
  | batch h hchunk hnone hsent ih => exact ih.batch h.fault_eq hsent

end PacketBus
