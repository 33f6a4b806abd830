import PacketBus.Proofs.Bus.History

/-! # What a dispatch comes to

A packet is answered by the last registration of its id. Nothing changes unless its handler runs,
and a handler that runs leaves what it leaves, whatever becomes of the value that it returns.
-/
namespace PacketBus
variable {σ : Type}

/-- A run of the handler of a registration on a request. -/
abbrev Run (σ : Type) := (r : Registration σ) × r.request.schema.Value

namespace Registration

/-- The handler also keeps a log of its runs. -/
def logging (r : Registration σ) : Registration (σ × List (Run σ)) where
  id := r.id
  request := r.request
  reaction :=
    match r.reaction with
    | .silent run => .silent fun v (state, log) =>
      let step := run v state
      { step with state := (step.state, log ++ [⟨r, v⟩]) }
    | .reply id response run => .reply id response fun v (state, log) =>
      let step := run v state
      { step with state := (step.state, log ++ [⟨r, v⟩]) }

/-- The runs that a payload is to cause: one, on what the payload decodes to. -/
def runs (codec : Codec) (r : Registration σ) (payload : Octets) : List (Run σ) :=
  match codec.decode r.request.schema payload with
  | .ok v => [⟨r, v⟩]
  | .error _ => []

theorem serve_logging (codec : Codec) (r : Registration σ) (payload : Octets) (state : σ)
    (log : List (Run σ)) :
    r.logging.serve codec payload (state, log) =
      let step := r.serve codec payload state
      { step with state := (step.state, log ++ r.runs codec payload) } := by
  obtain ⟨id, request, reaction⟩ := r
  cases reaction with
  | silent run =>
    cases hd : codec.decode request.schema payload with
    | error cause => simp [serve, logging, runs, hd]
    | ok v => simp [serve, respond, logging, runs, hd]
  | reply response shape run =>
    cases hd : codec.decode request.schema payload with
    | error cause => simp [serve, logging, runs, hd]
    | ok v => simp [serve, respond, logging, runs, hd]

end Registration

namespace Bus
open Registry

/-- How a packet is answered, told from the history of a bus. Where a handler runs, it is that of
the last registration of the id, and the state and the notes are those that it leaves. -/
inductive Answers (codec : Codec) (history : List (Registration σ)) (p : Packet) (state : σ) :
    Step σ (Except DispatchFault Outcome) → Prop
  | unknown (hid : p.id ∉ ids history) :
    Answers codec history p state { value := .ok .noHandler, state }
  | undecodable {r : Registration σ} {cause : CodecFault} (hr : last? history p.id = some r)
      (hd : codec.decode r.request.schema p.payload = .error cause) :
    Answers codec history p state { value := .error (.decode p.id cause), state }
  | silent {request run v} (hr : last? history p.id = some (.silent p.id request run))
      (hd : codec.decode request.schema p.payload = .ok v) :
    Answers codec history p state { run v state with value := .ok .silent }
  | noValue {response request shape run v}
      (hr : last? history p.id = some (.reply p.id response request shape run))
      (hd : codec.decode request.schema p.payload = .ok v) (hv : (run v state).value = none) :
    Answers codec history p state { run v state with value := .ok .silent }
  | unawaited {request shape run v}
      (hr : last? history p.id = some (.reply p.id Header.reservedId request shape run))
      (hd : codec.decode request.schema p.payload = .ok v) :
    Answers codec history p state { run v state with value := .ok .silent }
  | unencodable {response request shape run v value} {cause : CodecFault}
      (hr : last? history p.id = some (.reply p.id response request shape run))
      (hd : codec.decode request.schema p.payload = .ok v)
      (hv : (run v state).value = some value) (hresponse : response ≠ Header.reservedId)
      (he : codec.encode shape.shape value = .error cause) :
    Answers codec history p state { run v state with value := .error (.encode response cause) }
  | reply {response request shape run v value} {payload : Octets}
      (hr : last? history p.id = some (.reply p.id response request shape run))
      (hd : codec.decode request.schema p.payload = .ok v)
      (hv : (run v state).value = some value) (hresponse : response ≠ Header.reservedId)
      (he : codec.encode shape.shape value = .ok payload) :
    Answers codec history p state { run v state with value := .ok (.reply ⟨response, payload⟩) }

variable {codec : Codec} {rs : List (Registration σ)} {p : Packet} {state : σ}

/-- Some answer is always due. -/
theorem exists_answers (codec : Codec) (rs : List (Registration σ)) (p : Packet) (state : σ) :
    ∃ step, Answers codec rs p state step := by
  cases hr : last? rs p.id with
  | none => exact ⟨_, .unknown (last?_eq_none_iff.mp hr)⟩
  | some r =>
    cases hd : codec.decode r.request.schema p.payload with
    | error cause => exact ⟨_, .undecodable hr hd⟩
    | ok v =>
      -- the registration that answers has the id of the packet
      have hid : r.id = p.id := id_of_last? hr
      obtain ⟨id, request, reaction⟩ := r
      obtain rfl : id = p.id := hid
      cases reaction with
      | silent run => exact ⟨_, .silent hr hd⟩
      | reply response shape run =>
        cases hv : (run v state).value with
        | none => exact ⟨_, .noValue hr hd hv⟩
        | some value =>
          by_cases hresponse : response = Header.reservedId
          · subst hresponse
            exact ⟨_, .unawaited hr hd⟩
          · cases he : codec.encode shape.shape value with
            | error cause => exact ⟨_, .unencodable hr hd hv hresponse he⟩
            | ok payload => exact ⟨_, .reply hr hd hv hresponse he⟩

theorem Reflects.dispatch_of_answers {bus : Bus σ} (h : bus.Reflects codec rs)
    {step : Step σ (Except DispatchFault Outcome)} (ha : Answers codec rs p state step) :
    bus.dispatch p state = step := by
  rw [h.dispatch_eq]
  cases ha with
  | unknown hid => rw [last?_eq_none_iff.mpr hid]
  | undecodable hr hd =>
    have hid := id_of_last? hr
    simp only [hr, Registration.serve, hd, hid]
  | silent hr hd =>
    simp only [hr, Registration.serve, Registration.respond, Registration.silent, hd]
  | noValue hr hd hv =>
    simp only [hr, Registration.serve, Registration.respond, Registration.reply, hd, hv]
  | unawaited hr hd =>
    simp only [hr, Registration.serve, Registration.respond, Registration.reply, hd, if_true]
    split <;> rfl
  | unencodable hr hd hv hresponse he =>
    simp only [hr, Registration.serve, Registration.respond, Registration.reply, hd, hv,
      if_neg hresponse, he]
  | reply hr hd hv hresponse he =>
    simp only [hr, Registration.serve, Registration.respond, Registration.reply, hd, hv,
      if_neg hresponse, he]

/-- The answer that is due is the one that is given. -/
theorem Reflects.dispatch_eq_iff {bus : Bus σ} (h : bus.Reflects codec rs)
    {step : Step σ (Except DispatchFault Outcome)} :
    bus.dispatch p state = step ↔ Answers codec rs p state step := by
  constructor
  · intro hstep
    obtain ⟨other, ha⟩ := exists_answers codec rs p state
    rwa [← hstep, h.dispatch_of_answers ha]
  · exact h.dispatch_of_answers

/-- The runs that a packet is to cause: of the last registration of its id, and of no other. -/
def runs (codec : Codec) (history : List (Registration σ)) (p : Packet) : List (Run σ) :=
  match last? history p.id with
  | none => []
  | some r => r.runs codec p.payload

end Bus

namespace Registry

theorem last?_logging (rs : List (Registration σ)) (id : UInt16) :
    last? (rs.map Registration.logging) id = (last? rs id).map Registration.logging := by
  rw [last?, last?, List.filter_map, List.getLast?_map]
  rfl

/-- A dispatch is answered in one way, and it runs the handlers that its packet is to run and no
others: were each to keep a log, just these runs would be added to it. -/
theorem dispatch_eq_iff_answers (codec : Codec) (calls : List (Call σ)) (p : Packet) (state : σ) :
    let bus := (after codec calls).build
    let logged := (after codec [.install ((history calls).map Registration.logging)]).build
    (∀ step, bus.dispatch p state = step ↔ Bus.Answers codec (history calls) p state step) ∧
      ∀ log, logged.dispatch p (state, log) =
        let step := bus.dispatch p state
        { step with state := (step.state, log ++ Bus.runs codec (history calls) p) } := by
  intro bus logged
  have hbus := reflects_after codec calls
  have hlogged := reflects_after codec [.install ((history calls).map Registration.logging)]
  refine ⟨fun step => hbus.dispatch_eq_iff, ?_⟩
  intro log
  have hhistory : history [Call.install ((history calls).map Registration.logging)] =
      (history calls).map Registration.logging := List.append_nil _
  rw [hbus.dispatch_eq, hlogged.dispatch_eq, hhistory, last?_logging, Bus.runs]
  cases last? (history calls) p.id with
  | none => simp
  | some r => exact r.serve_logging codec p.payload state log

end Registry
end PacketBus
