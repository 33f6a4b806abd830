import PacketBus.Bus.Table

/-! # Dispatching packets in order

What becomes of packets that are dispatched one after another, each once, and where a sequence ends
that goes no further than the first packet that does not decode.
-/
namespace PacketBus

/-- The fault of a packet that does not decode. -/
def decodeFault? : Except DispatchFault Outcome → Option DispatchFault
  | .ok _ => none
  | .error fault => if fault.isDecode then some fault else none

namespace Registration
variable {σ : Type}

theorem responseId_eq_some_iff {r : Registration σ} {response : UInt16} :
    r.responseId = some response ↔ response ≠ Header.reservedId ∧
      ∃ request shape run, r = .reply r.id response request shape run := by
  obtain ⟨id, request, reaction⟩ := r
  cases reaction with
  | silent run => simp [responseId, Registration.reply]
  | reply other shape run =>
    have heq : responseId ⟨id, request, .reply other shape run⟩ =
      if other = Header.reservedId then none else some other := rfl
    rw [heq]
    constructor
    · intro hsome
      split at hsome
      · simp at hsome
      · rename_i hne
        obtain rfl := Option.some.inj hsome
        exact ⟨hne, request, shape, run, rfl⟩
    · rintro ⟨hne, request', shape', run', hr⟩
      obtain ⟨-, rfl, hreaction⟩ := Registration.mk.inj hr
      obtain ⟨rfl, -⟩ := Reaction.reply.inj (eq_of_heq hreaction)
      rw [if_neg hne]

/-- A reply has the id that its handler was registered with. -/
theorem responseId_of_reply {codec : Codec} {r : Registration σ} {payload : Octets} {state : σ}
    {reply : Packet} (h : (r.serve codec payload state).value = .ok (.reply reply)) :
    r.responseId = some reply.id := by
  unfold serve at h
  cases hd : codec.decode r.request.schema payload with
  | error cause => simp [hd] at h
  | ok request =>
    simp only [hd, respond] at h
    unfold responseId
    cases hreaction : r.reaction with
    | silent run => simp [hreaction] at h
    | reply id response run =>
      simp only [hreaction] at h ⊢
      cases hv : (run request state).value with
      | none => simp [hv] at h
      | some value =>
        by_cases hid : id = Header.reservedId
        · simp [hv, hid] at h
        · cases he : codec.encode response.shape value with
          | error cause => simp [hv, hid, he] at h
          | ok payload =>
            simp only [hv, hid, he, if_false, Except.ok.injEq, Outcome.reply.injEq] at h
            rw [← h, if_neg hid]

end Registration

namespace Bus
variable {σ : Type} (bus : Bus σ)

/-- The state after packets in order. -/
def after (ps : List Packet) (state : σ) : σ :=
  ps.foldl (fun state p => (bus.dispatch p state).state) state

/-- Each packet with its dispatch. -/
def steps : List Packet → σ → List (Packet × Step σ (Except DispatchFault Outcome))
  | [], _ => []
  | p :: ps, state => (p, bus.dispatch p state) :: steps ps (bus.dispatch p state).state

def outcomes (ps : List Packet) (state : σ) : List (Except DispatchFault Outcome) :=
  (bus.steps ps state).map fun s => s.2.value

def notes (ps : List Packet) (state : σ) : List String :=
  (bus.steps ps state).flatMap fun s => s.2.notes

/-- The packets up to the first that does not decode, that one included. -/
def upToUndecodable : List Packet → σ → List Packet
  | [], _ => []
  | p :: ps, state =>
    let step := bus.dispatch p state
    if (decodeFault? step.value).isSome then [p] else p :: upToUndecodable ps step.state

/-- The packets that are dispatched if one that does not decode is the last, or need not be. -/
def admitted (stop : Bool) (ps : List Packet) (state : σ) : List Packet :=
  if stop then bus.upToUndecodable ps state else ps

/-- The fault that ends a sequence if one that does not decode is its last. -/
def stopFault? (stop : Bool) (ps : List Packet) (state : σ) : Option DispatchFault :=
  if stop then (bus.outcomes ps state).findSome? decodeFault? else none

variable {bus} {ps qs : List Packet} {state : σ} {stop : Bool}

theorem after_append (ps qs : List Packet) (state : σ) :
    bus.after (ps ++ qs) state = bus.after qs (bus.after ps state) := List.foldl_append

theorem steps_append (ps qs : List Packet) (state : σ) :
    bus.steps (ps ++ qs) state = bus.steps ps state ++ bus.steps qs (bus.after ps state) := by
  induction ps generalizing state with
  | nil => rfl
  | cons p ps ih =>
    have h := ih (bus.dispatch p state).state
    simp only [List.cons_append, steps, h]
    rfl

theorem outcomes_append (ps qs : List Packet) (state : σ) :
    bus.outcomes (ps ++ qs) state =
      bus.outcomes ps state ++ bus.outcomes qs (bus.after ps state) := by
  rw [outcomes, steps_append, List.map_append]
  rfl

theorem notes_append (ps qs : List Packet) (state : σ) :
    bus.notes (ps ++ qs) state = bus.notes ps state ++ bus.notes qs (bus.after ps state) := by
  rw [notes, steps_append, List.flatMap_append]
  rfl

theorem outcomes_cons (p : Packet) (ps : List Packet) (state : σ) :
    bus.outcomes (p :: ps) state =
      (bus.dispatch p state).value :: bus.outcomes ps (bus.dispatch p state).state := rfl

theorem outcomes_cons_eq_append (p : Packet) (ps : List Packet) (state : σ) :
    bus.outcomes (p :: ps) state =
      [(bus.dispatch p state).value] ++ bus.outcomes ps (bus.dispatch p state).state := rfl

@[simp] theorem length_steps (ps : List Packet) (state : σ) :
    (bus.steps ps state).length = ps.length := by
  induction ps generalizing state with
  | nil => rfl
  | cons p ps ih => rw [steps, List.length_cons, ih, List.length_cons]

/-- A sequence that nothing stops goes on with what follows. -/
theorem admitted_append (h : bus.stopFault? stop ps state = none) (qs : List Packet) :
    bus.admitted stop (ps ++ qs) state = ps ++ bus.admitted stop qs (bus.after ps state) := by
  cases stop with
  | false => rfl
  | true =>
    simp only [stopFault?, admitted, if_true] at h ⊢
    induction ps generalizing state with
    | nil => rfl
    | cons p ps ih =>
      rw [outcomes_cons, List.findSome?_cons] at h
      cases hp : decodeFault? (bus.dispatch p state).value with
      | some fault => simp [hp] at h
      | none =>
        rw [hp] at h
        have hrest := ih h
        simp only [List.cons_append, upToUndecodable, hp, Option.isSome_none, hrest]
        rfl

theorem admitted_eq_self (h : bus.stopFault? stop ps state = none) :
    bus.admitted stop ps state = ps := by
  have ha := admitted_append h []
  rw [List.append_nil] at ha
  rw [ha]
  cases stop <;> simp [admitted, upToUndecodable]

theorem stopFault?_append (h : bus.stopFault? stop ps state = none) (qs : List Packet) :
    bus.stopFault? stop (ps ++ qs) state = bus.stopFault? stop qs (bus.after ps state) := by
  cases stop with
  | false => rfl
  | true =>
    simp only [stopFault?, if_true] at h ⊢
    rw [outcomes_append, List.findSome?_append, h, Option.none_or]

/-- A sequence that is stopped does not depend on what follows. -/
theorem admitted_append_of_some {fault : DispatchFault}
    (h : bus.stopFault? stop ps state = some fault) (qs : List Packet) :
    bus.admitted stop (ps ++ qs) state = bus.admitted stop ps state := by
  cases stop with
  | false => simp [stopFault?] at h
  | true =>
    simp only [stopFault?, admitted, if_true] at h ⊢
    induction ps generalizing state with
    | nil => simp [outcomes, steps] at h
    | cons p ps ih =>
      rw [outcomes_cons, List.findSome?_cons] at h
      cases hp : decodeFault? (bus.dispatch p state).value with
      | some other => simp only [List.cons_append, upToUndecodable, hp, Option.isSome_some, if_true]
      | none =>
        rw [hp] at h
        have hrest := ih h
        simp only [List.cons_append, upToUndecodable, hp, Option.isSome_none, hrest]

theorem stopFault?_append_of_some {fault : DispatchFault}
    (h : bus.stopFault? stop ps state = some fault) (qs : List Packet) :
    bus.stopFault? stop (ps ++ qs) state = some fault := by
  cases stop with
  | false => simp [stopFault?] at h
  | true =>
    simp only [stopFault?, if_true] at h ⊢
    rw [outcomes_append, List.findSome?_append, h, Option.some_or]

/-- The packet that stops a sequence is in the sequence. -/
theorem stopFault?_admitted (ps : List Packet) (state : σ) :
    bus.stopFault? stop (bus.admitted stop ps state) state = bus.stopFault? stop ps state := by
  cases stop with
  | false => rfl
  | true =>
    simp only [stopFault?, admitted, if_true]
    induction ps generalizing state with
    | nil => rfl
    | cons p ps ih =>
      cases hp : decodeFault? (bus.dispatch p state).value with
      | some fault =>
        simp only [upToUndecodable, hp, Option.isSome_some, if_true, outcomes_cons,
          List.findSome?_cons]
      | none =>
        have hrest := ih (bus.dispatch p state).state
        simp only [upToUndecodable, hp, Option.isSome_none, Bool.false_eq_true, if_false,
          outcomes_cons, List.findSome?_cons, hrest]

/-- A sequence that is stopped ends with the packet that stops it, and no packet before it does. -/
theorem exists_last_of_stopFault? {fault : DispatchFault}
    (h : bus.stopFault? stop ps state = some fault) :
    stop = true ∧ ∃ (qs : List Packet) (p : Packet), bus.admitted stop ps state = qs ++ [p] ∧
      bus.stopFault? stop qs state = none ∧
      decodeFault? (bus.dispatch p (bus.after qs state)).value = some fault := by
  cases stop with
  | false => simp [stopFault?] at h
  | true =>
    refine ⟨rfl, ?_⟩
    simp only [stopFault?, admitted, if_true] at h ⊢
    induction ps generalizing state with
    | nil => simp [outcomes, steps] at h
    | cons p ps ih =>
      rw [outcomes_cons, List.findSome?_cons] at h
      cases hp : decodeFault? (bus.dispatch p state).value with
      | some other =>
        simp only [hp, Option.some.injEq] at h
        subst h
        refine ⟨[], p, ?_, rfl, hp⟩
        simp only [upToUndecodable, hp, Option.isSome_some, if_true, List.nil_append]
      | none =>
        rw [hp] at h
        obtain ⟨qs, last, hall, hnone, hlast⟩ := ih h
        refine ⟨p :: qs, last, ?_, ?_, hlast⟩
        · simp only [upToUndecodable, hp, Option.isSome_none, Bool.false_eq_true, if_false, hall,
            List.cons_append]
        · rw [outcomes_cons, List.findSome?_cons, hp]
          exact hnone

theorem decodeFault?_of_mem_steps (h : bus.stopFault? stop ps state = none) (hstop : stop = true)
    {s : Packet × Step σ (Except DispatchFault Outcome)} (hs : s ∈ bus.steps ps state) :
    decodeFault? s.2.value = none := by
  simp only [stopFault?, hstop, if_true, List.findSome?_eq_none_iff] at h
  exact h _ (List.mem_map_of_mem hs)

theorem upToUndecodable_prefix (ps : List Packet) (state : σ) :
    bus.upToUndecodable ps state <+: ps := by
  induction ps generalizing state with
  | nil => exact List.prefix_rfl
  | cons p ps ih =>
    rw [upToUndecodable]
    split
    · exact ⟨ps, rfl⟩
    · exact (List.prefix_cons_inj p).mpr (ih _)

theorem admitted_prefix (stop : Bool) (ps : List Packet) (state : σ) :
    bus.admitted stop ps state <+: ps := by
  cases stop with
  | false => exact List.prefix_rfl
  | true => exact upToUndecodable_prefix ps state

theorem responseId_of_reply {p reply : Packet}
    (h : (bus.dispatch p state).value = .ok (.reply reply)) :
    bus.responseId p.id = some reply.id := by
  unfold dispatch at h
  unfold responseId
  cases hr : bus.table.get? p.id with
  | none => simp [hr] at h
  | some r =>
    rw [hr] at h
    exact Registration.responseId_of_reply h

/-- The reserved id is never that of a reply. -/
theorem reply_id_ne_reserved {p reply : Packet}
    (h : (bus.dispatch p state).value = .ok (.reply reply)) : reply.id ≠ Header.reservedId := by
  have hid := responseId_of_reply h
  simp only [responseId, Option.bind_eq_bind, Option.bind_eq_some_iff] at hid
  obtain ⟨r, -, hr⟩ := hid
  exact (Registration.responseId_eq_some_iff.mp hr).1

/-- Each step is a dispatch of its packet, in some state. -/
theorem dispatch_of_mem_steps {s : Packet × Step σ (Except DispatchFault Outcome)}
    (h : s ∈ bus.steps ps state) : ∃ before, s.2 = bus.dispatch s.1 before := by
  induction ps generalizing state with
  | nil => simp [steps] at h
  | cons p ps ih =>
    rcases List.mem_cons.mp h with rfl | h
    · exact ⟨state, rfl⟩
    · exact ih h

end Bus
end PacketBus
