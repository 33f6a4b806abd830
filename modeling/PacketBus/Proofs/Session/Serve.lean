import PacketBus.Proofs.Bus.Sequence
import PacketBus.Proofs.Frame.Stream
import PacketBus.Session.Serve

/-! # What serving packets comes to

Serving packets dispatches them in order, up to one that stops the session. The octets to send, the
notes and the counters can be read off what the dispatches came to.
-/
namespace PacketBus

/-- A reply that a peer with the same limit takes. -/
def acceptedReply? (limit : UInt32) : Except DispatchFault Outcome → Option Packet
  | .ok (.reply reply) => if reply.length ≤ limit.toNat then some reply else none
  | .ok .noHandler | .ok .silent | .error _ => none

def isUnhandled : Except DispatchFault Outcome → Bool
  | .ok .noHandler => true
  | .ok .silent | .ok (.reply _) | .error _ => false

def isSilent : Except DispatchFault Outcome → Bool
  | .ok .silent => true
  | .ok .noHandler | .ok (.reply _) | .error _ => false

/-- A request did not decode, or its reply did not encode or is too long. -/
def isFailed (limit : UInt32) : Except DispatchFault Outcome → Bool
  | .ok .noHandler | .ok .silent => false
  | .ok (.reply reply) => limit.toNat < reply.length
  | .error _ => true

def acceptedReplies (limit : UInt32) (outcomes : List (Except DispatchFault Outcome)) :
    List Packet := outcomes.filterMap (acceptedReply? limit)

/-- Of the replies that a larger limit lets through, those that a limit lets through. -/
theorem acceptedReplies_of_le {limit raised : UInt32} (hle : limit ≤ raised)
    (os : List (Except DispatchFault Outcome)) :
    acceptedReplies limit os =
      (acceptedReplies raised os).filter fun reply => reply.length ≤ limit.toNat := by
  have hnat := UInt32.le_iff_toNat_le.mp hle
  rw [acceptedReplies, acceptedReplies, List.filter_filterMap]
  congr 1
  funext o
  match o with
  | .ok (.reply reply) =>
    simp only [acceptedReply?]
    by_cases hl : reply.length ≤ limit.toNat
    · have hr : reply.length ≤ raised.toNat := Nat.le_trans hl hnat
      simp [hl, hr, Option.filter]
    · by_cases hr : reply.length ≤ raised.toNat <;> simp [hl, hr, Option.filter]
  | .ok .noHandler | .ok .silent | .error _ => rfl

theorem acceptedReplies_append (limit : UInt32) (os ps : List (Except DispatchFault Outcome)) :
    acceptedReplies limit (os ++ ps) = acceptedReplies limit os ++ acceptedReplies limit ps :=
  List.filterMap_append

namespace Stats

instance : Add Stats where
  add s t := ⟨s.received + t.received, s.replied + t.replied, s.unhandled + t.unhandled,
    s.failed + t.failed⟩

/-- The counters of a session whose packets came to these outcomes. -/
def tally (limit : UInt32) (outcomes : List (Except DispatchFault Outcome)) : Stats where
  received := outcomes.length
  replied := (acceptedReplies limit outcomes).length
  unhandled := outcomes.countP isUnhandled
  failed := outcomes.countP (isFailed limit)

theorem add_def (s t : Stats) :
    s + t = ⟨s.received + t.received, s.replied + t.replied, s.unhandled + t.unhandled,
      s.failed + t.failed⟩ := rfl

theorem tally_append (limit : UInt32) (os ps : List (Except DispatchFault Outcome)) :
    tally limit (os ++ ps) = tally limit os + tally limit ps := by
  simp [tally, add_def, acceptedReplies_append]

/-- Each packet is counted once as received and once as what became of it. -/
theorem received_tally (limit : UInt32) (outcomes : List (Except DispatchFault Outcome)) :
    let stats := tally limit outcomes
    stats.received =
      stats.replied + stats.unhandled + stats.failed + outcomes.countP isSilent := by
  induction outcomes with
  | nil => rfl
  | cons o os ih =>
    have hone : (tally limit [o]).received = (tally limit [o]).replied +
        (tally limit [o]).unhandled + (tally limit [o]).failed + [o].countP isSilent := by
      match o with
      | .ok .noHandler | .ok .silent | .error _ => rfl
      | .ok (.reply reply) =>
        by_cases hl : reply.length ≤ limit.toNat
        · have hlt : ¬limit.toNat < reply.length := by omega
          simp [tally, acceptedReplies, acceptedReply?, isUnhandled, isFailed, isSilent, hl, hlt]
        · have hlt : limit.toNat < reply.length := by omega
          simp [tally, acceptedReplies, acceptedReply?, isUnhandled, isFailed, isSilent, hl, hlt]
    rw [← List.singleton_append, tally_append, List.countP_append]
    simp only [add_def] at ih hone ⊢
    omega

theorem add_assoc (s t u : Stats) : s + t + u = s + (t + u) := by
  simp [add_def, Nat.add_assoc]

end Stats

theorem replyVerdict_of_fits {limit : UInt32} {reply : Packet} (hr : reply.Fits limit) :
    replyVerdict limit reply = .replied reply.wire := by
  have hv := Packet.validate_eq_ok_iff.mpr hr
  have hf := Packet.frame_eq_wire hr.length_lt
  simp [replyVerdict, hv, hf, bind, Except.bind]

theorem replyVerdict_of_not_fits {limit : UInt32} {reply : Packet} (hr : ¬reply.Fits limit) :
    ∃ fault, replyVerdict limit reply = .replyDropped reply.id fault := by
  cases hv : reply.validate limit with
  | ok u => exact absurd (Packet.validate_eq_ok_iff.mp hv) hr
  | error fault => exact ⟨fault, by simp [replyVerdict, hv, bind, Except.bind]⟩

variable {σ : Type} {config : SessionConfig} {bus : Bus σ}

/-- What is kept of a packet and its dispatch. -/
def Served.ofStep (config : SessionConfig)
    (s : Packet × Step σ (Except DispatchFault Outcome)) : Served :=
  ⟨s.1.id, s.2.notes, verdictOf config s.2.value⟩

/-- The record that is due for a packet and its dispatch. A packet that stops a session has none. -/
def report? (config : SessionConfig) (s : Packet × Step σ (Except DispatchFault Outcome)) :
    Option Record :=
  match s.2.value with
  | .ok .noHandler => some (.noHandler s.1.id)
  | .ok .silent => none
  | .ok (.reply reply) =>
    match reply.validate config.limit with
    | .ok () => none
    | .error fault => some (.replyDropped reply.id s.1.id fault)
  | .error fault =>
    if !fault.isDecode then some (.handlerFailed s.1.id fault)
    else if config.stopOnDecodeFault then none
    else some (.undecodable fault)

theorem record?_ofStep (config : SessionConfig)
    (s : Packet × Step σ (Except DispatchFault Outcome)) :
    (Served.ofStep config s).record? = report? config s := by
  obtain ⟨p, value, state, notes⟩ := s
  simp only [Served.record?, Served.ofStep, report?]
  cases value with
  | ok outcome =>
    cases outcome with
    | noHandler => rfl
    | silent => rfl
    | reply reply =>
      simp only [verdictOf]
      cases hv : reply.validate config.limit with
      | ok u => rw [replyVerdict_of_fits (Packet.validate_eq_ok_iff.mp hv)]
      | error fault => simp [replyVerdict, hv, bind, Except.bind]
  | error fault =>
    simp only [verdictOf]
    cases fault.isDecode with
    | false => rfl
    | true => cases config.stopOnDecodeFault <;> rfl

/-- No packet is due the warning of a stream that is cut off. -/
theorem report?_ne_cutStream (config : SessionConfig)
    (s : Packet × Step σ (Except DispatchFault Outcome)) (buffered : Nat) :
    report? config s ≠ some (.cutStream buffered) := by
  obtain ⟨p, value, state, notes⟩ := s
  cases value with
  | ok outcome =>
    cases outcome with
    | noHandler => simp [report?]
    | silent => simp [report?]
    | reply reply =>
      simp only [report?]
      split <;> simp
  | error fault =>
    simp only [report?]
    split
    · simp
    · split <;> simp

theorem verdictOf_of_decodeFault (config : SessionConfig) {o : Except DispatchFault Outcome}
    {fault : DispatchFault} (h : decodeFault? o = some fault) :
    verdictOf config o =
      if config.stopOnDecodeFault then .stopped fault else .undecodable fault := by
  cases o with
  | ok outcome => simp [decodeFault?] at h
  | error other =>
    by_cases hd : other.isDecode
    · simp only [decodeFault?, hd, if_true, Option.some.injEq] at h
      subst other
      simp [verdictOf, hd]
    · simp [decodeFault?, hd] at h

theorem verdictOf_ne_stopped (config : SessionConfig) {o : Except DispatchFault Outcome}
    (h : decodeFault? o = none) (fault : DispatchFault) : verdictOf config o ≠ .stopped fault := by
  intro hs
  cases o with
  | ok outcome =>
    cases outcome with
    | noHandler => simp [verdictOf] at hs
    | silent => simp [verdictOf] at hs
    | reply reply =>
      simp only [verdictOf, replyVerdict] at hs
      split at hs <;> simp at hs
  | error other =>
    by_cases hd : other.isDecode
    · simp [decodeFault?, hd] at h
    · simp [verdictOf, hd] at hs

/-- Packets are served as they are dispatched one after another. -/
theorem serveAll_eq (ps : List Packet) (state : σ) :
    serveAll config bus ps state =
      let served := bus.admitted config.stopOnDecodeFault ps state
      ((bus.steps served state).map (Served.ofStep config),
        bus.stopFault? config.stopOnDecodeFault ps state, bus.after served state) := by
  induction ps generalizing state with
  | nil => cases hs : config.stopOnDecodeFault <;> rfl
  | cons p ps ih =>
    have hrest := ih (bus.dispatch p state).state
    cases hp : decodeFault? (bus.dispatch p state).value with
    | some fault =>
      have hv := verdictOf_of_decodeFault config hp
      cases hs : config.stopOnDecodeFault with
      | true =>
        simp only [hs, if_true] at hv
        simp only [serveAll, serve, hv, Bus.admitted, Bus.stopFault?, if_true, Bus.upToUndecodable,
          hp, Option.isSome_some, Bus.outcomes_cons, List.findSome?_cons, Bus.steps, List.map_cons,
          List.map_nil, Served.ofStep]
        rfl
      | false =>
        simp only [hs, Bool.false_eq_true, if_false] at hv
        simp only [hs, Bus.admitted, Bus.stopFault?, Bool.false_eq_true, if_false] at hrest ⊢
        simp only [serveAll, serve, hv, hrest, Bus.steps, List.map_cons, Served.ofStep]
        rfl
    | none =>
      have hv := verdictOf_ne_stopped config hp
      have hstop : bus.stopFault? config.stopOnDecodeFault [p] state = none := by
        simp [Bus.stopFault?, Bus.outcomes, Bus.steps, hp]
      have hadmitted := Bus.admitted_append hstop ps
      have hfault := Bus.stopFault?_append hstop ps
      simp only [List.singleton_append] at hadmitted hfault
      simp only [serveAll, serve, hadmitted, hfault, Bus.steps, List.map_cons]
      rw [hrest]
      rfl

theorem frame_ofStep (config : SessionConfig) (s : Packet × Step σ (Except DispatchFault Outcome))
    (hid : ∀ reply, s.2.value = .ok (.reply reply) → reply.id ≠ Header.reservedId) :
    (Served.ofStep config s).frame =
      Stream.wires (acceptedReplies config.limit [s.2.value]) := by
  obtain ⟨p, value, state, notes⟩ := s
  cases value with
  | ok outcome =>
    cases outcome with
    | noHandler => rfl
    | silent => rfl
    | reply reply =>
      have hne := hid reply rfl
      by_cases hl : reply.length ≤ config.limit.toNat
      · simp [Served.ofStep, verdictOf, replyVerdict_of_fits ⟨hne, hl⟩, Served.frame,
          acceptedReplies, acceptedReply?, hl]
      · have hnot : ¬reply.Fits config.limit := fun hf => hl hf.2
        obtain ⟨fault, hv⟩ := replyVerdict_of_not_fits hnot
        simp [Served.ofStep, verdictOf, hv, Served.frame, acceptedReplies, acceptedReply?, hl]
  | error fault =>
    simp only [Served.ofStep, verdictOf]
    split
    · rfl
    · split <;> rfl

theorem count_ofStep (config : SessionConfig) (stats : Stats)
    (s : Packet × Step σ (Except DispatchFault Outcome))
    (hid : ∀ reply, s.2.value = .ok (.reply reply) → reply.id ≠ Header.reservedId) :
    Served.count stats (Served.ofStep config s) =
      stats + Stats.tally config.limit [s.2.value] := by
  obtain ⟨p, value, state, notes⟩ := s
  cases value with
  | ok outcome =>
    cases outcome with
    | noHandler => rfl
    | silent => rfl
    | reply reply =>
      have hne := hid reply rfl
      by_cases hl : reply.length ≤ config.limit.toNat
      · have hlt : ¬config.limit.toNat < reply.length := by omega
        simp [Served.ofStep, verdictOf, replyVerdict_of_fits ⟨hne, hl⟩, Served.count,
          Stats.tally, acceptedReplies, acceptedReply?, isFailed, isUnhandled, hl, hlt,
          Stats.add_def]
      · have hlt : config.limit.toNat < reply.length := by omega
        have hnot : ¬reply.Fits config.limit := fun hf => hl hf.2
        obtain ⟨fault, hv⟩ := replyVerdict_of_not_fits hnot
        simp [Served.ofStep, verdictOf, hv, Served.count, Stats.tally, acceptedReplies,
          acceptedReply?, isFailed, isUnhandled, hl, hlt, Stats.add_def]
  | error fault =>
    simp only [Served.ofStep, verdictOf]
    split
    · rfl
    · split <;> rfl

/-- The octets to send are the frames of the replies that a peer takes. -/
theorem flatMap_frame_steps (ps : List Packet) (state : σ) :
    ((bus.steps ps state).map (Served.ofStep config)).flatMap Served.frame =
      Stream.wires (acceptedReplies config.limit (bus.outcomes ps state)) := by
  induction ps generalizing state with
  | nil => rfl
  | cons p ps ih =>
    have hp := frame_ofStep config (p, bus.dispatch p state)
      fun reply h => Bus.reply_id_ne_reserved h
    rw [Bus.outcomes_cons_eq_append, acceptedReplies_append, Stream.wires_append, ← ih, ← hp]
    rfl

theorem foldl_count_steps (stats : Stats) (ps : List Packet) (state : σ) :
    ((bus.steps ps state).map (Served.ofStep config)).foldl Served.count stats =
      stats + Stats.tally config.limit (bus.outcomes ps state) := by
  induction ps generalizing stats state with
  | nil => rfl
  | cons p ps ih =>
    have hp := count_ofStep config stats (p, bus.dispatch p state)
      fun reply h => Bus.reply_id_ne_reserved h
    rw [Bus.outcomes_cons_eq_append, Stats.tally_append, ← Stats.add_assoc, ← hp, ← ih]
    rfl

end PacketBus
