import PacketBus.Catalog.Handlers
import PacketBus.Proofs.Frame.RoundTrip
import PacketBus.Proofs.Session.WholeStream

/-! # Packets that come to nothing

A packet that no handler waits for and one that does not decode leave the state, the replies and the
notes as they are. A session that goes on after them shows no more of them than its counters tell.
-/
namespace PacketBus
open PacketBus.Stream
variable {σ : Type}

namespace Bus

/-- No handler waits for the packet. -/
def unroutable (bus : Bus σ) (p : Packet) : Bool := !bus.contains p.id

/-- There is a handler for the packet, but its payload is no request of that handler. -/
def undecodable (bus : Bus σ) (p : Packet) : Bool :=
  match bus.table.get? p.id with
  | none => false
  | some r =>
    match bus.codec.decode r.request.schema p.payload with
    | .ok _ => false
    | .error _ => true

/-- Some packets of the first list have been taken out of it and leave the second; the third holds
those taken out, all of which come to nothing. -/
inductive Thins (bus : Bus σ) : List Packet → List Packet → List Packet → Prop
  | nil : Thins bus [] [] []
  | keep {ps qs removed : List Packet} (p : Packet) (h : Thins bus ps qs removed) :
    Thins bus (p :: ps) (p :: qs) removed
  | drop {ps qs removed : List Packet} {p : Packet}
      (hp : bus.unroutable p = true ∨ bus.undecodable p = true) (h : Thins bus ps qs removed) :
    Thins bus (p :: ps) qs (p :: removed)

/-- What the counters tell of packets that come to nothing. -/
def idleTally (bus : Bus σ) (ps : List Packet) : Stats where
  received := ps.length
  unhandled := ps.countP bus.unroutable
  failed := ps.countP bus.undecodable

variable {bus : Bus σ} {p : Packet} {ps qs removed : List Packet}

theorem get?_of_unroutable (h : bus.unroutable p = true) : bus.table.get? p.id = none := by
  simpa only [unroutable, contains, SortedMap.contains, Bool.not_eq_true',
    Option.isSome_eq_false_iff, Option.isNone_iff_eq_none] using h

theorem dispatch_of_unroutable (h : bus.unroutable p = true) (state : σ) :
    bus.dispatch p state = { value := .ok .noHandler, state } := by
  simp only [dispatch, get?_of_unroutable h]

theorem dispatch_of_undecodable (h : bus.undecodable p = true) :
    ∃ id cause, ∀ state : σ, bus.dispatch p state =
      { value := .error (.decode id cause), state } := by
  unfold undecodable at h
  cases hr : bus.table.get? p.id with
  | none => simp [hr] at h
  | some r =>
    cases hd : bus.codec.decode r.request.schema p.payload with
    | ok v => simp [hr, hd] at h
    | error cause =>
      refine ⟨r.id, cause, ?_⟩
      intro state
      simp only [dispatch, hr, Registration.serve, hd]

/-- Only a payload that is no request of its handler gives such a fault. -/
theorem dispatch_of_decodeFault {state : σ} {fault : DispatchFault}
    (h : decodeFault? (bus.dispatch p state).value = some fault) :
    bus.undecodable p = true ∧ bus.dispatch p state = { value := .error fault, state } := by
  unfold dispatch at h ⊢
  unfold undecodable
  cases hr : bus.table.get? p.id with
  | none => simp [hr, decodeFault?] at h
  | some r =>
    simp only [hr, Registration.serve] at h ⊢
    cases hd : bus.codec.decode r.request.schema p.payload with
    | error cause =>
      simp only [hd, decodeFault?, DispatchFault.isDecode, if_true, Option.some.injEq] at h
      subst h
      exact ⟨rfl, rfl⟩
    | ok request =>
      simp only [hd, Registration.respond] at h
      cases hreaction : r.reaction with
      | silent run => simp [hreaction, decodeFault?] at h
      | reply id response run =>
        simp only [hreaction] at h
        split at h
        · simp [decodeFault?] at h
        · split at h
          · simp [decodeFault?] at h
          · split at h <;> simp [decodeFault?, DispatchFault.isDecode] at h

theorem undecodable_of_unroutable (h : bus.unroutable p = true) : bus.undecodable p = false := by
  simp only [undecodable, get?_of_unroutable h]

theorem unroutable_of_undecodable (h : bus.undecodable p = true) : bus.unroutable p = false := by
  cases hu : bus.unroutable p with
  | false => rfl
  | true => simp [undecodable_of_unroutable hu] at h

/-- A packet that comes to nothing leaves the state, no notes, no reply, and one count. -/
theorem dispatch_of_idle (h : bus.unroutable p = true ∨ bus.undecodable p = true) (limit : UInt32)
    (state : σ) :
    (bus.dispatch p state).state = state ∧ (bus.dispatch p state).notes = [] ∧
      acceptedReplies limit [(bus.dispatch p state).value] = [] ∧
      Stats.tally limit [(bus.dispatch p state).value] = bus.idleTally [p] := by
  rcases h with h | h
  · rw [dispatch_of_unroutable h]
    refine ⟨rfl, rfl, rfl, ?_⟩
    simp [Stats.tally, idleTally, acceptedReplies, acceptedReply?, isUnhandled, isFailed, h,
      undecodable_of_unroutable h]
  · obtain ⟨id, cause, hd⟩ := dispatch_of_undecodable h
    rw [hd]
    refine ⟨rfl, rfl, rfl, ?_⟩
    simp [Stats.tally, idleTally, acceptedReplies, acceptedReply?, isUnhandled, isFailed, h,
      unroutable_of_undecodable h]

/-- Packets that come to nothing can be left out of a sequence. -/
theorem Thins.after_eq (h : bus.Thins ps qs removed) (state : σ) :
    bus.after ps state = bus.after qs state := by
  induction h generalizing state with
  | nil => rfl
  | keep p h ih => exact ih (bus.dispatch p state).state
  | @drop ps qs removed p hp h ih =>
    have hstate := (dispatch_of_idle hp 0 state).1
    rw [← ih state]
    exact congrArg (bus.after ps) hstate

theorem Thins.notes_eq (h : bus.Thins ps qs removed) (state : σ) :
    bus.notes ps state = bus.notes qs state := by
  induction h generalizing state with
  | nil => rfl
  | keep p h ih => exact congrArg ((bus.dispatch p state).notes ++ ·) (ih _)
  | @drop ps qs removed p hp h ih =>
    obtain ⟨hstate, hnotes, -, -⟩ := dispatch_of_idle hp 0 state
    have hcons : bus.notes (p :: ps) state =
        (bus.dispatch p state).notes ++ bus.notes ps (bus.dispatch p state).state := rfl
    rw [hcons, hstate, hnotes, ih]
    rfl

theorem Thins.acceptedReplies_eq (h : bus.Thins ps qs removed) (limit : UInt32) (state : σ) :
    acceptedReplies limit (bus.outcomes ps state) =
      acceptedReplies limit (bus.outcomes qs state) := by
  induction h generalizing state with
  | nil => rfl
  | keep p h ih =>
    rw [outcomes_cons_eq_append, outcomes_cons_eq_append, acceptedReplies_append,
      acceptedReplies_append, ih]
  | drop hp h ih =>
    obtain ⟨hstate, -, hreplies, -⟩ := dispatch_of_idle hp limit state
    rw [outcomes_cons_eq_append, acceptedReplies_append, hreplies, hstate, ih]
    rfl

theorem Thins.tally_eq (h : bus.Thins ps qs removed) (limit : UInt32) (state : σ) :
    Stats.tally limit (bus.outcomes ps state) =
      bus.idleTally removed + Stats.tally limit (bus.outcomes qs state) := by
  induction h generalizing state with
  | nil => rfl
  | keep p h ih =>
    rw [outcomes_cons_eq_append, outcomes_cons_eq_append, Stats.tally_append, Stats.tally_append,
      ih]
    simp only [Stats.add_def, Stats.mk.injEq]
    omega
  | @drop ps qs removed p hp h ih =>
    obtain ⟨hstate, -, -, htally⟩ := dispatch_of_idle hp limit state
    rw [outcomes_cons_eq_append, Stats.tally_append, htally, hstate, ih]
    simp only [Stats.add_def, idleTally, List.length_cons, List.length_nil, List.countP_cons,
      List.countP_nil, Stats.mk.injEq]
    omega

theorem Thins.fits {limit : UInt32} (h : bus.Thins ps qs removed)
    (hp : ∀ p ∈ ps, p.Fits limit) : ∀ q ∈ qs, q.Fits limit := by
  induction h with
  | nil => exact hp
  | keep p h ih =>
    intro q hq
    rcases List.mem_cons.mp hq with rfl | hq
    · exact hp q List.mem_cons_self
    · exact ih (fun r hr => hp r (List.mem_cons_of_mem _ hr)) q hq
  | drop hdrop h ih => exact ih fun r hr => hp r (List.mem_cons_of_mem _ hr)

end Bus

variable {config : SessionConfig} {bus : Bus σ} {start : σ}

/-- A session that goes on after packets that do not decode, on the frames of some packets. -/
theorem runSession_of_frames {ps : List Packet} {source : Source} {sink : Sink}
    (hstop : config.stopOnDecodeFault = false) (hp : ∀ p ∈ ps, p.Fits config.limit)
    (hframes : Packet.appendFrames ps [] = .ok source.delivered)
    (hsource : source.ending = .closed) (hsink : sink.Reliable) (start : σ) :
    let r := runSession config bus start source sink
    Settled config.limit bus start ps r.state r.trace.toList ∧
      r.outcome = .ok (Stats.tally config.limit (bus.outcomes ps start)) := by
  have hparse : parse config.limit source.delivered = ⟨ps, none, []⟩ := by
    have hdelivered : wires ps = source.delivered :=
      Except.ok.inj ((Deframer.appendFrames_eq hp []).symm.trans hframes)
    rw [← hdelivered]
    exact Deframer.parse_wires hp
  have hserved : config.served bus start source.delivered = ps := by
    simp only [SessionConfig.served, hparse, hstop]
    rfl
  have hfault : config.fault? bus start source.delivered = none := by
    simp only [SessionConfig.fault?, hparse, hstop]
    rfl
  obtain ⟨hsettled, houtcome⟩ := runSession_whole config bus start source hsink
  rw [hserved] at hsettled
  simp only [Pump.outcome, hfault, hserved, hsource] at houtcome
  exact ⟨hsettled, houtcome⟩

/-- Packets that no handler waits for and packets that do not decode make no difference to a session
that goes on after them, but for what its counters tell of them. -/
theorem runSession_thinned (hstop : config.stopOnDecodeFault = false) (start : σ)
    {ps qs removed : List Packet} (hp : ∀ p ∈ ps, p.Fits config.limit)
    (ht : bus.Thins ps qs removed) {source other : Source} {sink otherSink : Sink}
    (hframes : Packet.appendFrames ps [] = .ok source.delivered)
    (hothers : Packet.appendFrames qs [] = .ok other.delivered)
    (hsource : source.ending = .closed) (hother : other.ending = .closed)
    (hsink : sink.Reliable) (hotherSink : otherSink.Reliable) :
    let r := runSession config bus start source sink
    let r' := runSession config bus start other otherSink
    r.state = r'.state ∧ Event.noted r.trace.toList = Event.noted r'.trace.toList ∧
      Event.written r.trace.toList = Event.written r'.trace.toList ∧
      ∃ stats stats', r.outcome = .ok stats ∧ r'.outcome = .ok stats' ∧
        stats.replied = stats'.replied ∧
        stats.received = stats'.received + removed.length ∧
        stats.unhandled = stats'.unhandled + removed.countP bus.unroutable ∧
        stats.failed = stats'.failed + removed.countP bus.undecodable := by
  intro r r'
  obtain ⟨hsettled, houtcome⟩ := runSession_of_frames hstop hp hframes hsource hsink start
  obtain ⟨hsettled', houtcome'⟩ :=
    runSession_of_frames hstop (ht.fits hp) hothers hother hotherSink start
  refine ⟨?_, ?_, ?_, _, _, houtcome, houtcome', ?_⟩
  · exact hsettled.state_eq.trans ((ht.after_eq start).trans hsettled'.state_eq.symm)
  · exact hsettled.noted_eq.trans ((ht.notes_eq start).trans hsettled'.noted_eq.symm)
  · rw [hsettled.written_eq, hsettled'.written_eq, ht.acceptedReplies_eq]
  · rw [ht.tally_eq, Stats.add_def]
    dsimp only [Bus.idleTally]
    omega

/-- One packet that nobody waits for is taken out, another stays; one is cut short. -/
theorem runSession_thinned_cut :
    let config : SessionConfig := { limit := 9, readSize := 0 }
    let bus := ((Registry.new .msgPack).install
      [Catalog.ReplyHandler.double.register 5 6, Catalog.SilentHandler.ping.register 7]).1.build
    let ps : List Packet := [⟨5, [21]⟩, ⟨9, [1]⟩, ⟨5, [0xD2, 0, 7]⟩, ⟨7, []⟩, ⟨9, [1]⟩]
    let qs : List Packet := [⟨5, [21]⟩, ⟨7, []⟩, ⟨9, [1]⟩]
    let source : Source := [.octets [0, 5, 0, 0],
      .octets [0, 1, 21, 0, 9, 0, 0, 0, 1, 1, 0, 5, 0, 0, 0, 3, 0xD2, 0, 7, 0, 7, 0, 0, 0, 0],
      .octets [0, 9, 0, 0, 0, 1, 1]]
    let other : Source :=
      [.octets [0, 5, 0, 0, 0, 1, 21, 0, 7, 0, 0, 0, 0, 0, 9, 0, 0, 0, 1, 1]]
    let sink : Sink := { limit := fun call => some (call + 1) }
    let r := runSession config bus {} source sink
    let r' := runSession config bus {} other {}
    config.stopOnDecodeFault = false ∧ (∀ p ∈ ps, p.Fits config.limit) ∧
      bus.Thins ps qs [⟨9, [1]⟩, ⟨5, [0xD2, 0, 7]⟩] ∧
      Packet.appendFrames ps [] = .ok source.delivered ∧
      Packet.appendFrames qs [] = .ok other.delivered ∧
      source.ending = .closed ∧ other.ending = .closed ∧ sink.Reliable ∧
      r.state = r'.state ∧ Event.written r.trace.toList = Event.written r'.trace.toList ∧
      ∃ stats stats', r.outcome = .ok stats ∧ r'.outcome = .ok stats' ∧
        stats.replied = stats'.replied ∧ stats.received = stats'.received + 2 ∧
        stats.unhandled = stats'.unhandled + 1 ∧ stats.failed = stats'.failed + 1 := by
  intro config bus ps qs source other sink r r'
  have hstop : config.stopOnDecodeFault = false := rfl
  have hp : ∀ p ∈ ps, p.Fits config.limit := by decide
  have hframes : Packet.appendFrames ps [] = .ok source.delivered := rfl
  have hothers : Packet.appendFrames qs [] = .ok other.delivered := rfl
  have hclosed : source.ending = .closed := rfl
  have hclosed' : other.ending = .closed := rfl
  have ht : bus.Thins ps qs [⟨9, [1]⟩, ⟨5, [0xD2, 0, 7]⟩] :=
    .keep _ (.drop (.inl (by decide +kernel)) (.drop (.inr (by decide +kernel))
      (.keep _ (.keep _ .nil))))
  have hsink : sink.Reliable := Sink.reliable_limit (by simp)
  have hother : ({} : Sink).Reliable := Sink.reliable_default
  obtain ⟨hstate, -, hwritten, stats, stats', hr, hr', hreplied, hreceived, hunhandled, hfailed⟩ :=
    runSession_thinned hstop {} hp ht hframes hothers hclosed hclosed' hsink hother
  exact ⟨hstop, hp, ht, hframes, hothers, hclosed, hclosed', hsink, hstate, hwritten,
    stats, stats', hr, hr', hreplied, hreceived, hunhandled, hfailed⟩

end PacketBus
