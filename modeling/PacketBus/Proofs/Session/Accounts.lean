import PacketBus.Catalog.Handlers
import PacketBus.Proofs.Session.Inert
import PacketBus.Proofs.Session.Recorded

/-! # No packet goes unaccounted

The counters of a session, its journal and the outcomes of its dispatches agree. A packet that comes
to nothing has one record and is counted once, and the others have no record. Only a packet that
stops a session is neither recorded nor answered, and its handler has not run.
-/
namespace PacketBus
open PacketBus.Stream
variable {σ : Type}

section
variable {config : SessionConfig} {bus : Bus σ} {start : σ} {ps : List Packet}

/-- What a packet counts as, with the record that is due for it. -/
inductive Reported (config : SessionConfig)
    (s : Packet × Step σ (Except DispatchFault Outcome)) : Prop
  | unhandled (hu : isUnhandled s.2.value = true) (hf : isFailed config.limit s.2.value = false)
      (hr : report? config s = some (.noHandler s.1.id))
  | failed {record : Record} (hu : isUnhandled s.2.value = false)
      (hf : isFailed config.limit s.2.value = true) (hr : report? config s = some record)
      (hrecord : record.isFailure = true)
  | done (hu : isUnhandled s.2.value = false) (hf : isFailed config.limit s.2.value = false)
      (hr : report? config s = none)

theorem reported_of_mem_steps {s : Packet × Step σ (Except DispatchFault Outcome)}
    (hs : s ∈ bus.steps ps start)
    (hstop : bus.stopFault? config.stopOnDecodeFault ps start = none) : Reported config s := by
  have hid : ∀ reply, s.2.value = .ok (.reply reply) → reply.id ≠ Header.reservedId := by
    intro reply hreply
    obtain ⟨before, hstep⟩ := Bus.dispatch_of_mem_steps hs
    rw [hstep] at hreply
    exact Bus.reply_id_ne_reserved hreply
  have hgo : config.stopOnDecodeFault = true → decodeFault? s.2.value = none :=
    fun h => Bus.decodeFault?_of_mem_steps hstop h hs
  obtain ⟨p, value, state, notes⟩ := s
  match value with
  | .ok .noHandler => exact .unhandled rfl rfl rfl
  | .ok .silent => exact .done rfl rfl rfl
  | .ok (.reply reply) =>
    cases hv : reply.validate config.limit with
    | ok u =>
      have hfits := Packet.validate_eq_ok_iff.mp hv
      have hlength : ¬config.limit.toNat < reply.length := by
        have hle := hfits.2
        omega
      exact .done rfl (by simpa [isFailed] using hlength) (by simp [report?, hv])
    | error fault =>
      have hlength : config.limit.toNat < reply.length := by
        by_contra hle
        have hfits : reply.Fits config.limit := ⟨hid reply rfl, by omega⟩
        rw [Packet.validate_eq_ok_iff.mpr hfits] at hv
        simp at hv
      exact .failed rfl (by simpa [isFailed] using hlength) (by simp only [report?, hv]; rfl)
        (Record.isFailure_eq _)
  | .error fault =>
    cases hd : fault.isDecode with
    | false => exact .failed rfl rfl (by simp only [report?, hd]; rfl) (Record.isFailure_eq _)
    | true =>
      have hrun : config.stopOnDecodeFault = false := by
        by_contra hne
        have hnone := hgo (by simpa using hne)
        simp [decodeFault?, hd] at hnone
      exact .failed rfl rfl (by simp only [report?, hd, hrun]; rfl) (Record.isFailure_eq _)

/-- Counters and a journal account for packets and their dispatches. -/
structure Balanced (config : SessionConfig)
    (steps : List (Packet × Step σ (Except DispatchFault Outcome))) (records : List Record)
    (stats : Stats) : Prop where
  received_eq : stats.received = steps.length
  sum_eq : stats.received = stats.replied + stats.unhandled + stats.failed +
    steps.countP fun s => isSilent s.2.value
  replied_eq : stats.replied =
    steps.countP fun s => (acceptedReply? config.limit s.2.value).isSome
  unhandled_eq : stats.unhandled =
    records.countP (Record.titled .warn "No handler registered, dropping packet")
  noHandler_eq : records.filter (Record.titled .warn "No handler registered, dropping packet") =
    (steps.filter fun s => isUnhandled s.2.value).map fun s => .noHandler s.1.id
  failed_eq : stats.failed = records.countP (Record.titled .warn "Dropping undecodable packet") +
    records.countP (Record.titled .error "Dropping reply") +
    records.countP (Record.titled .error "Handler error")
  failed_iff : ∀ s ∈ steps, isFailed config.limit s.2.value = true ↔
    ∃ record, report? config s = some record ∧ record.isFailure = true

/-- A session is stopped by a packet after others. Each of these is recorded or answered, or its
handler has run. The last packet is none of that. -/
structure StoppedBy (config : SessionConfig) (bus : Bus σ) (start : σ) (qs : List Packet)
    (p : Packet) (fault : DispatchFault) (trace : List Event) : Prop where
  stop_eq : config.stopOnDecodeFault = true
  isDecode_eq : fault.isDecode = true
  undecodable_eq : bus.undecodable p = true
  dispatch_eq : bus.dispatch p (bus.after qs start) =
    { value := .error fault, state := bus.after qs start }
  records_eq : Event.records trace = (bus.steps qs start).filterMap (report? config)
  written_eq : Event.written trace = wires (acceptedReplies config.limit (bus.outcomes qs start))
  noted_eq : Event.noted trace = bus.notes qs start
  accounted : ∀ s ∈ bus.steps qs start, (report? config s).isSome = true ∨
    (acceptedReply? config.limit s.2.value).isSome = true ∨ isSilent s.2.value = true

section
variable {steps : List (Packet × Step σ (Except DispatchFault Outcome))}

theorem filter_noHandler_report (h : ∀ s ∈ steps, Reported config s) :
    (steps.filterMap (report? config)).filter
        (Record.titled .warn "No handler registered, dropping packet") =
      (steps.filter fun s => isUnhandled s.2.value).map fun s => .noHandler s.1.id := by
  induction steps with
  | nil => rfl
  | cons s steps ih =>
    have hrest := ih fun t ht => h t (List.mem_cons_of_mem _ ht)
    cases h s List.mem_cons_self with
    | unhandled hu hf hr =>
      rw [List.filterMap_cons_some hr, List.filter_cons, Record.titled_noHandler, hrest]
      simp [hu]
    | failed hu hf hr hrecord =>
      rw [List.filterMap_cons_some hr, List.filter_cons, Record.not_titled_of_isFailure hrecord,
        hrest]
      simp [hu]
    | done hu hf hr =>
      rw [List.filterMap_cons_none hr, hrest]
      simp [hu]

theorem countP_isFailure_report (h : ∀ s ∈ steps, Reported config s) :
    (steps.filterMap (report? config)).countP Record.isFailure =
      steps.countP fun s => isFailed config.limit s.2.value := by
  rw [List.countP_filterMap]
  apply List.countP_congr
  intro s hs
  cases h s hs with
  | unhandled hu hf hr => simp [hf, hr, Record.isFailure_eq]
  | failed hu hf hr hrecord => simp [hf, hr, hrecord]
  | done hu hf hr => simp [hf, hr]

end

/-- The counters of packets none of which stops a session, and the records due for them, balance. -/
theorem balanced_of_steps (hstop : bus.stopFault? config.stopOnDecodeFault ps start = none)
    {ending : List Record} (hending : ∀ record ∈ ending,
      record.titled .warn "No handler registered, dropping packet" = false ∧
        record.isFailure = false) :
    Balanced config (bus.steps ps start)
      ((bus.steps ps start).filterMap (report? config) ++ ending)
      (Stats.tally config.limit (bus.outcomes ps start)) := by
  have hreported : ∀ s ∈ bus.steps ps start, Reported config s :=
    fun s hs => reported_of_mem_steps hs hstop
  have hnone : ending.filter (Record.titled .warn "No handler registered, dropping packet") = [] :=
    List.filter_eq_nil_iff.mpr fun record hr => by simp [(hending record hr).1]
  have hfailures : ending.countP Record.isFailure = 0 :=
    List.countP_eq_zero.mpr fun record hr => by simp [(hending record hr).2]
  have hnoHandler := filter_noHandler_report hreported
  refine ⟨?_, ?_, ?_, ?_, ?_, ?_, ?_⟩
  · exact List.length_map _
  · have hsum := Stats.received_tally config.limit (bus.outcomes ps start)
    rwa [Bus.outcomes, List.countP_map] at hsum
  · change (acceptedReplies config.limit (bus.outcomes ps start)).length = _
    rw [acceptedReplies, List.length_filterMap_eq_countP, Bus.outcomes, List.countP_map]
    rfl
  · rw [List.countP_eq_length_filter, List.filter_append, hnone, List.append_nil, hnoHandler,
      List.length_map, ← List.countP_eq_length_filter]
    exact List.countP_map
  · rw [List.filter_append, hnone, List.append_nil, hnoHandler]
  · rw [← Record.countP_isFailure, List.countP_append, hfailures, Nat.add_zero,
      countP_isFailure_report hreported]
    exact List.countP_map
  · intro s hs
    cases hreported s hs with
    | unhandled hu hf hr => simp [hf, hr, Record.isFailure_eq]
    | failed hu hf hr hrecord => simp [hf, hr, hrecord]
    | done hu hf hr => simp [hf, hr]

/-- What a stream that ends well adds to a journal tells of no packet. -/
theorem records_ending {bs : Octets} {stats : Stats} :
    ∀ record ∈ Event.records (config.cut bs) ++ [.closed stats],
      record.titled .warn "No handler registered, dropping packet" = false ∧
        record.isFailure = false := by
  intro record hr
  rcases List.mem_append.mp hr with hr | hr
  · unfold SessionConfig.cut at hr
    dsimp only at hr
    split at hr
    · simp [Event.records] at hr
    · obtain rfl := List.mem_singleton.mp hr
      exact ⟨Record.titled_noHandler _, Record.isFailure_eq _⟩
  · obtain rfl := List.mem_singleton.mp hr
    exact ⟨Record.titled_noHandler _, Record.isFailure_eq _⟩

/-- Each packet that does not stop a session is recorded or answered, or its handler has run. -/
theorem accounted_of_mem_steps {s : Packet × Step σ (Except DispatchFault Outcome)}
    (hs : s ∈ bus.steps ps start)
    (hstop : bus.stopFault? config.stopOnDecodeFault ps start = none) :
    (report? config s).isSome = true ∨ (acceptedReply? config.limit s.2.value).isSome = true ∨
      isSilent s.2.value = true := by
  cases reported_of_mem_steps hs hstop with
  | unhandled hu hf hr => simp [hr]
  | failed hu hf hr hrecord => simp [hr]
  | done hu hf hr =>
    right
    obtain ⟨p, value, state, notes⟩ := s
    match value with
    | .ok .noHandler | .error _ => simp [isUnhandled, isFailed] at hu hf
    | .ok .silent => exact .inr rfl
    | .ok (.reply reply) =>
      left
      simpa [isFailed, acceptedReply?] using hf

end

section
variable {config : SessionConfig} {bus : Bus σ} {start : σ} {again : Bool} {source : Source}
  {sink : Sink} {received : Octets} {trace : List Event}

theorem records_told (bs : Octets) :
    Event.records (config.told bus start bs) =
      (bus.steps (config.served bus start bs) start).filterMap (report? config) :=
  SessionConfig.records_journal _ _

theorem Event.Finished.balanced {stats : Stats}
    (h : Finished config bus start again source sink received trace (.ok stats)) :
    let steps := bus.steps (config.served bus start received) start
    records trace = steps.filterMap (report? config) ++
        (records (config.cut source.delivered) ++ [.closed stats]) ∧
      written trace = wires (acceptedReplies config.limit
        (bus.outcomes (config.served bus start received) start)) ∧
      Balanced config steps (records trace) stats := by
  intro steps
  cases h with
  | @closed before warning record hend h hcut hshut hrecord =>
    obtain rfl := config.cutWarning_iff.mp hcut
    obtain rfl := Record.closes_iff.mp hrecord
    have hstop : bus.stopFault? config.stopOnDecodeFault
        (config.served bus start source.delivered) start = none := by
      rw [SessionConfig.served_eq_packets h.fault_eq]
      exact SessionConfig.stopFault?_eq_none h.fault_eq
    have hquiet : ∀ e ∈ .read 0 :: (config.cut source.delivered ++
        [shutDown, .log (.closed (config.totals bus start source.delivered))]),
        ∀ bs, e ≠ wrote bs := by
      refine List.forall_mem_cons.mpr ⟨by simp, List.forall_mem_append.mpr ⟨?_, by simp⟩⟩
      exact ne_wrote_of_local SessionConfig.isLocal_cut
    have hrecords : records (before ++ .read 0 :: (config.cut source.delivered ++
        [shutDown, .log (.closed (config.totals bus start source.delivered))])) =
        steps.filterMap (report? config) ++ (records (config.cut source.delivered) ++
          [.closed (config.totals bus start source.delivered)]) := by
      rw [records_append, ← records_history, h.shows.history_eq, records_told,
        ← List.singleton_append, records_append, records_append]
      rfl
    refine ⟨hrecords, ?_, ?_⟩
    · rw [written_append, h.shows.written_eq, written_eq_nil hquiet, List.append_nil]
      rfl
    · rw [hrecords]
      exact balanced_of_steps hstop records_ending

theorem Event.Finished.stoppedBy {fault : DispatchFault}
    (h : Finished config bus start again source sink received trace (.error (.dispatch fault))) :
    ∃ (qs : List Packet) (p : Packet), config.served bus start received = qs ++ [p] ∧
      StoppedBy config bus start qs p fault trace := by
  cases h with
  | @stopped bs chunk before sent _ h hchunk hfault hsent =>
    have hshows := h.shows.batch h.fault_eq hsent
    obtain ⟨hstop, qs, p, hserved, hnone, hlast⟩ :=
      Bus.exists_last_of_stopFault? (SessionConfig.stopFault?_eq_some hfault)
    have hpackets : config.served bus start (bs ++ chunk) = qs ++ [p] := hserved
    obtain ⟨hundecodable, hdispatch⟩ := Bus.dispatch_of_decodeFault hlast
    have hdecode : fault.isDecode = true := by
      by_contra hne
      simp [hdispatch, decodeFault?, hne] at hlast
    have hreport : report? config (p, bus.dispatch p (bus.after qs start)) = none := by
      simp [report?, hdispatch, hdecode, hstop]
    refine ⟨qs, p, hpackets, hstop, hdecode, hundecodable, hdispatch, ?_, ?_, ?_, ?_⟩
    · rw [← records_history, hshows.history_eq, records_told, hpackets, Bus.steps_append,
        List.filterMap_append, Bus.steps, List.filterMap_cons_none hreport]
      exact List.append_nil _
    · rw [hshows.written_eq, SessionConfig.replies, hpackets, Bus.outcomes_append,
        acceptedReplies_append, Bus.outcomes_cons, hdispatch]
      exact congrArg wires (List.append_nil _)
    · rw [← noted_history, hshows.history_eq, SessionConfig.told, hpackets,
        SessionConfig.noted_journal, Bus.notes_append]
      simp [Bus.notes, Bus.steps, hdispatch]
    · exact fun s hs => accounted_of_mem_steps hs hnone

end

/-- The counters, the journal and the outcomes of all packets that a session dispatches agree if it
ends well. If a packet stops it that does not decode, that packet alone is neither recorded nor
answered nor handled. -/
theorem runSession_accounts (config : SessionConfig) (bus : Bus σ) (start : σ) (source : Source)
    (sink : Sink) :
    let r := runSession config bus start source sink
    let ps := sessionPackets config bus start source sink
    let steps := bus.steps ps start
    let records := Event.records r.trace.toList
    match r.outcome with
    | .ok stats =>
      records = steps.filterMap (report? config) ++
          (Event.records (config.cut source.delivered) ++ [.closed stats]) ∧
        Event.written r.trace.toList =
          wires (acceptedReplies config.limit (bus.outcomes ps start)) ∧
        Balanced config steps records stats
    | .error (.dispatch fault) =>
      ∃ (qs : List Packet) (p : Packet), ps = qs ++ [p] ∧
        StoppedBy config bus start qs p fault r.trace.toList
    | .error (.framing _) | .error (.io _) => True := by
  intro r ps steps records
  obtain ⟨received, h⟩ := runSession_concludes config bus start source sink
  have hfinished : Event.Finished config bus start true source sink received r.trace.toList
      r.outcome := h.finished
  cases hr : r.outcome with
  | ok stats =>
    rw [hr] at hfinished
    have hbalanced := hfinished.balanced
    rw [h.served_eq] at hbalanced
    exact hbalanced
  | error fault =>
    cases fault with
    | dispatch fault =>
      rw [hr] at hfinished
      obtain ⟨qs, p, hserved, hstopped⟩ := hfinished.stoppedBy
      exact ⟨qs, p, h.served_eq.symm.trans hserved, hstopped⟩
    | framing fault => trivial
    | io fault => trivial

/-- A packet that nobody waits for, one that is handled, one that is answered, and one that stops
the session before the last. -/
theorem runSession_accounts_stopped :
    let config : SessionConfig := { limit := 9, stopOnDecodeFault := true }
    let bus := ((Registry.new .msgPack).install
      [Catalog.ReplyHandler.double.register 5 6, Catalog.SilentHandler.ping.register 7]).1.build
    let source : Source := [.octets [0, 9, 0, 0, 0, 0, 0, 7, 0, 0, 0, 0, 0, 5, 0, 0, 0, 1, 21,
      0, 5, 0, 0, 0, 1, 0xD2, 0, 7, 0, 0, 0, 0]]
    let r := runSession config bus {} source {}
    let fault : DispatchFault := .decode 5 (.msgPackRead .noData)
    r.outcome = .error (.dispatch fault) ∧
      StoppedBy config bus {} [⟨9, []⟩, ⟨7, []⟩, ⟨5, [21]⟩] ⟨5, [0xD2]⟩ fault r.trace.toList ∧
      Event.records r.trace.toList = [.noHandler 9] := by
  intro config bus source r fault
  have houtcome : r.outcome = .error (.dispatch fault) := by
    dsimp only [r, fault, source, bus, config]
    decide +kernel
  have hpackets : sessionPackets config bus {} source {} =
      [⟨9, []⟩, ⟨7, []⟩, ⟨5, [21]⟩] ++ [⟨5, [0xD2]⟩] := by
    dsimp only [source, bus, config]
    decide +kernel
  have haccounts := runSession_accounts config bus {} source {}
  dsimp only at haccounts
  rw [houtcome] at haccounts
  obtain ⟨qs, p, hps, hstopped⟩ := haccounts
  obtain ⟨rfl, hp⟩ := List.append_inj' (hps.symm.trans hpackets) rfl
  obtain rfl := List.singleton_inj.mp hp
  refine ⟨houtcome, hstopped, ?_⟩
  rw [hstopped.records_eq]
  dsimp only [bus, config]
  decide +kernel

end PacketBus
