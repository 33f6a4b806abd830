import Mathlib.Data.List.Basic
import PacketBus.Proofs.Frame.Deframer
import PacketBus.Proofs.Session.Pump
import PacketBus.Proofs.Session.Serve

/-! # What a session serves

The octets received so far tell which packets a session has served, the notes and records that this
has left, the replies that are due, and whether the session goes on. Serving what a read completes
keeps it so.
-/
namespace PacketBus
open PacketBus.Stream
variable {σ : Type}

variable (config : SessionConfig) (bus : Bus σ) (start : σ)

namespace SessionConfig

/-- The packets that a session serves of those complete in a stream. -/
def served (bs : Octets) : List Packet :=
  bus.admitted config.stopOnDecodeFault (parse config.limit bs).packets start

/-- What a session writes for the packets that it serves of a stream. -/
def replies (bs : Octets) : Octets :=
  wires (acceptedReplies config.limit (bus.outcomes (config.served bus start bs) start))

/-- The notes and records that serving packets leaves: for each packet what its handler notes, and
the record that is due. -/
def journal (ps : List Packet) (state : σ) : List Event :=
  (bus.steps ps state).flatMap fun s =>
    s.2.notes.map .note ++ ((report? config s).map .log).toList

/-- What serving the packets of a stream leaves. -/
def told (bs : Octets) : List Event :=
  config.journal bus (config.served bus start bs) start

/-- The warning of a stream that ends within a packet: with the octets of the packet that it has,
without those of a header that is complete. -/
def cut (bs : Octets) : List Event :=
  let rest := (parse config.limit bs).rest
  if rest = [] then []
  else [.log (.cutStream
    (if rest.length < Header.size then rest.length else rest.length - Header.size))]

/-- The packets served that a chunk completes. -/
def completed (bs chunk : Octets) : List Packet :=
  (config.served bus start (bs ++ chunk)).drop (config.served bus start bs).length

/-- What a read and the packets that it completes leave in a trace. -/
def batch (bs chunk : Octets) : List Event :=
  .read chunk.length :: config.journal bus (config.completed bus start bs chunk)
    (bus.after (config.served bus start bs) start)

/-- The replies to the packets that a chunk completes. -/
def queued (bs chunk : Octets) : List Packet :=
  acceptedReplies config.limit (bus.outcomes (config.completed bus start bs chunk)
    (bus.after (config.served bus start bs) start))

def totals (bs : Octets) : Stats :=
  Stats.tally config.limit (bus.outcomes (config.served bus start bs) start)

/-- The fault of a stream that ends a session, be it of a packet or of a header. -/
def fault? (bs : Octets) : Option SessionFault :=
  let whole := parse config.limit bs
  ((bus.stopFault? config.stopOnDecodeFault whole.packets start).map .dispatch).or
    (whole.fault.map .framing)

theorem served_nil : config.served bus start [] = [] := by
  simp only [served, parse_nil]
  cases config.stopOnDecodeFault <;> rfl

theorem fault?_nil : config.fault? bus start [] = none := by
  simp only [fault?, parse_nil]
  cases config.stopOnDecodeFault <;> rfl

variable {config bus start} {bs : Octets}

theorem stopFault?_eq_none (hf : config.fault? bus start bs = none) :
    bus.stopFault? config.stopOnDecodeFault (parse config.limit bs).packets start = none := by
  simp only [fault?, Option.or_eq_none_iff, Option.map_eq_none_iff] at hf
  exact hf.1

theorem stopFault?_eq_some {fault : DispatchFault}
    (hf : config.fault? bus start bs = some (.dispatch fault)) :
    bus.stopFault? config.stopOnDecodeFault (parse config.limit bs).packets start = some fault := by
  simpa [fault?, Option.or_eq_some_iff] using hf

theorem framingFault_eq_none (hf : config.fault? bus start bs = none) :
    (parse config.limit bs).fault = none := by
  simp only [fault?, Option.or_eq_none_iff, Option.map_eq_none_iff] at hf
  exact hf.2

theorem fault?_ne_io (fault : IoFault) : config.fault? bus start bs ≠ some (.io fault) := by
  intro hf
  simp [fault?, Option.or_eq_some_iff] at hf

theorem served_eq_packets (hf : config.fault? bus start bs = none) :
    config.served bus start bs = (parse config.limit bs).packets :=
  Bus.admitted_eq_self (stopFault?_eq_none hf)

/-- A session without a fault serves on what more octets complete. -/
theorem served_append (hf : config.fault? bus start bs = none) (more : Octets) :
    config.served bus start (bs ++ more) = config.served bus start bs ++
      config.served bus (bus.after (config.served bus start bs) start)
        ((parse config.limit bs).rest ++ more) := by
  rw [served_eq_packets hf, served, parse_append]
  exact Bus.admitted_append (stopFault?_eq_none hf) _

theorem completed_eq (hf : config.fault? bus start bs = none) (chunk : Octets) :
    config.completed bus start bs chunk =
      config.served bus (bus.after (config.served bus start bs) start)
        ((parse config.limit bs).rest ++ chunk) := by
  rw [completed, served_append hf, List.drop_left]

theorem served_append_completed (hf : config.fault? bus start bs = none) (chunk : Octets) :
    config.served bus start (bs ++ chunk) =
      config.served bus start bs ++ config.completed bus start bs chunk := by
  rw [completed_eq hf, served_append hf]

theorem fault?_append (hf : config.fault? bus start bs = none) (more : Octets) :
    config.fault? bus start (bs ++ more) =
      config.fault? bus (bus.after (config.served bus start bs) start)
        ((parse config.limit bs).rest ++ more) := by
  rw [served_eq_packets hf]
  simp only [fault?, parse_append config.limit bs more, Parse.prepend_packets, Parse.prepend_fault]
  rw [Bus.stopFault?_append (stopFault?_eq_none hf)]

/-- What has ended a session is not changed by what more would have come. -/
theorem append_of_fault {fault : SessionFault} (hf : config.fault? bus start bs = some fault)
    (more : Octets) : config.served bus start (bs ++ more) = config.served bus start bs ∧
      config.fault? bus start (bs ++ more) = some fault := by
  cases hs : bus.stopFault? config.stopOnDecodeFault (parse config.limit bs).packets start with
  | some stop =>
    simp only [fault?, hs, Option.map_some, Option.some_or] at hf
    obtain ⟨ps, hps⟩ := packets_prefix_append config.limit bs more
    simp only [served, fault?, ← hps, Bus.admitted_append_of_some hs,
      Bus.stopFault?_append_of_some hs, Option.map_some, Option.some_or]
    exact ⟨trivial, hf⟩
  | none =>
    simp only [fault?, hs, Option.map_none, Option.none_or, Option.map_eq_some_iff] at hf
    obtain ⟨refusal, hrefusal, rfl⟩ := hf
    obtain ⟨hpackets, hfault⟩ := parse_append_of_fault hrefusal more
    simp only [served, fault?, hpackets, hfault, hs]
    exact ⟨trivial, rfl⟩

theorem journal_append (ps qs : List Packet) (state : σ) :
    config.journal bus (ps ++ qs) state =
      config.journal bus ps state ++ config.journal bus qs (bus.after ps state) := by
  rw [journal, Bus.steps_append, List.flatMap_append]
  rfl

theorem isLocal_journal {ps : List Packet} {state : σ} :
    ∀ e ∈ config.journal bus ps state, e.isLocal = true := by
  intro e he
  obtain ⟨s, -, he⟩ := List.mem_flatMap.mp he
  rcases List.mem_append.mp he with he | he
  · obtain ⟨text, -, rfl⟩ := List.mem_map.mp he
    rfl
  · obtain ⟨record, -, rfl⟩ := Option.map_eq_some_iff.mp (Option.mem_toList.mp he)
    rfl

theorem isLocal_cut : ∀ e ∈ config.cut bs, e.isLocal = true := by
  intro e he
  unfold cut at he
  dsimp only at he
  split at he
  · simp at he
  · rw [List.mem_singleton.mp he]
    rfl

/-- What a journal shows of its notes and of its records. -/
theorem filterMap_journal {α : Type} (f : Event → Option α) (ps : List Packet) (state : σ) :
    (config.journal bus ps state).filterMap f =
      (bus.steps ps state).flatMap fun s =>
        s.2.notes.filterMap (f ∘ .note) ++ ((report? config s).bind (f ∘ .log)).toList := by
  rw [journal, List.filterMap_flatMap]
  congr 1
  funext s
  rw [List.filterMap_append, List.filterMap_map]
  congr 1
  cases report? config s with
  | none => rfl
  | some record => cases hf : f (.log record) <;> simp [hf]

theorem noted_journal (ps : List Packet) (state : σ) :
    Event.noted (config.journal bus ps state) = bus.notes ps state := by
  have hnotes : Event.noteText? ∘ Event.note = some := rfl
  have hrecord (record? : Option Record) : record?.bind (Event.noteText? ∘ Event.log) = none := by
    cases record? <;> rfl
  simp only [Event.noted, filterMap_journal, hnotes, hrecord, List.filterMap_some,
    Option.toList_none, List.append_nil]
  rfl

theorem records_journal (ps : List Packet) (state : σ) :
    Event.records (config.journal bus ps state) =
      (bus.steps ps state).filterMap (report? config) := by
  have hnotes (notes : List String) : notes.filterMap (Event.record? ∘ Event.note) = [] := by
    simp [Function.comp_def, Event.record?]
  have hrecord : Event.record? ∘ Event.log = some := rfl
  rw [Event.records, filterMap_journal, List.filterMap_eq_flatMap_toList]
  simp only [hnotes, hrecord, Option.bind_fun_some, List.nil_append]

/-! ## What a chunk adds -/

theorem told_append (hf : config.fault? bus start bs = none) (chunk : Octets) :
    config.told bus start (bs ++ chunk) =
      config.told bus start bs ++ Event.history (config.batch bus start bs chunk) := by
  have hread : Event.history (config.batch bus start bs chunk) =
      config.journal bus (config.completed bus start bs chunk)
        (bus.after (config.served bus start bs) start) :=
    Event.history_of_local isLocal_journal
  rw [told, served_append_completed hf, journal_append, hread]
  rfl

theorem replies_append (hf : config.fault? bus start bs = none) (chunk : Octets) :
    config.replies bus start (bs ++ chunk) =
      config.replies bus start bs ++ wires (config.queued bus start bs chunk) := by
  rw [replies, served_append_completed hf, Bus.outcomes_append, acceptedReplies_append,
    wires_append]
  rfl

theorem written_batch {chunk : Octets} :
    Event.written (config.batch bus start bs chunk) = [] := by
  change Event.written (config.journal bus _ _) = []
  exact Event.written_eq_nil (Event.ne_wrote_of_local isLocal_journal)

theorem flushed_batch {chunk : Octets} :
    Event.Flushed (config.batch bus start bs chunk) := by
  have hread : Event.Flushed [.read chunk.length] := Event.flushed_of_forall (by simp)
  exact hread.append (Event.flushed_of_forall (Event.ne_wrote_of_local isLocal_journal))

theorem readCount_batch {chunk : Octets} :
    Event.readCount (config.batch bus start bs chunk) = chunk.length := by
  have hlocal : ∀ e ∈ config.journal bus (config.completed bus start bs chunk)
      (bus.after (config.served bus start bs) start), e.isLocal = true := isLocal_journal
  have hzero := Event.readCount_eq_zero (Event.isRead_of_local hlocal)
  rw [batch, Event.readCount, hzero]
  rfl

theorem not_isSinkCall_batch {chunk : Octets} :
    ∀ e ∈ config.batch bus start bs chunk, e.isSinkCall = false := by
  refine List.forall_mem_cons.mpr ⟨rfl, fun e he => ?_⟩
  exact Event.not_isSinkCall_of_local (isLocal_journal e he)

end SessionConfig

namespace Pump

/-- What a pump has come to with the octets received so far, apart from its trace. -/
structure Stands (bs : Octets) (p : Pump σ) : Prop where
  deframer_eq : p.deframer = Deframer.left config.limit (parse config.limit bs)
  state_eq : p.state = bus.after (config.served bus start bs) start
  stats_eq : p.stats = config.totals bus start bs

variable {config bus start} {bs : Octets} {p q : Pump σ}

theorem Stands.holds (h : Stands config bus start bs p) :
    Deframer.Holds config.limit (parse config.limit bs).rest p.deframer :=
  h.deframer_eq ▸ Deframer.holds_left_parse config.limit bs

theorem Stands.adds {es : List Event} (h : Stands config bus start bs p) (ha : Adds es p q) :
    Stands config bus start bs q :=
  ⟨ha.deframer_eq.trans h.deframer_eq, ha.state_eq.trans h.state_eq, ha.stats_eq.trans h.stats_eq⟩

variable (config bus start) in
theorem stands_new :
    Stands config bus start [] { deframer := .new config.limit, state := start } := by
  have hserved := SessionConfig.served_nil config bus start
  refine ⟨?_, ?_, ?_⟩
  · rw [parse_nil]
    rfl
  · rw [hserved]
    rfl
  · rw [SessionConfig.totals, hserved]
    rfl

/-- A session that closes warns of what its stream has begun. -/
theorem Stands.cutWarning_eq (h : Stands config bus start bs p)
    (hf : config.fault? bus start bs = none) : p.cutWarning = config.cut bs := by
  have hlength : p.deframer.length = _ :=
    h.deframer_eq ▸ Deframer.length_left (SessionConfig.framingFault_eq_none hf)
  unfold cutWarning SessionConfig.cut
  cases hp : p.deframer.hasPartial with
  | false => simp [h.holds.hasPartial_eq_false_iff.mp hp]
  | true =>
    have hne : (parse config.limit bs).rest ≠ [] := by
      intro hnil
      simp [h.holds.hasPartial_eq_false_iff.mpr hnil] at hp
    simp only [hne, if_true, if_false, hlength]

theorem flatMap_events_steps (ps : List Packet) (state : σ) :
    ((bus.steps ps state).map (Served.ofStep config)).flatMap Served.events =
      config.journal bus ps state := by
  rw [List.flatMap_map, SessionConfig.journal]
  simp only [Served.events, record?_ofStep]
  rfl

variable (bus) in
/-- What serving a chunk comes to, told from the octets that the deframer holds. -/
theorem receive_eq (hd : Deframer.Holds config.limit bs p.deframer) (chunk : Octets) :
    let served := config.served bus p.state (bs ++ chunk)
    let q : Pump σ := { p with
      deframer := .left config.limit (parse config.limit (bs ++ chunk))
      state := bus.after served p.state
      stats := p.stats + Stats.tally config.limit (bus.outcomes served p.state) }
    p.receive config bus chunk =
      (q.emit (.read chunk.length :: config.journal bus served p.state),
        config.replies bus p.state (bs ++ chunk), config.fault? bus p.state (bs ++ chunk)) := by
  intro served q
  have hcount : ((bus.steps served p.state).map (Served.ofStep config)).foldl Served.count p.stats =
      p.stats + Stats.tally config.limit (bus.outcomes served p.state) :=
    foldl_count_steps p.stats served p.state
  simp only [receive, (hd.extend chunk).drain_eq, serveAll_eq, flatMap_frame_steps,
    flatMap_events_steps]
  simp only [q, ← hcount]
  rfl

/-- What serving a chunk comes to, told from all octets received. -/
theorem Stands.receive (h : Stands config bus start bs p) (hf : config.fault? bus start bs = none)
    (chunk : Octets) :
    ∃ q, p.receive config bus chunk = (q, wires (config.queued bus start bs chunk),
        config.fault? bus start (bs ++ chunk)) ∧
      Stands config bus start (bs ++ chunk) q ∧ q.calls = p.calls ∧
      q.trace.toList = p.trace.toList ++ config.batch bus start bs chunk := by
  have hreceive := receive_eq bus h.holds chunk
  have hqueued : config.replies bus (bus.after (config.served bus start bs) start)
      ((parse config.limit bs).rest ++ chunk) = wires (config.queued bus start bs chunk) := by
    rw [SessionConfig.replies, SessionConfig.queued, SessionConfig.completed_eq hf]
  -- a pump knows only what its deframer holds, and that is what is left of all octets received
  simp only [h.state_eq, hqueued, ← SessionConfig.fault?_append hf,
    ← SessionConfig.completed_eq hf] at hreceive
  refine ⟨_, hreceive, ⟨?_, ?_, ?_⟩, rfl, emit_trace _ _⟩
  · rw [parse_append config.limit bs chunk]
    rfl
  · rw [SessionConfig.served_append_completed hf, Bus.after_append]
    rfl
  · rw [SessionConfig.totals, SessionConfig.served_append_completed hf, Bus.outcomes_append,
      Stats.tally_append, ← SessionConfig.totals, ← h.stats_eq]
    rfl

/-- The packets that are dispatched of those that a chunk completes. -/
def handed (config : SessionConfig) (bus : Bus σ) (chunk : Octets) (p : Pump σ) : List Packet :=
  let packets := (p.deframer.extend chunk).drain.1
  packets.take (serveAll config bus packets p.state).1.length

/-- The packets dispatched in a round are those served that its chunk completes. -/
theorem Stands.handed_eq (h : Stands config bus start bs p)
    (hf : config.fault? bus start bs = none) (chunk : Octets) :
    p.handed config bus chunk = config.completed bus start bs chunk := by
  have hdrain := (h.holds.extend chunk).drain_eq
  rw [SessionConfig.completed_eq hf, ← h.state_eq, handed]
  simp only [hdrain, serveAll_eq, List.length_map, Bus.length_steps]
  refine (List.prefix_iff_eq_take.mp ?_).symm
  exact Bus.admitted_prefix _ _ _

end Pump
end PacketBus
