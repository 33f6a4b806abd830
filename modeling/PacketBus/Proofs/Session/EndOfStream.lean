import PacketBus.Proofs.Frame.Frames
import PacketBus.Proofs.Session.Accounts
import PacketBus.Proofs.Session.Shutdown

/-! # The end of a stream

A session that comes to the end of its stream warns of a packet that has begun and is not complete.
It does so if and only if the stream is more than complete frames, wherever it is cut off and
however it comes in reads.
-/
namespace PacketBus
open PacketBus.Stream
variable {σ : Type} {config : SessionConfig} {bus : Bus σ} {start : σ}

/-- The warnings of a stream that is cut off. -/
def Event.cutWarnings (trace : List Event) : List Record :=
  (records trace).filter (Record.titled .warn "Stream closed mid-packet")

theorem Event.cutWarnings_append (es fs : List Event) :
    cutWarnings (es ++ fs) = cutWarnings es ++ cutWarnings fs := by
  rw [cutWarnings, records_append, List.filter_append]
  rfl

/-- No record that is due for a packet is this warning. -/
theorem not_titled_cutStream_of_report {s : Packet × Step σ (Except DispatchFault Outcome)}
    {record : Record} (h : report? config s = some record) :
    record.titled .warn "Stream closed mid-packet" = false := by
  rw [Record.titled_cutStream]
  cases record with
  | cutStream buffered => exact absurd h (report?_ne_cutStream config s buffered)
  | _ => rfl

theorem cutWarnings_told (bs : Octets) : Event.cutWarnings (config.told bus start bs) = [] := by
  rw [Event.cutWarnings, SessionConfig.told, SessionConfig.records_journal, List.filter_eq_nil_iff]
  intro record hrecord
  obtain ⟨s, -, hs⟩ := List.mem_filterMap.mp hrecord
  simp [not_titled_cutStream_of_report hs]

theorem cutWarnings_cut (bs : Octets) :
    Event.cutWarnings (config.cut bs) = Event.records (config.cut bs) := by
  unfold SessionConfig.cut
  dsimp only
  split
  · rfl
  · exact List.filter_eq_self.mpr fun record hr => by
      rw [List.mem_singleton.mp hr, Record.titled_cutStream]

/-- A session that meets the end of its stream warns as its stream deserves, also if its sink is not
shut down. -/
theorem Event.Finished.cutWarnings_eq {again : Bool} {source : Source} {sink : Sink}
    {received : Octets} {trace : List Event} {outcome : Except SessionFault Stats}
    (h : Finished config bus start again source sink received trace outcome)
    (hread : .read 0 ∈ trace) :
    config.fault? bus start source.delivered = none ∧
      cutWarnings trace = records (config.cut source.delivered) := by
  have hwarnings {before : List Event}
      (hwaiting : Waiting config bus start again sink source.delivered before) (es : List Event)
      (hes : cutWarnings es = []) :
      cutWarnings (before ++ .read 0 :: (config.cut source.delivered ++ es)) =
        records (config.cut source.delivered) := by
    have hbefore : cutWarnings before = [] := by
      rw [cutWarnings, ← records_history, hwaiting.shows.history_eq]
      exact cutWarnings_told source.delivered
    rw [← List.singleton_append, cutWarnings_append, hbefore, cutWarnings_append,
      cutWarnings_append, hes, cutWarnings_cut, List.append_nil]
    rfl
  cases h with
  | closed hend h hcut hshut hrecord =>
    obtain rfl := config.cutWarning_iff.mp hcut
    obtain rfl := Record.closes_iff.mp hrecord
    refine ⟨h.fault_eq, hwarnings h _ ?_⟩
    refine List.filter_eq_nil_iff.mpr fun record hr => ?_
    obtain rfl := List.mem_singleton.mp hr
    simp [Record.titled_cutStream]
  | unclosed hend h hcut hshut =>
    obtain rfl := config.cutWarning_iff.mp hcut
    exact ⟨h.fault_eq, hwarnings h _ rfl⟩
  | readFailed hend h =>
    refine absurd hread (read_zero_not_mem ?_)
    exact List.forall_mem_append.mpr ⟨h.not_isClosing, by simp [isClosing]⟩
  | broken h hchunk hne hb =>
    exact absurd hread
      (read_zero_not_mem (not_isClosing_append_batch hchunk h.not_isClosing hb.isSending))
  | stopped h hchunk hfault hsent =>
    exact absurd hread
      (read_zero_not_mem (not_isClosing_append_batch hchunk h.not_isClosing hsent.isSending))

/-- A session that comes to the end of its stream warns once of what stands after the last complete
frame. If that is nothing, it does not warn. -/
theorem runSession_cutStream (config : SessionConfig) (bus : Bus σ) (start : σ) (source : Source)
    (sink : Sink) :
    let r := runSession config bus start source sink
    .read 0 ∈ r.trace.toList →
      ∃ tail, Trails source.delivered tail ∧
        (∀ other, Trails source.delivered other → other = tail) ∧
        (IsWhole source.delivered → Event.cutWarnings r.trace.toList = []) ∧
        (¬IsWhole source.delivered → ∃ record, Event.cutWarnings r.trace.toList = [record] ∧
          record.Warns (if tail.length < Header.size then tail.length
            else tail.length - Header.size)) := by
  intro r hread
  obtain ⟨received, h⟩ := runSession_concludes config bus start source sink
  obtain ⟨hfault, hwarnings⟩ := h.finished.cutWarnings_eq hread
  have htrails : Trails source.delivered (parse config.limit source.delivered).rest :=
    trails_rest (SessionConfig.framingFault_eq_none hfault)
  rw [SessionConfig.cut] at hwarnings
  refine ⟨_, htrails, fun other hother => hother.unique htrails, ?_, ?_⟩
  · intro hwhole
    rw [if_pos (htrails.unique (trails_nil_iff.mpr hwhole))] at hwarnings
    exact hwarnings
  · intro hcut
    have hne : (parse config.limit source.delivered).rest ≠ [] := by
      intro hnil
      rw [hnil] at htrails
      exact hcut (trails_nil_iff.mp htrails)
    rw [if_neg hne] at hwarnings
    exact ⟨_, hwarnings, Record.warns_iff.mpr rfl⟩

/-- A stream that is cut off right after a header, in reads that cut it elsewhere. The frame before
it has no payload and is complete. -/
theorem runSession_cutStream_header :
    let config : SessionConfig := { readSize := 5 }
    let bus := ((Registry.new .msgPack).install [Catalog.ReplyHandler.double.register 5 6]).1.build
    let source : Source := [.octets [0, 7, 0, 0, 0, 0, 0, 5], .octets [0, 0, 0, 1]]
    let sink : Sink := { shutdown := .always ⟨.brokenPipe, "gone"⟩ }
    let r := runSession config bus {} source sink
    .read 0 ∈ r.trace.toList ∧ r.outcome = .error (.io ⟨.brokenPipe, "gone"⟩) ∧
      Trails source.delivered [0, 5, 0, 0, 0, 1] ∧
      ∃ record, Event.cutWarnings r.trace.toList = [record] ∧ record.Warns 0 := by
  intro config bus source sink r
  have hread : .read 0 ∈ r.trace.toList := by
    dsimp only [r, sink, source, bus, config]
    decide +kernel
  have houtcome : r.outcome = .error (.io ⟨.brokenPipe, "gone"⟩) := by
    dsimp only [r, sink, source, bus, config]
    decide +kernel
  have htrails : Trails source.delivered [0, 5, 0, 0, 0, 1] := by
    have hfault : (parse config.limit source.delivered).fault = none := by
      dsimp only [source, config]
      decide +kernel
    have hrest : (parse config.limit source.delivered).rest = [0, 5, 0, 0, 0, 1] := by
      dsimp only [source, config]
      decide +kernel
    rw [← hrest]
    exact trails_rest hfault
  obtain ⟨tail, -, hunique, -, hcut⟩ := runSession_cutStream config bus {} source sink hread
  obtain rfl := hunique _ htrails
  have hpartial : ¬IsWhole source.delivered := by
    intro hwhole
    simpa using htrails.unique (trails_nil_iff.mpr hwhole)
  exact ⟨hread, houtcome, htrails, hcut hpartial⟩

end PacketBus
