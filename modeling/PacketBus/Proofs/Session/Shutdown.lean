import PacketBus.Catalog.Handlers
import PacketBus.Proofs.Session.Protocol

/-! # When a sink is shut down

A session makes a read call that yields nothing once its peer has closed its side, and not before.
It then shuts down its sink, once, and it never does so at another end.
-/
namespace PacketBus
open PacketBus.Stream
variable {σ : Type} {config : SessionConfig} {bus : Bus σ} {start : σ}

namespace Event
variable {again : Bool} {source : Source} {sink : Sink} {bs chunk : Octets}
  {trace es warning more : List Event} {outcome : Except SessionFault Stats}

/-- Whether the event comes only at an end by the peer. -/
def isClosing : Event → Bool
  | read 0 | shutDown | shutDownFailed => true
  | _ => false

theorem not_isClosing_of_isSending {e : Event} (h : e.isSending = true) : e.isClosing = false := by
  cases e with
  | wrote bs => rfl
  | writeFailed => rfl
  | flushed => rfl
  | flushFailed => rfl
  | _ => simp [isSending] at h

theorem not_isClosing_of_local {e : Event} (h : e.isLocal = true) : e.isClosing = false := by
  cases e with
  | note text => rfl
  | log record => rfl
  | _ => simp [isLocal] at h

theorem not_isClosing_append_batch (hchunk : config.Yields chunk)
    (htrace : ∀ e ∈ trace, e.isClosing = false) (hes : ∀ e ∈ es, e.isSending = true) :
    ∀ e ∈ trace ++ config.batch bus start bs chunk ++ es, e.isClosing = false := by
  have hread : (Event.read chunk.length).isClosing = false := by
    obtain ⟨n, hn⟩ := Nat.exists_eq_add_of_le' hchunk.1
    rw [hn]
    rfl
  have hbatch : ∀ e ∈ config.batch bus start bs chunk, e.isClosing = false :=
    List.forall_mem_cons.mpr
      ⟨hread, fun e he => not_isClosing_of_local (SessionConfig.isLocal_journal e he)⟩
  refine List.forall_mem_append.mpr ⟨List.forall_mem_append.mpr ⟨htrace, hbatch⟩, ?_⟩
  exact fun e he => not_isClosing_of_isSending (hes e he)

theorem Waiting.not_isClosing (h : Waiting config bus start again sink bs trace) :
    ∀ e ∈ trace, e.isClosing = false := by
  induction h with
  | first => simp
  | batch h hchunk hnone hsent ih => exact not_isClosing_append_batch hchunk ih hsent.isSending

theorem Waiting.harmless (h : Waiting config bus start again sink bs trace) :
    Harmless again sink 0 trace := by
  induction h with
  | first => trivial
  | @batch bs chunk trace sent h hchunk hnone hsent ih =>
    have hquiet : ∀ e ∈ config.batch bus start bs chunk, e.isSinkCall = false :=
      SessionConfig.not_isSinkCall_batch
    refine harmless_append.mpr ⟨harmless_append.mpr ⟨ih, harmless_of_forall hquiet⟩, ?_⟩
    rw [writeCalls_append, writeCalls_eq_zero hquiet, Nat.add_zero, Nat.zero_add]
    exact hsent.harmless

theorem isLocal_of_cutWarning (h : config.CutWarning bs warning) :
    ∀ e ∈ warning, e.isLocal = true := by
  rw [config.cutWarning_iff] at h
  subst h
  exact SessionConfig.isLocal_cut

theorem countP_isShutdown_eq_zero (h : ∀ e ∈ es, e.isClosing = false) :
    es.countP isShutdown = 0 := by
  rw [List.countP_eq_zero]
  intro e he hshut
  have hclosing := h e he
  cases e with
  | shutDown => simp [isClosing] at hclosing
  | shutDownFailed => simp [isClosing] at hclosing
  | _ => simp [isShutdown] at hshut

theorem read_zero_not_mem (h : ∀ e ∈ es, e.isClosing = false) : .read 0 ∉ es := by
  intro hmem
  simpa [isClosing] using h _ hmem

theorem Waiting.countP_isShutdown_close (h : Waiting config bus start again sink bs trace)
    (hcut : config.CutWarning bs warning) (hmore : more.countP isShutdown = 1) :
    (trace ++ .read 0 :: (warning ++ more)).countP isShutdown = 1 := by
  have hlocal : ∀ e ∈ warning, e.isClosing = false := fun e he =>
    not_isClosing_of_local (isLocal_of_cutWarning hcut e he)
  rw [List.countP_append, countP_isShutdown_eq_zero h.not_isClosing, List.countP_cons,
    List.countP_append, countP_isShutdown_eq_zero hlocal, hmore]
  rfl

/-- The sink is shut down once if the peer has closed its side, and not at all otherwise. -/
theorem Finished.countP_isShutdown
    (h : Finished config bus start again source sink bs trace outcome) :
    trace.countP isShutdown = if .read 0 ∈ trace then 1 else 0 := by
  have hopen {es : List Event} (hes : ∀ e ∈ es, e.isClosing = false) :
      es.countP isShutdown = if .read 0 ∈ es then 1 else 0 := by
    rw [countP_isShutdown_eq_zero hes, if_neg (read_zero_not_mem hes)]
  cases h with
  | closed hend h hcut => rw [h.countP_isShutdown_close hcut rfl, if_pos (by simp)]
  | unclosed hend h hcut => rw [h.countP_isShutdown_close hcut rfl, if_pos (by simp)]
  | readFailed hend h =>
    exact hopen (List.forall_mem_append.mpr ⟨h.not_isClosing, by simp [isClosing]⟩)
  | broken h hchunk hne hb =>
    exact hopen (not_isClosing_append_batch hchunk h.not_isClosing hb.isSending)
  | stopped h hchunk hfault hsent =>
    exact hopen (not_isClosing_append_batch hchunk h.not_isClosing hsent.isSending)

/-- A session that returns its counters has met no fault of its sink. -/
theorem Finished.harmless_of_ok {stats : Stats}
    (h : Finished config bus start again source sink bs trace (.ok stats)) :
    Harmless again sink 0 trace := by
  cases h with
  | @closed before warning record hend h hcut hshut hrecord =>
    have hquiet : ∀ e ∈ .read 0 :: warning, e.isSinkCall = false :=
      List.forall_mem_cons.mpr
        ⟨rfl, fun e he => not_isSinkCall_of_local (isLocal_of_cutWarning hcut e he)⟩
    rw [← List.cons_append]
    exact harmless_append.mpr
      ⟨h.harmless, harmless_append.mpr ⟨harmless_of_forall hquiet, harmless_shutDown⟩⟩

/-- A write call that fails does no harm only if such calls are made again. -/
theorem Harmless.writeFailed_not_mem (h : Harmless false sink 0 es) : writeFailed ∉ es := by
  intro hmem
  obtain ⟨before, later, rfl⟩ := List.append_of_mem hmem
  exact h.of_append_cons.1 (by simp [Sink.Strikes])

end Event

/-- Each session keeps to the protocol, where an interrupted write call is made again. -/
theorem runSession_finished (config : SessionConfig) (bus : Bus σ) (start : σ) (source : Source)
    (sink : Sink) :
    let r := runSession config bus start source sink
    (∃ received, received <+: source.delivered ∧
      Event.Finished config bus start true source sink received r.trace.toList r.outcome) ∧
      r.trace.toList.countP Event.isShutdown = if .read 0 ∈ r.trace.toList then 1 else 0 := by
  intro r
  obtain ⟨received, h⟩ := runSession_concludes config bus start source sink
  exact ⟨⟨received, h.prefix_delivered, h.finished⟩, h.finished.countP_isShutdown⟩

/-- A write call that fails is not always the last event. -/
theorem not_finished_interrupted :
    let bus := ((Registry.new .msgPack).install [Catalog.ReplyHandler.double.register 5 6]).1.build
    let source : Source := [.octets [0, 5, 0, 0, 0, 1, 21]]
    let sink : Sink :=
      { limit := (some 2 : Option Nat), write := .once 2 ⟨.interrupted, "again"⟩ }
    let r := runSession {} bus {} source sink
    ¬∃ received, received <+: source.delivered ∧
      Event.Finished {} bus {} false source sink received r.trace.toList r.outcome := by
  intro bus source sink r
  rintro ⟨received, -, hfinished⟩
  have houtcome : r.outcome = .ok { received := 1, replied := 1 } := by
    dsimp only [r, sink, source, bus]
    decide +kernel
  have hfailed : .writeFailed ∈ r.trace.toList := by
    dsimp only [r, sink, source, bus]
    decide +kernel
  rw [houtcome] at hfinished
  exact hfinished.harmless_of_ok.writeFailed_not_mem hfailed

end PacketBus
