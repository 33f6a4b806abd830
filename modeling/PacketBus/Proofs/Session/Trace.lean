import PacketBus.Session.Serve

/-! # What a trace shows

The octets that a session has read and written, the notes of its handlers and the records of its
journal, as far as a trace goes, and whether all that was written has been flushed.
-/
namespace PacketBus

namespace Event

def octets : Event → Octets
  | wrote bs => bs
  | _ => []

def noteText? : Event → Option String
  | note text => some text
  | _ => none

def record? : Event → Option Record
  | log record => some record
  | _ => none

/-- How many octets have come with the event. -/
def arrived : Event → Nat
  | read n => n
  | _ => 0

/-- Whether the event is a read call, be it one that fails. -/
def isRead : Event → Bool
  | read _ | readFailed => true
  | _ => false

/-- Whether the event involves no call to the transport. -/
def isLocal : Event → Bool
  | note _ | log _ => true
  | _ => false

/-- Whether the event is a write call, be it one that fails. -/
def isWrite : Event → Bool
  | wrote _ | writeFailed => true
  | _ => false

/-- Whether the event is a write or a flush. -/
def isSending : Event → Bool
  | wrote _ | writeFailed | flushed | flushFailed => true
  | _ => false

def isShutdown : Event → Bool
  | shutDown | shutDownFailed => true
  | _ => false

/-- Whether the event is a call to the sink. -/
def isSinkCall (e : Event) : Bool := e.isSending || e.isShutdown

def written (trace : List Event) : Octets := trace.flatMap octets

def noted (trace : List Event) : List String := trace.filterMap noteText?

def records (trace : List Event) : List Record := trace.filterMap record?

/-- The notes and records of a trace. -/
def history (trace : List Event) : List Event := trace.filter isLocal

def readCount : (trace : List Event) → Nat
  | [] => 0
  | e :: es => e.arrived + readCount es

/-- How many write calls have been made. -/
def writeCalls (trace : List Event) : Nat := trace.countP isWrite

/-- After each write there is a flush. -/
def Flushed (trace : List Event) : Prop :=
  ∀ before bs later, trace = before ++ wrote bs :: later → flushed ∈ later

variable {es fs : List Event}

@[simp] theorem written_append (es fs : List Event) :
    written (es ++ fs) = written es ++ written fs := List.flatMap_append

@[simp] theorem noted_append (es fs : List Event) :
    noted (es ++ fs) = noted es ++ noted fs := List.filterMap_append

@[simp] theorem records_append (es fs : List Event) :
    records (es ++ fs) = records es ++ records fs := List.filterMap_append

@[simp] theorem history_append (es fs : List Event) :
    history (es ++ fs) = history es ++ history fs := List.filter_append _ _

theorem records_history (es : List Event) : records (history es) = records es := by
  rw [records, history, List.filterMap_filter]
  congr 1
  funext e
  cases e <;> rfl

theorem noted_history (es : List Event) : noted (history es) = noted es := by
  rw [noted, history, List.filterMap_filter]
  congr 1
  funext e
  cases e <;> rfl

@[simp] theorem readCount_append (es fs : List Event) :
    readCount (es ++ fs) = readCount es + readCount fs := by
  induction es with
  | nil => exact (Nat.zero_add _).symm
  | cons e es ih =>
    rw [List.cons_append, readCount, readCount, ih, Nat.add_assoc]

@[simp] theorem writeCalls_append (es fs : List Event) :
    writeCalls (es ++ fs) = writeCalls es + writeCalls fs := List.countP_append

theorem flushed_of_forall (h : ∀ e ∈ es, ∀ bs, e ≠ wrote bs) : Flushed es := by
  rintro before bs later rfl
  exact absurd rfl (h (wrote bs) (by simp) bs)

theorem Flushed.append (he : Flushed es) (hf : Flushed fs) : Flushed (es ++ fs) := by
  intro before bs later h
  rcases List.append_eq_append_iff.mp h with ⟨middle, hb, hl⟩ | ⟨middle, hb, hl⟩
  · exact hf middle bs later hl
  · cases middle with
    | nil =>
      rw [List.nil_append] at hl
      exact hf [] bs later hl.symm
    | cons e middle =>
      obtain ⟨rfl, rfl⟩ := List.cons.inj hl
      exact List.mem_append_left _ (he before bs middle hb)

theorem flushed_concat (es : List Event) : Flushed (es ++ [flushed]) := by
  intro before bs later h
  have hlast := congrArg List.getLast? h
  cases hl : later.getLast? with
  | none =>
    rw [List.getLast?_eq_none_iff.mp hl] at hlast
    simp at hlast
  | some e =>
    have he := List.mem_of_getLast? hl
    simp only [List.getLast?_append, List.getLast?_cons, hl] at hlast
    simp only [Option.some_or, Option.getD_some, Option.some.injEq] at hlast
    rwa [← hlast] at he

theorem readCount_eq_zero (h : ∀ e ∈ es, e.isRead = false) : readCount es = 0 := by
  induction es with
  | nil => rfl
  | cons e es ih =>
    have he := h e List.mem_cons_self
    have hes := ih fun f hf => h f (List.mem_cons_of_mem _ hf)
    cases e with
    | read n => simp [isRead] at he
    | _ => simpa [readCount, arrived] using hes

theorem isRead_of_local (h : ∀ e ∈ es, e.isLocal = true) : ∀ e ∈ es, e.isRead = false := by
  intro e he
  have hl := h e he
  cases e with
  | note text => rfl
  | log record => rfl
  | _ => simp [isLocal] at hl

theorem written_eq_nil (h : ∀ e ∈ es, ∀ bs, e ≠ wrote bs) : written es = [] := by
  rw [written, List.flatMap_eq_nil_iff]
  intro e he
  cases e with
  | wrote bs => exact absurd rfl (h _ he bs)
  | _ => rfl

theorem ne_wrote_of_local (h : ∀ e ∈ es, e.isLocal = true) : ∀ e ∈ es, ∀ bs, e ≠ wrote bs := by
  intro e he bs heq
  have hl := h e he
  simp [heq, isLocal] at hl

theorem history_of_local (h : ∀ e ∈ es, e.isLocal = true) : history es = es :=
  List.filter_eq_self.mpr h

theorem isSinkCall_of_isSending {e : Event} (h : e.isSending = true) : e.isSinkCall = true := by
  simp [isSinkCall, h]

theorem not_isSinkCall_of_local {e : Event} (h : e.isLocal = true) : e.isSinkCall = false := by
  cases e with
  | note text => rfl
  | log record => rfl
  | _ => simp [isLocal] at h

theorem not_isRead_of_isSending {e : Event} (h : e.isSending = true) : e.isRead = false := by
  cases e with
  | read n => simp [isSending] at h
  | readFailed => simp [isSending] at h
  | _ => rfl

theorem history_of_isSending (h : ∀ e ∈ es, e.isSending = true) : history es = [] := by
  refine List.filter_eq_nil_iff.mpr fun e he hlocal => ?_
  have hcall := isSinkCall_of_isSending (h e he)
  simp [not_isSinkCall_of_local hlocal] at hcall

theorem writeCalls_eq_zero (h : ∀ e ∈ es, e.isSinkCall = false) : writeCalls es = 0 := by
  refine List.countP_eq_zero.mpr fun e he hw => ?_
  have hcall := h e he
  cases e with
  | wrote bs => simp [isSinkCall, isSending] at hcall
  | writeFailed => simp [isSinkCall, isSending] at hcall
  | _ => simp [isWrite] at hw

end Event

variable {served : List Served}

theorem Served.isLocal_events : ∀ e ∈ served.flatMap Served.events, e.isLocal = true := by
  intro e he
  obtain ⟨s, -, he⟩ := List.mem_flatMap.mp he
  rcases List.mem_append.mp he with he | he
  · obtain ⟨text, -, rfl⟩ := List.mem_map.mp he
    rfl
  · cases hr : s.record? with
    | none => simp [hr] at he
    | some record =>
      simp only [hr, Option.map_some, Option.toList_some, List.mem_singleton] at he
      rw [he]
      rfl

end PacketBus
