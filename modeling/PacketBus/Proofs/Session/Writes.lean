import PacketBus.Proofs.Session.Pump
import PacketBus.Proofs.Session.Transport

/-! # Writing to any sink

Write calls take what is to be sent piece by piece, and a flush follows the last of them. A write
call that is interrupted is made again, as often as that happens. Any other fault breaks this off at
the call that meets it.
-/
namespace PacketBus

namespace Sink

/-- The fault that is met with an event after a number of write calls. -/
def fault? (sink : Sink) (calls : Nat) : Event → Option IoFault
  | .writeFailed => sink.write.at? (calls + 1)
  | .wrote [] => some .writeZero
  | .flushFailed => sink.flush.at? calls
  | _ => none

/-- Whether an event after a number of write calls tells of a fault in writing or flushing. A write
call that fails does, unless interrupted calls are made again and it is one. -/
def Strikes (sink : Sink) (again : Bool) (calls : Nat) : Event → Prop
  | .writeFailed => ¬(again = true ∧ sink.write.Repeats (calls + 1))
  | .wrote [] | .flushFailed => True
  | _ => False

end Sink

namespace Event
section
variable (again : Bool) (sink : Sink)

/-- Write calls that are interrupted before one that is not. The numbers are those of the write
calls made before and after. -/
inductive Tries : Nat → List Event → Nat → Prop
  | nothing {n : Nat} : Tries n [] n
  | interrupted {n m : Nat} {es : List Event} (hagain : again = true)
      (hcall : sink.write.Repeats (n + 1)) (h : Tries (n + 1) es m) : Tries n (writeFailed :: es) m

/-- Write calls that take octets, some of them each. -/
inductive Takes : Nat → List Event → Octets → Nat → Prop
  | nothing {n : Nat} : Takes n [] [] n
  | call {n m k : Nat} {tries es : List Event} {bs out : Octets}
      (htries : Tries again sink n tries m) (hcall : sink.write.at? (m + 1) = none)
      (hbs : bs ≠ []) (h : Takes (m + 1) es out k) :
      Takes n (tries ++ wrote bs :: es) (bs ++ out) k

/-- All octets are written and flushed once, and nothing is done for none. -/
inductive Sends (n : Nat) : Octets → List Event → Prop
  | nothing : Sends n [] []
  | all {m : Nat} {es : List Event} {out : Octets} (hne : out ≠ [])
      (h : Takes again sink n es out m) (hflush : sink.flush.at? m = none) :
      Sends n out (es ++ [flushed])

/-- How a fault breaks off the writing of octets: by a write call that fails or takes nothing, or by
the flush that follows. -/
inductive Breaks (n : Nat) : Octets → List Event → IoFault → Prop
  | write {m k : Nat} {es tries : List Event} {taken rest : Octets} {fault : IoFault}
      (h : Takes again sink n es taken m) (hrest : rest ≠ []) (htries : Tries again sink m tries k)
      (hfault : sink.write.at? (k + 1) = some fault)
      (hfinal : ¬(again = true ∧ sink.write.Repeats (k + 1))) :
      Breaks n (taken ++ rest) (es ++ tries ++ [writeFailed]) fault
  | nothing {m k : Nat} {es tries : List Event} {taken rest : Octets}
      (h : Takes again sink n es taken m) (hrest : rest ≠ []) (htries : Tries again sink m tries k)
      (hcall : sink.write.at? (k + 1) = none) (hlimit : sink.limit (k + 1) = some 0) :
      Breaks n (taken ++ rest) (es ++ tries ++ [wrote []]) .writeZero
  | flush {m : Nat} {es : List Event} {out : Octets} {fault : IoFault}
      (h : Takes again sink n es out m) (hfault : sink.flush.at? m = some fault) :
      Breaks n out (es ++ [flushFailed]) fault

/-- No event tells of a fault of the sink, the first of them after a number of write calls. -/
def Harmless : Nat → List Event → Prop
  | _, [] => True
  | n, e :: es =>
    (¬sink.Strikes again n e ∧ e ≠ shutDownFailed) ∧ Harmless (n + writeCalls [e]) es

end

variable {again : Bool} {sink : Sink} {n m k : Nat} {es fs tries : List Event} {out bs : Octets}
  {fault : IoFault}

theorem harmless_append :
    Harmless again sink n (es ++ fs) ↔
      Harmless again sink n es ∧ Harmless again sink (n + writeCalls es) fs := by
  induction es generalizing n with
  | nil => simp [Harmless, writeCalls]
  | cons e es ih =>
    have hcalls : writeCalls (e :: es) = writeCalls [e] + writeCalls es := writeCalls_append [e] es
    rw [List.cons_append, Harmless, Harmless, ih, hcalls, Nat.add_assoc]
    exact and_assoc.symm

theorem harmless_singleton {e : Event} :
    Harmless again sink n [e] ↔ ¬sink.Strikes again n e ∧ e ≠ shutDownFailed := by
  simp [Harmless]

theorem Harmless.of_append_cons {e : Event} (h : Harmless again sink 0 (es ++ e :: fs)) :
    ¬sink.Strikes again (writeCalls es) e ∧ e ≠ shutDownFailed := by
  have he := (harmless_append.mp h).2.1
  rwa [Nat.zero_add] at he

theorem Harmless.shutDownFailed_not_mem (h : Harmless again sink 0 es) : shutDownFailed ∉ es := by
  intro hmem
  obtain ⟨before, later, rfl⟩ := List.append_of_mem hmem
  exact h.of_append_cons.2 rfl

theorem harmless_of_forall (h : ∀ e ∈ es, e.isSinkCall = false) : Harmless again sink n es := by
  induction es generalizing n with
  | nil => trivial
  | cons e es ih =>
    have he := h e List.mem_cons_self
    refine ⟨?_, ih fun f hf => h f (List.mem_cons_of_mem _ hf)⟩
    cases e with
    | read n => exact ⟨id, by simp⟩
    | readFailed => exact ⟨id, by simp⟩
    | note text => exact ⟨id, by simp⟩
    | log record => exact ⟨id, by simp⟩
    | _ => simp [isSinkCall, isSending, isShutdown] at he

theorem harmless_shutDown {record : Record} : Harmless again sink n [shutDown, log record] :=
  ⟨⟨id, by simp⟩, ⟨id, by simp⟩, trivial⟩

theorem Tries.calls_eq (h : Tries again sink n tries m) : m = n + writeCalls tries := by
  induction h with
  | nothing => rfl
  | @interrupted n m es hagain hcall h ih =>
    have hcalls : writeCalls (writeFailed :: es) = writeCalls es + 1 := List.countP_cons_of_pos rfl
    omega

theorem Tries.written_eq (h : Tries again sink n tries m) : written tries = [] := by
  induction h with
  | nothing => rfl
  | interrupted hagain hcall h ih => exact ih

theorem Tries.isSending (h : Tries again sink n tries m) : ∀ e ∈ tries, e.isSending = true := by
  induction h with
  | nothing => simp
  | interrupted hagain hcall h ih => exact List.forall_mem_cons.mpr ⟨rfl, ih⟩

theorem Tries.harmless (h : Tries again sink n tries m) : Harmless again sink n tries := by
  induction h with
  | nothing => trivial
  | interrupted hagain hcall h ih =>
    exact ⟨⟨fun hstrikes => hstrikes ⟨hagain, hcall⟩, by simp⟩, ih⟩

theorem Takes.calls_eq (h : Takes again sink n es out m) : m = n + writeCalls es := by
  induction h with
  | nothing => rfl
  | @call n m k tries es bs out htries hcall hbs h ih =>
    have hcalls : writeCalls (wrote bs :: es) = writeCalls es + 1 := List.countP_cons_of_pos rfl
    have hm := htries.calls_eq
    rw [writeCalls_append]
    omega

theorem Takes.written_eq (h : Takes again sink n es out m) : written es = out := by
  induction h with
  | nothing => rfl
  | @call n m k tries es bs out htries hcall hbs h ih =>
    have hcall : written (wrote bs :: es) = bs ++ written es := rfl
    rw [written_append, htries.written_eq, hcall, ih, List.nil_append]

theorem Takes.isSending (h : Takes again sink n es out m) : ∀ e ∈ es, e.isSending = true := by
  induction h with
  | nothing => simp
  | call htries hcall hbs h ih =>
    exact List.forall_mem_append.mpr ⟨htries.isSending, List.forall_mem_cons.mpr ⟨rfl, ih⟩⟩

theorem Takes.harmless (h : Takes again sink n es out m) : Harmless again sink n es := by
  induction h with
  | nothing => trivial
  | @call n m k tries es bs out htries hcall hbs h ih =>
    refine harmless_append.mpr ⟨htries.harmless, ?_⟩
    rw [← htries.calls_eq]
    cases bs with
    | nil => exact absurd rfl hbs
    | cons b bs => exact ⟨⟨id, by simp⟩, ih⟩

theorem Sends.written_eq (h : Sends again sink n out es) : written es = out := by
  cases h with
  | nothing => rfl
  | all hne h hflush =>
    rw [written_append, h.written_eq]
    exact List.append_nil _

theorem Sends.isSending (h : Sends again sink n out es) : ∀ e ∈ es, e.isSending = true := by
  cases h with
  | nothing => simp
  | all hne h hflush => exact List.forall_mem_append.mpr ⟨h.isSending, by simp [Event.isSending]⟩

theorem Sends.harmless (h : Sends again sink n out es) : Harmless again sink n es := by
  cases h with
  | nothing => trivial
  | all hne h hflush =>
    exact harmless_append.mpr ⟨h.harmless, harmless_singleton.mpr ⟨id, by simp⟩⟩

theorem Sends.flushed (h : Sends again sink n out es) : Flushed es := by
  cases h with
  | nothing => exact flushed_of_forall (by simp)
  | all hne h hflush => exact flushed_concat _

theorem Breaks.call (htries : Tries again sink n tries m) (hcall : sink.write.at? (m + 1) = none)
    (hbs : bs ≠ []) (h : Breaks again sink (m + 1) out es fault) :
    Breaks again sink n (bs ++ out) (tries ++ wrote bs :: es) fault := by
  cases h with
  | write h hrest hlast hfault hfinal =>
    have hmore : Breaks again sink n _ _ _ :=
      .write (h.call htries hcall hbs) hrest hlast hfault hfinal
    simpa only [List.append_assoc, List.cons_append] using hmore
  | nothing h hrest hlast hnone hlimit =>
    have hmore : Breaks again sink n _ _ _ :=
      .nothing (h.call htries hcall hbs) hrest hlast hnone hlimit
    simpa only [List.append_assoc, List.cons_append] using hmore
  | flush h hfault =>
    have hmore : Breaks again sink n _ _ _ := .flush (h.call htries hcall hbs) hfault
    simpa only [List.append_assoc, List.cons_append] using hmore

/-- What is broken off ends with the event that tells of the fault. -/
theorem Breaks.exists_last (h : Breaks again sink n out es fault) :
    ∃ writes taken tries m k last, es = writes ++ tries ++ [last] ∧
      Takes again sink n writes taken m ∧ taken <+: out ∧ Tries again sink m tries k ∧
      last.octets = [] ∧ last.isSending = true ∧ sink.Strikes again k last ∧
      sink.fault? k last = some fault := by
  cases h with
  | write h hrest htries hfault hfinal =>
    exact ⟨_, _, _, _, _, writeFailed, rfl, h, List.prefix_append _ _, htries, rfl, rfl, hfinal,
      hfault⟩
  | nothing h hrest htries hcall hlimit =>
    exact ⟨_, _, _, _, _, wrote [], rfl, h, List.prefix_append _ _, htries, rfl, rfl, trivial, rfl⟩
  | @flush m writes _ _ h hfault =>
    have hes : writes ++ [flushFailed] = writes ++ [] ++ [flushFailed] := by rw [List.append_nil]
    exact ⟨_, _, [], _, _, flushFailed, hes, h, List.prefix_rfl, .nothing, rfl, rfl, trivial,
      hfault⟩

theorem Breaks.prefix_written (h : Breaks again sink n out es fault) : written es <+: out := by
  obtain ⟨writes, taken, tries, m, k, last, rfl, hwrites, htaken, htries, hlast, -⟩ := h.exists_last
  have hnone : written [last] = [] := by simp [written, hlast]
  rwa [written_append, written_append, hwrites.written_eq, htries.written_eq, hnone,
    List.append_nil, List.append_nil]

theorem Breaks.isSending (h : Breaks again sink n out es fault) :
    ∀ e ∈ es, e.isSending = true := by
  obtain ⟨writes, taken, tries, m, k, last, rfl, hwrites, -, htries, -, hlast, -⟩ := h.exists_last
  have hbefore := List.forall_mem_append.mpr ⟨hwrites.isSending, htries.isSending⟩
  exact List.forall_mem_append.mpr ⟨hbefore, List.forall_mem_singleton.mpr hlast⟩

/-- The fault is met with the last event, and none before. -/
theorem Breaks.strikes_last (h : Breaks again sink n out es fault) :
    ∃ init last, es = init ++ [last] ∧ Harmless again sink n init ∧
      sink.Strikes again (n + writeCalls init) last ∧
      sink.fault? (n + writeCalls init) last = some fault := by
  obtain ⟨writes, taken, tries, m, k, last, rfl, hwrites, -, htries, -, -, hstrikes, hfault⟩ :=
    h.exists_last
  have hk : n + writeCalls (writes ++ tries) = k := by
    rw [writeCalls_append, htries.calls_eq, hwrites.calls_eq, Nat.add_assoc]
  have hbefore := htries.harmless
  rw [hwrites.calls_eq] at hbefore
  refine ⟨writes ++ tries, last, rfl, harmless_append.mpr ⟨hwrites.harmless, hbefore⟩, ?_, ?_⟩
  · rwa [hk]
  · rwa [hk]

theorem Breaks.not_reliable (h : Breaks again sink n out es fault) : ¬sink.Reliable := by
  intro hs
  cases h with
  | write h hrest htries hfault hfinal => simp [hs.write] at hfault
  | nothing h hrest htries hcall hlimit => exact hs.takes _ hlimit
  | flush h hfault => simp [hs.flush] at hfault

end Event

namespace Pump
open Event
variable {σ : Type}

/-- A write call is made until one is not interrupted. -/
theorem callWrite_cases (sink : Sink) (out : Octets) (p : Pump σ) :
    ∃ q tries m, Tries true sink p.calls tries m ∧
      ((p.callWrite sink out = (q, .ok (sink.taken (m + 1) out)) ∧
          sink.write.at? (m + 1) = none ∧ Adds (tries ++ [wrote (sink.taken (m + 1) out)]) p q) ∨
        ∃ fault, p.callWrite sink out = (q, .error fault) ∧
          sink.write.at? (m + 1) = some fault ∧ ¬sink.write.Repeats (m + 1) ∧
          Adds (tries ++ [writeFailed]) p q) := by
  fun_induction callWrite sink out p with
  | case1 p q hcall taken =>
    exact ⟨_, [], _, .nothing, .inl ⟨rfl, hcall, emit_trace _ _, rfl, rfl, rfl, rfl⟩⟩
  | case2 p q fault hcall hrepeats ih =>
    obtain ⟨r, tries, m, htries, hcases⟩ := ih
    have hq : Adds [writeFailed] p (q.emit [writeFailed]) := ⟨emit_trace _ _, rfl, rfl, rfl, rfl⟩
    refine ⟨r, writeFailed :: tries, m, .interrupted rfl hrepeats htries, ?_⟩
    rcases hcases with ⟨hr, hnone, hadds⟩ | ⟨fault, hr, hfault, hfinal, hadds⟩
    · exact .inl ⟨hr, hnone, hq.trans hadds⟩
    · exact .inr ⟨fault, hr, hfault, hfinal, hq.trans hadds⟩
  | case3 p q fault hcall hfinal =>
    exact ⟨_, [], _, .nothing,
      .inr ⟨fault, rfl, hcall, hfinal, emit_trace _ _, rfl, rfl, rfl, rfl⟩⟩

theorem flush_cases (sink : Sink) (p : Pump σ) :
    ∃ q, (p.flush sink = (q, none) ∧ Adds [.flushed] p q ∧ sink.flush.at? p.calls = none) ∨
      ∃ fault, p.flush sink = (q, some fault) ∧ Adds [.flushFailed] p q ∧
        sink.flush.at? p.calls = some fault := by
  unfold flush
  cases hf : sink.flush.at? p.calls with
  | none => exact ⟨_, .inl ⟨rfl, adds_emit p rfl, rfl⟩⟩
  | some fault => exact ⟨_, .inr ⟨fault, rfl, adds_emit p rfl, rfl⟩⟩

/-- All is taken and flushed, or a fault breaks it off. -/
theorem writeAll_cases (sink : Sink) (out : Octets) (p : Pump σ) :
    ∃ q es, Adds es p q ∧
      ((p.writeAll sink out = (q, none) ∧ ∃ writes m, es = writes ++ [.flushed] ∧
          Takes true sink p.calls writes out m ∧ sink.flush.at? m = none) ∨
        ∃ fault, p.writeAll sink out = (q, some fault) ∧
          Breaks true sink p.calls out es fault) := by
  fun_induction writeAll sink out p with
  | case1 p =>
    obtain ⟨q, ⟨hq, hadds, hflush⟩ | ⟨fault, hq, hadds, hfault⟩⟩ := flush_cases sink p
    · exact ⟨q, _, hadds, .inl ⟨hq, [], _, rfl, .nothing, hflush⟩⟩
    · exact ⟨q, _, hadds, .inr ⟨fault, hq, .flush .nothing hfault⟩⟩
  | case2 out p ho q fault hq =>
    obtain ⟨q', tries, m, htries, ⟨hq', -⟩ | ⟨fault', hq', hfault, hfinal, hadds⟩⟩ :=
      callWrite_cases sink out p
    · simp [hq] at hq'
    · obtain ⟨rfl, hsame⟩ := Prod.mk.inj (hq.symm.trans hq')
      obtain rfl := Except.error.inj hsame
      exact ⟨q, _, hadds, .inr ⟨fault, rfl, .write .nothing ho htries hfault (by simp [hfinal])⟩⟩
  | case3 out p ho q hq =>
    obtain ⟨q', tries, m, htries, ⟨hq', hcall, hadds⟩ | ⟨fault', hq', -⟩⟩ :=
      callWrite_cases sink out p
    · obtain ⟨rfl, hsame⟩ := Prod.mk.inj (hq.symm.trans hq')
      have ht := (Except.ok.inj hsame).symm
      have hlimit := Sink.limit_of_taken_eq_nil ho ht
      rw [ht] at hadds
      exact ⟨q, _, hadds, .inr ⟨_, rfl, .nothing .nothing ho htries hcall hlimit⟩⟩
    · simp [hq] at hq'
  | case4 out p ho q taken hq ht ih =>
    -- one more call in front of what the rest comes to, whether that succeeds or not
    obtain ⟨q', tries, m, htries, ⟨hq', hcall, hadds⟩ | ⟨fault', hq', -⟩⟩ :=
      callWrite_cases sink out p
    · obtain ⟨rfl, hsame⟩ := Prod.mk.inj (hq.symm.trans hq')
      obtain rfl := Except.ok.inj hsame
      have hout := Sink.taken_append_drop sink (m + 1) out
      have hcalls : q.calls = m + 1 := by
        rw [hadds.calls_eq, writeCalls_append, htries.calls_eq]
        rfl
      obtain ⟨r, es, hrest, hcases⟩ := ih
      rw [hcalls] at hcases
      have hall := hadds.trans hrest
      rw [List.append_assoc, List.singleton_append] at hall
      refine ⟨r, _, hall, ?_⟩
      rcases hcases with ⟨hr, writes, k, rfl, htakes, hflush⟩ | ⟨fault, hr, hbreaks⟩
      · have hmore := htakes.call htries hcall ht
        rw [hout] at hmore
        refine .inl ⟨hr, _, k, ?_, hmore, hflush⟩
        rw [List.append_assoc, List.cons_append]
      · have hmore := hbreaks.call htries hcall ht
        rw [hout] at hmore
        exact .inr ⟨fault, hr, hmore⟩
    · simp [hq] at hq'

/-- All is sent, or a fault breaks it off. -/
theorem send_cases (sink : Sink) (out : Octets) (p : Pump σ) :
    ∃ q es, Adds es p q ∧
      ((p.send sink out = (q, none) ∧ Sends true sink p.calls out es) ∨
        ∃ fault, p.send sink out = (q, some fault) ∧ out ≠ [] ∧
          Breaks true sink p.calls out es fault) := by
  unfold send
  cases out with
  | nil => exact ⟨p, [], adds_refl p, .inl ⟨rfl, .nothing⟩⟩
  | cons b bs =>
    have hne : b :: bs ≠ [] := List.cons_ne_nil b bs
    obtain ⟨q, es, hadds, ⟨hq, writes, m, rfl, htakes, hflush⟩ | ⟨fault, hq, hbreaks⟩⟩ :=
      writeAll_cases sink (b :: bs) p
    · exact ⟨q, _, hadds, .inl ⟨hq, .all hne htakes hflush⟩⟩
    · exact ⟨q, es, hadds, .inr ⟨fault, hq, hne, hbreaks⟩⟩

theorem send_of_reliable {sink : Sink} (hs : sink.Reliable) (out : Octets) (p : Pump σ) :
    ∃ q es, Adds es p q ∧ p.send sink out = (q, none) ∧ Sends true sink p.calls out es := by
  obtain ⟨q, es, hadds, ⟨hq, hsends⟩ | ⟨fault, -, -, hbreaks⟩⟩ := send_cases sink out p
  · exact ⟨q, es, hadds, hq, hsends⟩
  · exact absurd hs hbreaks.not_reliable

end Pump
end PacketBus
