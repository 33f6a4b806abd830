import Mathlib.Tactic.Common
import PacketBus.Session.Event

/-! # What records say

A record is told by its level, its message and its fields. These tell the record that closes a
session from the warning that its stream is cut off, and both from the records of packets.
-/
namespace PacketBus

/-! ## Numbers in texts -/

/-- A number ends at the first character behind it that is no digit. -/
theorem toString_append_inj {m n : Nat} {s t : String}
    (hs : ∀ c ∈ s.toList.head?, c.isDigit = false) (ht : ∀ c ∈ t.toList.head?, c.isDigit = false)
    (h : toString m ++ s = toString n ++ t) : m = n ∧ s = t := by
  have hdigits (k : Nat) {u : String} (hu : ∀ c ∈ u.toList.head?, c.isDigit = false) :
      (toString k ++ u).toList.takeWhile Char.isDigit = Nat.toDigits 10 k := by
    have hall : ∀ c ∈ Nat.toDigits 10 k, c.isDigit = true := fun c hc =>
      Nat.isDigit_of_mem_toDigits (by decide) (by decide) hc
    rw [String.toList_append, Nat.toString_eq_repr, Nat.toList_repr,
      List.takeWhile_append_of_pos hall]
    cases hl : u.toList with
    | nil => simp
    | cons c cs =>
      have hc := hu c (by simp [hl])
      simp [hc]
  have hsame := hdigits m hs
  rw [h, hdigits n ht] at hsame
  have hvalue := congrArg (Nat.ofDigitChars 10 · 0) hsame
  simp only [Nat.ofDigitChars_ten_toDigits] at hvalue
  subst hvalue
  exact ⟨rfl, (String.append_right_inj _).mp h⟩

theorem toString_inj {m n : Nat} (h : toString m = toString n) : m = n := by
  have hnil : ∀ c ∈ ("" : String).toList.head?, c.isDigit = false := by simp
  exact (toString_append_inj hnil hnil (by rw [h])).1

theorem Stats.text_eq (s : Stats) :
    s.text = "SessionStats \x7b received: " ++ (toString s.received ++ (", replied: " ++
      (toString s.replied ++ (", unhandled: " ++ (toString s.unhandled ++ (", failed: " ++
        (toString s.failed ++ " \x7d"))))))) := by
  unfold text
  generalize toString s.received = received
  generalize toString s.replied = replied
  generalize toString s.unhandled = unhandled
  generalize toString s.failed = failed
  rw [String.append_assoc, String.append_assoc, String.append_assoc, String.append_assoc,
    String.append_assoc, String.append_assoc, String.append_assoc]

theorem Stats.text_inj {s t : Stats} (h : s.text = t.text) : s = t := by
  have hcomma (front : String) (hfront : front.toList.head? = some ',') (u : String) :
      ∀ c ∈ (front ++ u).toList.head?, c.isDigit = false := by
    rw [String.toList_append, List.head?_append, hfront]
    intro c hc
    obtain rfl : ',' = c := by simpa using hc
    decide
  have hreplied := hcomma ", replied: " (by simp)
  have hunhandled := hcomma ", unhandled: " (by simp)
  have hfailed := hcomma ", failed: " (by simp)
  have hclose : ∀ c ∈ (" \x7d" : String).toList.head?, c.isDigit = false := by
    intro c hc
    obtain rfl : ' ' = c := by simpa using hc
    decide
  rw [text_eq, text_eq, String.append_right_inj] at h
  obtain ⟨h₁, h⟩ := toString_append_inj (hreplied _) (hreplied _) h
  rw [String.append_right_inj] at h
  obtain ⟨h₂, h⟩ := toString_append_inj (hunhandled _) (hunhandled _) h
  rw [String.append_right_inj] at h
  obtain ⟨h₃, h⟩ := toString_append_inj (hfailed _) (hfailed _) h
  rw [String.append_right_inj] at h
  obtain ⟨h₄, -⟩ := toString_append_inj hclose hclose h
  obtain ⟨received, replied, unhandled, failed⟩ := s
  rw [Stats.mk.injEq]
  exact ⟨h₁, h₂, h₃, h₄⟩

namespace Record

/-- The record has a level, and its message starts with a text. -/
def titled (level : Level) (text : String) (r : Record) : Bool :=
  r.level == level && text.toList.isPrefixOf r.message.toList

/-- The record is of a packet that failed. -/
def isFailure (r : Record) : Bool :=
  r.titled .warn "Dropping undecodable packet" || r.titled .error "Dropping reply" ||
    r.titled .error "Handler error"

theorem toString_text (s : String) : toString s = s := by with_reducible_and_instances rfl

theorem message_replyDropped (replyId packetId : UInt16) (fault : HeaderFault) :
    (replyDropped replyId packetId fault).message = "Dropping reply " ++ (toString replyId ++
      (" to packet " ++ (toString packetId ++ (": " ++ fault.message)))) := by
  change s!"Dropping reply {replyId} to packet {packetId}: " ++ fault.message = _
  simp only [String.append_assoc, toString_text]

theorem message_handlerFailed (packetId : UInt16) (fault : DispatchFault) :
    (handlerFailed packetId fault).message =
      "Handler error for packet " ++ (toString packetId ++ (": " ++ fault.message)) := by
  change s!"Handler error for packet {packetId}: " ++ fault.message = _
  simp only [String.append_assoc, toString_text]

/-- The first character of a message. -/
def initial : Record → Char
  | replaced _ => 'r'
  | noHandler _ => 'N'
  | undecodable _ | replyDropped _ _ _ => 'D'
  | handlerFailed _ _ => 'H'
  | cutStream _ | closed _ => 'S'

theorem head?_message (r : Record) : r.message.toList.head? = some r.initial := by
  cases r with
  | replaced r =>
    change ("replacing registered handler" : String).toList.head? = some 'r'
    simp
  | noHandler packetId =>
    change ("No handler registered, dropping packet" : String).toList.head? = some 'N'
    simp
  | undecodable fault =>
    change ("Dropping undecodable packet: " ++ fault.message).toList.head? = some 'D'
    rw [String.toList_append]
    simp
  | replyDropped replyId packetId fault =>
    rw [message_replyDropped, String.toList_append]
    simp [initial]
  | handlerFailed packetId fault =>
    rw [message_handlerFailed, String.toList_append]
    simp [initial]
  | cutStream buffered =>
    change ("Stream closed mid-packet" : String).toList.head? = some 'S'
    simp
  | closed stats =>
    change ("Session closed" : String).toList.head? = some 'S'
    simp

section
variable {level : Level} {text front rest : String} {r : Record}

theorem titled_of_append (hl : r.level = level) (hm : r.message = front ++ rest)
    (hf : text.toList <+: front.toList) : r.titled level text = true := by
  have hp : text.toList <+: r.message.toList := by
    rw [hm, String.toList_append]
    exact hf.trans (List.prefix_append _ _)
  rw [titled, hl, beq_self_eq_true, Bool.true_and]
  exact List.isPrefixOf_iff_prefix.mpr hp

theorem titled_eq_false {c : Char} (ht : text.toList.head? = some c)
    (h : r.level ≠ level ∨ r.initial ≠ c) : r.titled level text = false := by
  obtain ⟨cs, hcs⟩ := List.head?_eq_some_iff.mp ht
  rw [titled, Bool.and_eq_false_iff]
  rcases h with h | h
  · left
    simpa using h
  · right
    have hhead := head?_message r
    cases hm : r.message.toList with
    | nil => simp [hm] at hhead
    | cons d ds =>
      rw [hm, List.head?_cons, Option.some.injEq] at hhead
      rw [hcs, List.isPrefixOf_cons_cons, hhead, beq_eq_false_iff_ne.mpr h.symm, Bool.false_and]

end

theorem titled_noHandler (r : Record) :
    r.titled .warn "No handler registered, dropping packet" =
      match r with
      | .noHandler _ => true
      | _ => false := by
  have hhead : ("No handler registered, dropping packet" : String).toList.head? = some 'N' := by
    simp
  cases r with
  | noHandler packetId => exact titled_of_append rfl String.append_empty.symm List.prefix_rfl
  | _ => exact titled_eq_false hhead (by simp [level, initial])

theorem titled_undecodable (r : Record) :
    r.titled .warn "Dropping undecodable packet" =
      match r with
      | .undecodable _ => true
      | _ => false := by
  have hhead : ("Dropping undecodable packet" : String).toList.head? = some 'D' := by simp
  cases r with
  | undecodable fault => exact titled_of_append rfl rfl (by decide)
  | _ => exact titled_eq_false hhead (by simp [level, initial])

theorem titled_replyDropped (r : Record) :
    r.titled .error "Dropping reply" =
      match r with
      | .replyDropped _ _ _ => true
      | _ => false := by
  have hhead : ("Dropping reply" : String).toList.head? = some 'D' := by simp
  cases r with
  | replyDropped replyId packetId fault =>
    exact titled_of_append rfl (message_replyDropped _ _ _) (by decide)
  | _ => exact titled_eq_false hhead (by simp [level, initial])

theorem titled_handlerFailed (r : Record) :
    r.titled .error "Handler error" =
      match r with
      | .handlerFailed _ _ => true
      | _ => false := by
  have hhead : ("Handler error" : String).toList.head? = some 'H' := by simp
  cases r with
  | handlerFailed packetId fault =>
    exact titled_of_append rfl (message_handlerFailed _ _) (by decide)
  | _ => exact titled_eq_false hhead (by simp [level, initial])

theorem titled_cutStream (r : Record) :
    r.titled .warn "Stream closed mid-packet" =
      match r with
      | .cutStream _ => true
      | _ => false := by
  have hhead : ("Stream closed mid-packet" : String).toList.head? = some 'S' := by simp
  cases r with
  | cutStream buffered => exact titled_of_append rfl String.append_empty.symm List.prefix_rfl
  | _ => exact titled_eq_false hhead (by simp [level, initial])

theorem isFailure_eq (r : Record) :
    r.isFailure =
      match r with
      | .undecodable _ | .replyDropped _ _ _ | .handlerFailed _ _ => true
      | _ => false := by
  rw [isFailure, titled_undecodable, titled_replyDropped, titled_handlerFailed]
  cases r <;> rfl

theorem not_titled_of_isFailure {r : Record} (h : r.isFailure = true) :
    r.titled .warn "No handler registered, dropping packet" = false := by
  rw [isFailure_eq] at h
  rw [titled_noHandler]
  cases r with
  | noHandler packetId => simp at h
  | _ => rfl

/-- No record is of two kinds of failure. -/
theorem countP_isFailure (records : List Record) :
    records.countP isFailure = records.countP (titled .warn "Dropping undecodable packet") +
      records.countP (titled .error "Dropping reply") +
      records.countP (titled .error "Handler error") := by
  induction records with
  | nil => rfl
  | cons r records ih =>
    simp only [List.countP_cons, ih, isFailure_eq, titled_undecodable, titled_replyDropped,
      titled_handlerFailed]
    cases r <;> simp <;> omega

/-- The record of a session that ends well, with its counters. -/
structure Closes (stats : Stats) (r : Record) : Prop where
  level_eq : r.level = .debug
  message_eq : r.message = "Session closed"
  fields_eq : r.fields = [("stats", stats.text)]

/-- The warning of a stream that ends within a packet, with the octets that are buffered. -/
structure Warns (buffered : Nat) (r : Record) : Prop where
  level_eq : r.level = .warn
  message_eq : r.message = "Stream closed mid-packet"
  fields_eq : r.fields = [("buffered", toString buffered)]

theorem closes_iff {stats : Stats} {r : Record} : r.Closes stats ↔ r = .closed stats := by
  constructor
  · rintro ⟨hlevel, hmessage, hfields⟩
    cases r with
    | closed other =>
      simp only [fields, List.cons.injEq, Prod.mk.injEq, and_true, true_and] at hfields
      rw [Stats.text_inj hfields]
    | replaced r => simp [fields] at hfields
    | _ => simp [level] at hlevel
  · rintro rfl
    exact ⟨rfl, rfl, rfl⟩

theorem warns_iff {buffered : Nat} {r : Record} : r.Warns buffered ↔ r = .cutStream buffered := by
  constructor
  · rintro ⟨hlevel, hmessage, hfields⟩
    cases r with
    | cutStream other =>
      simp only [fields, List.cons.injEq, Prod.mk.injEq, and_true, true_and] at hfields
      rw [toString_inj hfields]
    | noHandler packetId => simp [fields] at hfields
    | undecodable fault => simp [fields] at hfields
    | _ => simp [level] at hlevel
  · rintro rfl
    exact ⟨rfl, rfl, rfl⟩

end Record

end PacketBus
