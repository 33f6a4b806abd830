import PacketBus.Proofs.Frame.Deframer

/-! # Refused headers

A deframer that refuses a header stays as it is, and from then on gives the same fault to each call
that asks for packets, whatever it is given. Only clearing it helps, and a deframer that has been
cleared is a new one.
-/
namespace PacketBus.Deframer
open PacketBus.Stream
variable {limit : UInt32} {bs : Octets} {d e : Deframer} {fault : HeaderFault}

inductive Operation
  | push (chunk : Octets)
  | extend (chunk : Octets)
  | next
  | clear

inductive Answer
  | packets (answer : Except HeaderFault (List Packet))
  | packet (answer : Except HeaderFault (Option Packet))
  | done

namespace Operation

/-- What an operation gives. -/
def octets : Operation → Octets
  | push chunk | extend chunk => chunk
  | next | clear => []

/-- The answer to an operation that meets a fault. -/
def refusal (fault : HeaderFault) : Operation → Answer
  | push _ => .packets (.error fault)
  | next => .packet (.error fault)
  | extend _ | clear => .done

end Operation

def perform (d : Deframer) : Operation → Answer × Deframer
  | .push chunk => (.packets (d.push chunk).1, (d.push chunk).2)
  | .extend chunk => (.done, d.extend chunk)
  | .next => (.packet d.next.1, d.next.2)
  | .clear => (.done, d.clear)

/-- Operations one after another, with the answers to them. -/
def performAll : List Operation → Deframer → List Answer × Deframer
  | [], d => ([], d)
  | op :: ops, d =>
    let (answer, d) := d.perform op
    let (answers, d) := performAll ops d
    (answer :: answers, d)

theorem Holds.next_eq_error_iff (hd : Holds limit bs d) :
    d.next = (.error fault, e) ↔ front limit bs = .refused fault ∧ e = d := by
  cases hf : front limit bs with
  | packet p rest => simp [hd.next_packet hf]
  | incomplete => simp [hd.next_of_incomplete hf]
  | refused other => simp [hd.next_refused hf, eq_comm]

theorem push_snd (d : Deframer) (chunk : Octets) :
    (d.push chunk).2 = (d.extend chunk).drain.2.2 := by
  unfold push
  split <;> simp only [*]

/-- Each deframer that operations lead to holds some octets. -/
theorem Holds.perform (hd : Holds limit bs d) (op : Operation) :
    ∃ cs, Holds limit cs (d.perform op).2 := by
  cases op with
  | extend chunk => exact ⟨bs ++ chunk, hd.extend chunk⟩
  | push chunk =>
    obtain ⟨e, hdrain, he⟩ := (hd.extend chunk).drain
    refine ⟨(parse limit (bs ++ chunk)).rest, ?_⟩
    rwa [Deframer.perform, push_snd, hdrain]
  | next =>
    cases hf : front limit bs with
    | packet p rest =>
      rw [Deframer.perform, hd.next_packet hf]
      exact ⟨rest, holds_waiting limit rest⟩
    | refused fault =>
      rw [Deframer.perform, hd.next_refused hf]
      exact ⟨bs, hd⟩
    | incomplete =>
      obtain ⟨e, hn, he⟩ := hd.next_incomplete hf
      rw [Deframer.perform, hn]
      exact ⟨bs, he⟩
  | clear =>
    refine ⟨[], ?_⟩
    rw [← hd.limit_eq]
    exact holds_new d.limit

theorem Holds.performAll (hd : Holds limit bs d) (ops : List Operation) :
    ∃ cs, Holds limit cs (performAll ops d).2 := by
  induction ops generalizing bs d with
  | nil => exact ⟨bs, hd⟩
  | cons op ops ih =>
    obtain ⟨cs, hop⟩ := hd.perform op
    exact ih hop

/-- A push that fails leaves the octets from the refused header on. -/
theorem Holds.push_of_some (hd : Holds limit bs d) {chunk : Octets}
    (hf : (parse limit (bs ++ chunk)).fault = some fault) :
    d.push chunk = (.error fault, ⟨limit, none, (parse limit (bs ++ chunk)).rest⟩) := by
  have hdrain := (hd.extend chunk).drain_eq
  rw [left_of_fault hf, hf] at hdrain
  simp only [push, hdrain]

theorem push_of_refused (hf : front limit bs = .refused fault) (chunk : Octets) :
    push ⟨limit, none, bs⟩ chunk = (.error fault, ⟨limit, none, bs ++ chunk⟩) := by
  have hparse := parse_of_refused (front_refused_append hf chunk)
  rw [(holds_waiting limit bs).push_of_some (congrArg Parse.fault hparse), hparse]

/-- An operation on a deframer with a refused header in front meets its fault. What it gives comes
behind the header. -/
theorem perform_of_refused (hf : front limit bs = .refused fault) {op : Operation}
    (hop : op ≠ .clear) :
    perform ⟨limit, none, bs⟩ op = (op.refusal fault, ⟨limit, none, bs ++ op.octets⟩) := by
  cases op with
  | clear => exact absurd rfl hop
  | extend chunk => rfl
  | next =>
    rw [perform, (holds_waiting limit bs).next_refused hf, Operation.octets, List.append_nil]
    rfl
  | push chunk =>
    rw [perform, push_of_refused hf]
    rfl

theorem performAll_of_refused (hf : front limit bs = .refused fault) {ops : List Operation}
    (hops : .clear ∉ ops) :
    performAll ops ⟨limit, none, bs⟩ =
      (ops.map (Operation.refusal fault), ⟨limit, none, bs ++ ops.flatMap Operation.octets⟩) := by
  induction ops generalizing bs with
  | nil => simp [performAll]
  | cons op ops ih =>
    obtain ⟨hop, hrest⟩ := not_or.mp (mt List.mem_cons.mpr hops)
    have hmore := ih (front_refused_append hf op.octets) hrest
    simp only [performAll, perform_of_refused hf (Ne.symm hop), hmore, List.map_cons,
      List.flatMap_cons, List.append_assoc]

/-- Whatever operations a deframer has come through: if it refuses a header then the call has
changed nothing, and until the deframer is cleared each call that asks for packets gets the same
fault, with the header still in front of all that is buffered. Once cleared it does what a new one
does. -/
theorem refused_until_cleared (limit : UInt32) (before : List Operation) :
    let d := (performAll before (new limit)).2
    (∀ fault e, d.next = (.error fault, e) →
      e = d ∧ ∃ h rest, d = ⟨limit, none, Header.encode h ++ rest⟩ ∧
        h.validate limit = .error fault ∧
        ∀ later, .clear ∉ later →
          performAll later d = (later.map (Operation.refusal fault),
            ⟨limit, none, h.encode ++ rest ++ later.flatMap Operation.octets⟩)) ∧
    ∀ later, performAll later (d.perform .clear).2 = performAll later (new limit) := by
  intro d
  obtain ⟨bs, hd⟩ : ∃ bs, Holds limit bs d := (holds_new limit).performAll before
  refine ⟨?_, ?_⟩
  · intro fault e hnext
    obtain ⟨hf, he⟩ := hd.next_eq_error_iff.mp hnext
    obtain ⟨h, hdecode, hv⟩ := front_eq_refused_iff.mp hf
    obtain ⟨rest, rfl⟩ := Header.decode?_eq_some_iff.mp hdecode
    have heq := hd.eq_of_refused hf
    refine ⟨he, h, rest, heq, hv, ?_⟩
    intro later hlater
    rw [heq]
    exact performAll_of_refused hf hlater
  · intro later
    have hclear : (d.perform .clear).2 = new limit := congrArg new hd.limit_eq
    rw [hclear]

/-- A packet, then a header with the reserved id, met by a push and by a request. -/
theorem refused_until_cleared_reserved :
    let before : List Operation := [.push [0, 7, 0, 0, 0], .extend [0, 0, 0, 0, 0, 0, 9, 1], .next]
    let d := (performAll before (new 3)).2
    d.next = (.error .reservedId, d) ∧
      performAll [.push [0, 7, 0, 0, 0, 0], .next] d =
        ([.packets (.error .reservedId), .packet (.error .reservedId)],
          ⟨3, none, [0, 0, 0, 0, 0, 9, 1, 0, 7, 0, 0, 0, 0]⟩) := by
  intro before d
  have hnext : d.next = (.error .reservedId, d) := by
    dsimp only [d, before]
    decide +kernel
  obtain ⟨-, h, rest, heq, -, hlater⟩ := (refused_until_cleared 3 before).1 _ _ hnext
  refine ⟨hnext, ?_⟩
  have hbuffered : d.buffered = h.encode ++ rest := congrArg Deframer.buffered heq
  have hoctets : d.buffered = [0, 0, 0, 0, 0, 9, 1] := by
    dsimp only [d, before]
    decide +kernel
  rw [hlater _ (by simp), ← hbuffered, hoctets]
  rfl

end PacketBus.Deframer
