import PacketBus.Octets

/-! # Scripted transports

What a peer sends and how its end of the line takes what it is sent. A source is a script of what
reads meet; a sink limits writes and may fail.
-/
namespace PacketBus

inductive IoKind
  | connectionReset | brokenPipe | timedOut | interrupted | unexpectedEof | writeZero | other
  deriving DecidableEq, Repr

structure IoFault where
  kind : IoKind
  text : String
  deriving DecidableEq, Repr

def IoFault.writeZero : IoFault := ⟨.writeZero, "write zero"⟩

def IoFault.message (f : IoFault) : String := "I/O error: " ++ f.text

/-- Cuts octets into pieces of a size, the last of which may be smaller. -/
def pieces (size : Nat) (acc : List Octets) (bs : Octets) : List Octets :=
  if _h : bs = [] ∨ size = 0 then acc.reverse
  else pieces size (bs.take size :: acc) (bs.drop size)
termination_by bs.length
decreasing_by
  have hpos : 0 < bs.length := List.length_pos_iff.mpr (fun he => _h (.inl he))
  have hsize : size ≠ 0 := fun he => _h (.inr he)
  rw [List.length_drop]
  omega

theorem flatten_pieces {size : Nat} (hsize : size ≠ 0) (acc : List Octets) (bs : Octets) :
    (pieces size acc bs).flatten = acc.reverse.flatten ++ bs := by
  fun_induction pieces size acc bs with
  | case1 acc bs h =>
    rcases h with rfl | h
    · simp
    · exact absurd h hsize
  | case2 acc bs h ih => simp [ih]

theorem length_pieces {size : Nat} {acc : List Octets} {bs : Octets}
    (hacc : ∀ p ∈ acc, p ≠ [] ∧ p.length ≤ size) :
    ∀ p ∈ pieces size acc bs, p ≠ [] ∧ p.length ≤ size := by
  fun_induction pieces size acc bs with
  | case1 acc bs h => simpa using hacc
  | case2 acc bs h ih =>
    obtain ⟨hbs, hsize⟩ := not_or.mp h
    refine ih fun p hp => ?_
    rcases List.mem_cons.mp hp with rfl | hp
    · exact ⟨by simp [hbs, hsize], by rw [List.length_take]; omega⟩
    · exact hacc p hp

inductive SourceStep
  | octets (bs : Octets)
  | fault (f : IoFault)

abbrev Source := List SourceStep

/-- How the reads of a source end. -/
inductive SourceEnd
  | closed
  | failed (f : IoFault)
  deriving DecidableEq, Repr

namespace Source

/-- What reads yield when each takes `size` octets at most. A step without octets is the end. -/
def chunks (size : Nat) : Source → List Octets × SourceEnd
  | [] | .octets [] :: _ => ([], .closed)
  | .fault f :: _ => ([], .failed f)
  | .octets bs :: rest =>
    let (more, last) := Source.chunks size rest
    (pieces size [] bs ++ more, last)

end Source

/-- The faults of a kind of calls, by the number of write calls. From some number on they are all
alike. -/
structure Faults where
  at? : Nat → Option IoFault
  steady : Nat
  at?_eq : ∀ n, steady ≤ n → at? n = at? steady

namespace Faults

def never : Faults := ⟨fun _ => none, 0, fun _ _ => rfl⟩

def always (fault : IoFault) : Faults := ⟨fun _ => some fault, 0, fun _ _ => rfl⟩

def once (call : Nat) (fault : IoFault) : Faults where
  at? n := if n = call then some fault else none
  steady := call + 1
  at?_eq n hn := by rw [if_neg (by omega), if_neg (by omega)]

def interrupts (faults : Faults) (call : Nat) : Bool :=
  (faults.at? call).any fun fault => fault.kind == .interrupted

/-- Whether a call is interrupted and a later one is not. -/
def Repeats (faults : Faults) (call : Nat) : Prop :=
  faults.interrupts call = true ∧ ∃ later, call ≤ later ∧ faults.interrupts later = false

variable {faults : Faults} {call : Nat}

theorem interrupts_of_steady_le (h : faults.steady ≤ call) :
    faults.interrupts call = faults.interrupts faults.steady := by
  rw [interrupts, faults.at?_eq call h, interrupts]

theorem Repeats.lt_steady (h : faults.Repeats call) : call < faults.steady := by
  obtain ⟨hcall, later, hle, hlater⟩ := h
  refine Nat.lt_of_not_le fun hge => ?_
  rw [interrupts_of_steady_le hge] at hcall
  rw [interrupts_of_steady_le (Nat.le_trans hge hle), hcall] at hlater
  simp at hlater

/-- Only calls up to the one from which on all are alike have to be asked. -/
theorem repeats_iff : faults.Repeats call ↔ faults.interrupts call = true ∧
    (List.range (faults.steady + 1)).any (fun n => call ≤ n && !faults.interrupts n) = true := by
  refine and_congr_right fun hcall => ?_
  simp only [List.any_eq_true, List.mem_range, Bool.and_eq_true, decide_eq_true_eq,
    Bool.not_eq_true']
  constructor
  · rintro ⟨later, hle, hlater⟩
    have hlt := Repeats.lt_steady ⟨hcall, later, hle, hlater⟩
    by_cases hs : later ≤ faults.steady
    · exact ⟨later, by omega, hle, hlater⟩
    · rw [interrupts_of_steady_le (by omega)] at hlater
      exact ⟨faults.steady, by omega, by omega, hlater⟩
  · rintro ⟨n, -, hle, hn⟩
    exact ⟨n, hle, hn⟩

instance (faults : Faults) (call : Nat) : Decidable (faults.Repeats call) :=
  decidable_of_iff _ repeats_iff.symm

end Faults

/-- A fault of each call, or of the calls with one number. -/
structure Strike where
  fault : IoFault
  call : Option Nat := none

def Strike.faults (s : Strike) : Faults := s.call.elim (.always s.fault) (.once · s.fault)

/-- A strike alone gives the faults of all calls. -/
instance : Coe (Option Strike) Faults := ⟨fun s => s.elim .never Strike.faults⟩

/-- The most octets that a write takes, by the number of the call. -/
def WriteLimit := Nat → Option Nat

/-- A number alone is the limit of each call. -/
instance : Coe (Option Nat) WriteLimit := ⟨fun limit _ => limit⟩

/-- How writes, flushes and the shutdown end. Write calls are counted from one, and the others meet
the fault of the number of write calls made. -/
structure Sink where
  limit : WriteLimit := fun _ => none
  write : Faults := .never
  flush : Faults := .never
  shutdown : Faults := .never

namespace Sink

/-- What a write takes of the octets that it is given. -/
def taken (sink : Sink) (call : Nat) (out : Octets) : Octets :=
  match sink.limit call with
  | none => out
  | some n => out.take n

end Sink
end PacketBus
