import PacketBus.Proofs.Frame.Deframer
import PacketBus.Proofs.Frame.Frames

/-! # Calls in any order

Octets may be given to a deframer and packets asked for in any order. Each answer is the one that
one pass over all octets given so far determines. Whatever the answers, the packets returned and
what is still held are together what was given.
-/
namespace PacketBus.Deframer
open PacketBus.Stream
variable {limit : UInt32}

inductive Call
  | extend (chunk : Octets)
  | next

/-- What a call gives. -/
def Call.octets : Call → Octets
  | extend chunk => chunk
  | next => []

/-- A deframer with all that it was given and the packets that it has returned. -/
structure History where
  deframer : Deframer
  given : Octets := []
  returned : List Packet := []

namespace History

def packets : Except HeaderFault (Option Packet) → List Packet
  | .ok packet => packet.toList
  | .error _ => []

def call (s : History) : Call → History
  | .extend chunk => { s with deframer := s.deframer.extend chunk, given := s.given ++ chunk }
  | .next =>
    let (answer, deframer) := s.deframer.next
    { s with deframer, returned := s.returned ++ packets answer }

/-- What a new deframer has come to after some calls. -/
def after (limit : UInt32) (calls : List Call) : History :=
  calls.foldl call { deframer := new limit }

/-- Nothing that was given is lost, and nothing is added. -/
structure Tracks (limit : UInt32) (s : History) : Prop where
  holds : Holds limit s.deframer.unread s.deframer
  given_eq : s.given = wires s.returned ++ s.deframer.unread
  fits : ∀ p ∈ s.returned, p.Fits limit

theorem Tracks.call_extend {s : History} (hs : Tracks limit s) (chunk : Octets) :
    Tracks limit (s.call (.extend chunk)) := by
  have hd := hs.holds.extend chunk
  refine ⟨?_, ?_, hs.fits⟩
  · change Holds limit (s.deframer.extend chunk).unread (s.deframer.extend chunk)
    rw [hd.unread_eq]
    exact hd
  · change s.given ++ chunk = wires s.returned ++ (s.deframer.extend chunk).unread
    rw [hd.unread_eq, hs.given_eq, List.append_assoc]

theorem Tracks.call_next {s : History} (hs : Tracks limit s) : Tracks limit (s.call .next) := by
  obtain ⟨hd, hg, hf⟩ := hs
  cases hfront : front limit s.deframer.unread with
  | packet p rest =>
    obtain ⟨hp, hu⟩ := front_eq_packet_iff.mp hfront
    have hn := hd.next_packet hfront
    simp only [call, hn, packets, Option.toList_some]
    refine ⟨holds_waiting limit rest, ?_, ?_⟩
    · rw [hg, hu]
      simp [unread]
    · intro q hq
      rcases List.mem_append.mp hq with hq | hq
      · exact hf q hq
      · exact (List.mem_singleton.mp hq) ▸ hp
  | refused fault =>
    have hn := hd.next_refused hfront
    simp only [call, hn, packets, List.append_nil]
    exact ⟨hd, hg, hf⟩
  | incomplete =>
    obtain ⟨e, hn, he⟩ := hd.next_incomplete hfront
    simp only [call, hn, packets, Option.toList_none, List.append_nil]
    refine ⟨?_, ?_, hf⟩
    · change Holds limit e.unread e
      rw [he.unread_eq]
      exact he
    · rw [hg, he.unread_eq]

theorem Tracks.foldl {s : History} (hs : Tracks limit s) (calls : List Call) :
    Tracks limit (calls.foldl call s) := by
  induction calls generalizing s with
  | nil => exact hs
  | cons c calls ih =>
    cases c with
    | extend chunk => exact ih (hs.call_extend chunk)
    | next => exact ih hs.call_next

theorem tracks_after (limit : UInt32) (calls : List Call) : Tracks limit (after limit calls) :=
  Tracks.foldl ⟨holds_new limit, rfl, by simp⟩ calls

/-- The whole stream starts with the packets that have been returned. -/
theorem Tracks.parse_given {s : History} (hs : Tracks limit s) :
    parse limit s.given = (parse limit s.deframer.unread).prepend s.returned := by
  rw [hs.given_eq]
  exact parse_wires_append hs.fits _

theorem Tracks.drop_given {s : History} (hs : Tracks limit s) :
    s.given.drop (wires s.returned).length = s.deframer.unread := by
  rw [hs.given_eq, List.drop_left]

/-- After any calls, the packets returned are the first ones of the whole stream, and the next
answer is the packet that follows them, or else what the header after them deserves. -/
theorem next_after (limit : UInt32) (calls : List Call) :
    let s := after limit calls
    let whole := (parse limit s.given).packets
    s.returned = whole.take s.returned.length ∧
      s.deframer.next.1 =
        if h : s.returned.length < whole.length then .ok (some whole[s.returned.length])
        else
          match Header.decode? (s.given.drop (wires s.returned).length) with
          | none => .ok none
          | some h => (h.validate limit).map fun _ => none := by
  intro s whole
  have hs : Tracks limit s := tracks_after limit calls
  have hwhole : whole = s.returned ++ (parse limit s.deframer.unread).packets :=
    congrArg Parse.packets hs.parse_given
  refine ⟨by rw [hwhole, List.take_left], ?_⟩
  rw [hs.drop_given]
  cases hfront : front limit s.deframer.unread with
  | packet p rest =>
    rw [parse_of_packet hfront] at hwhole
    simp only [hs.holds.next_packet hfront, hwhole]
    simp
  | refused fault =>
    obtain ⟨h, hdecode, hv⟩ := front_eq_refused_iff.mp hfront
    rw [parse_of_refused hfront, List.append_nil] at hwhole
    simp only [hs.holds.next_refused hfront, hwhole, hdecode, hv]
    simp [Except.map]
  | incomplete =>
    obtain ⟨e, hn, -⟩ := hs.holds.next_incomplete hfront
    rw [parse_of_incomplete hfront, List.append_nil] at hwhole
    simp only [hn, hwhole, Nat.lt_irrefl, dite_false]
    cases hdecode : Header.decode? s.deframer.unread with
    | none => rfl
    | some h =>
      cases hv : h.validate limit with
      | error fault => simp [front_eq_refused_iff.mpr ⟨h, hdecode, hv⟩] at hfront
      | ok u => simp [hv, Except.map]

theorem given_foldl (s : History) (calls : List Call) :
    (calls.foldl call s).given = s.given ++ calls.flatMap Call.octets := by
  induction calls generalizing s with
  | nil => simp
  | cons c calls ih =>
    have hcall : (s.call c).given = s.given ++ c.octets := by
      cases c with
      | extend chunk => rfl
      | next => exact (List.append_nil s.given).symm
    rw [List.foldl_cons, ih, hcall, List.flatMap_cons, List.append_assoc]

/-- After any calls, refused headers among them, the frames of the packets returned, the header that
is pending and the octets that are buffered are together what the calls have given. Each packet
returned is one that the limit allows. -/
theorem conserves_after (limit : UInt32) (calls : List Call) :
    let s := after limit calls
    (∃ octets, Packet.frames s.returned = .ok octets ∧
      octets ++ s.deframer.pending.elim [] Header.encode ++ s.deframer.buffered =
        calls.flatMap Call.octets) ∧
    ∀ p ∈ s.returned, p.id ≠ Header.reservedId ∧ p.length ≤ limit.toNat := by
  intro s
  have hs : Tracks limit s := tracks_after limit calls
  have hgiven : s.given = calls.flatMap Call.octets := given_foldl _ calls
  refine ⟨⟨wires s.returned, ?_, ?_⟩, hs.fits⟩
  · exact Packet.frames_eq_ok_iff.mpr ⟨fun p hp => (hs.fits p hp).length_lt, rfl⟩
  · rw [List.append_assoc, ← hgiven, hs.given_eq, unread]

end History
end PacketBus.Deframer
