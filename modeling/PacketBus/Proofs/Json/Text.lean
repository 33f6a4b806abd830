import Mathlib.Tactic.IntervalCases
import PacketBus.Json.Text
import PacketBus.Proofs.Payload.Parts

/-! # Strings come back from their quotes

Each octet of a string stands for itself or is resolved from its escape. Neither ends the string, so
it goes on to the quote that closes it.
-/
namespace PacketBus.Json

/-- A string behind its opening quote. -/
def closedText (s : String) : Octets := (Utf8.encode s).flatMap escapeOctet ++ [0x22]

theorem writeText_eq (s : String) : writeText s = 0x22 :: closedText s := rfl

theorem readOctets_control {n : Nat} (hn : n < 0x20) (acc rest : Octets) :
    readOctets .text .plain acc (escapeOctet (UInt8.ofNat n) ++ rest) =
      readOctets .text .plain (UInt8.ofNat n :: acc) rest := by
  interval_cases n <;> rfl

/-- An octet that needs no escape. -/
theorem readOctets_self {b : UInt8} (hcontrol : ¬b < 0x20) (hquoted : ¬(b = 0x22 ∨ b = 0x5C))
    (acc rest : Octets) :
    readOctets .text .plain acc (escapeOctet b ++ rest) =
      readOctets .text .plain (b :: acc) rest := by
  have hne : ∀ c : UInt8, c < 0x20 → b ≠ c := by
    rintro c hc rfl
    exact hcontrol hc
  have hself : escapeOctet b = [b] := by
    rw [escapeOctet, if_neg hquoted, if_neg (hne _ (by decide)), if_neg (hne _ (by decide)),
      if_neg (hne _ (by decide)), if_neg (hne _ (by decide)), if_neg (hne _ (by decide)),
      if_neg hcontrol]
  obtain ⟨hquote, hslash⟩ := not_or.mp hquoted
  have hstep : TextState.plain.step .text b = .ok (.more [b] .plain) := by
    rw [TextState.step, stepPlain, if_neg hquote, if_neg hslash, if_neg fun h => hcontrol h.2]
  rw [hself, List.singleton_append, readOctets, hstep]
  rfl

theorem readOctets_escape (b : UInt8) (acc rest : Octets) :
    readOctets .text .plain acc (escapeOctet b ++ rest) =
      readOctets .text .plain (b :: acc) rest := by
  by_cases hcontrol : b < 0x20
  · have hb := readOctets_control (UInt8.lt_iff_toNat_lt.mp hcontrol) acc rest
    rw [UInt8.ofNat_toNat] at hb
    exact hb
  · by_cases hquoted : b = 0x22 ∨ b = 0x5C
    · rcases hquoted with rfl | rfl <;> rfl
    · exact readOctets_self hcontrol hquoted acc rest

/-- The octets of a string are read up to the quote behind them. -/
theorem readOctets_flatMap_escape (bs acc rest : Octets) :
    readOctets .text .plain acc (bs.flatMap escapeOctet ++ 0x22 :: rest) =
      .ok (acc.reverse ++ bs, rest) := by
  induction bs generalizing acc with
  | nil =>
    rw [List.append_nil]
    rfl
  | cons b bs ih =>
    rw [List.flatMap_cons, List.append_assoc, readOctets_escape, ih]
    simp

theorem readText_closedText (s : String) (rest : Octets) :
    readText (closedText s ++ rest) = .ok (s, rest) := by
  have hread := readOctets_flatMap_escape (Utf8.encode s) [] rest
  rw [closedText, List.append_assoc, List.singleton_append, readText, hread, ok_bind]
  simp only [List.reverse_nil, List.nil_append, Utf8.decode_encode]
  rfl

end PacketBus.Json
