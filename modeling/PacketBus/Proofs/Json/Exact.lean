import Mathlib.Data.List.TakeWhile
import PacketBus.Proofs.Json.Reading
import PacketBus.Proofs.Json.RoundTrip

/-! # A payload and nothing else

A value that is no number is read from all the octets that it is written as, and from none of their
fronts: a reader that made do with one would leave the rest. What comes behind them is left, and
only blanks may be left.
-/
namespace PacketBus.Json
variable {α : Type} {bs : Octets}

theorem Settles.cut {read : Reader α} {v : α} (h : Settles False read)
    (hread : read bs = .ok (v, [])) {front : Octets} (hfront : front <+: bs) (hne : front ≠ bs) :
    ∃ fault, read front = .error fault := by
  obtain ⟨more, rfl⟩ := hfront
  cases hx : read front with
  | error fault => exact ⟨fault, rfl⟩
  | ok x =>
    -- the front alone would be read as the value, and `more` be left
    have hall := h hx more False.elim
    rw [hread] at hall
    have hleft : x.2 ++ more = [] := (congrArg Prod.snd (Except.ok.inj hall)).symm
    obtain rfl := (List.append_eq_nil_iff.mp hleft).2
    exact absurd (List.append_nil front).symm hne

theorem skipBlank_eq_nil_iff : skipBlank bs = [] ↔ ∀ b ∈ bs, isBlank b = true :=
  List.dropWhile_eq_nil_iff

theorem settles_of_isDelimited {s : Schema} (hs : s.isDelimited = true) (depth : Nat) :
    Settles False (readAt s depth) := by
  refine (settles_readAt s depth).mono fun hnot => ?_
  rw [hs] at hnot
  cases hnot

/-- What comes behind a value is looked at only for being blank. -/
theorem read_append {s : Schema} (hs : s.isDelimited = true) {v : s.Value}
    (hread : readAt s maxDepth bs = .ok (v, [])) (more : Octets) :
    read s (bs ++ more) =
      if (skipBlank more).isEmpty then .ok v else .error .trailingCharacters := by
  have hmore := settles_of_isDelimited hs maxDepth hread more False.elim
  rw [read, hmore]
  rfl

end PacketBus.Json

namespace PacketBus.Codec
open Catalog (Kind)

/-- Payloads that are no numbers and hold no floating-point numbers are decoded from all the octets
that they are encoded in. It is a fault when the last of them are missing, if any are left, and when
anything but blanks comes behind them. -/
theorem json_exact {k : Kind} (hk : k.isLossless = true) (hdelimited : k.schema.isDelimited = true)
    (v : k.Value) :
    ∃ bs, json.encode (.schema k.schema) v = .ok bs ∧
      (∀ front, front <+: bs → front ≠ bs → front ≠ [] →
        ∃ fault, json.decode k.schema front = .error (.jsonRead fault)) ∧
      (∀ more, (∃ b ∈ more, Json.isBlank b = false) →
        json.decode k.schema (bs ++ more) = .error (.jsonRead .trailingCharacters)) ∧
      ∀ more, (∀ b ∈ more, Json.isBlank b = true) →
        json.decode k.schema (bs ++ more) = .ok v := by
  obtain ⟨hfaithful, hnesting⟩ := Kind.isFaithful_of_isLossless hk
  have hdepth : k.schema.nesting < Json.maxDepth := Nat.lt_of_le_of_lt hnesting (by decide)
  have hread := (Json.reads_write hfaithful hdepth v).alone
  have hne := (Json.opens_write hfaithful v).ne_nil
  have hpayload (more : Octets) : json.decode k.schema (Json.write k.schema v ++ more) =
      (Json.read k.schema (Json.write k.schema v ++ more)).mapError .jsonRead := by
    have happend : Json.write k.schema v ++ more ≠ [] := List.append_ne_nil_of_left_ne_nil hne more
    simp only [json, orElse_of_ne_nil happend]
  refine ⟨Json.write k.schema v, rfl, ?_, ?_, ?_⟩
  · intro front hfront hcut hnil
    obtain ⟨fault, hfault⟩ :=
      (Json.settles_of_isDelimited hdelimited Json.maxDepth).cut hread hfront hcut
    refine ⟨fault, ?_⟩
    simp only [json, orElse_of_ne_nil hnil, Json.read, hfault]
    rfl
  · rintro more ⟨b, hb, hsolid⟩
    have hleft : (Json.skipBlank more).isEmpty = false := by
      rw [List.isEmpty_eq_false_iff, ne_eq, Json.skipBlank_eq_nil_iff]
      intro hall
      rw [hall b hb] at hsolid
      cases hsolid
    rw [hpayload, Json.read_append hdelimited hread, hleft]
    rfl
  · intro more hblank
    have hleft : (Json.skipBlank more).isEmpty = true := by
      rw [List.isEmpty_iff]
      exact Json.skipBlank_eq_nil_iff.mpr hblank
    rw [hpayload, Json.read_append hdelimited hread, hleft]
    rfl

/-- The front holds two of three entries, and a record need not have the third. -/
theorem json_exact_profile :
    let v : Kind.profile.Value := ("n", ⟨300, by decide, by decide⟩, none, none, ())
    let front := Json.octetText "\x7b\"nick\":\"n\",\"level\":300".toList
    let bs := front ++ Json.octetText ",\"guild\":null\x7d".toList
    json.encode (.schema Kind.profile.schema) v = .ok bs ∧
      (∃ fault, json.decode Kind.profile.schema front = .error (.jsonRead fault)) ∧
      json.decode Kind.profile.schema (bs ++ [0x20, 0x7D]) =
        .error (.jsonRead .trailingCharacters) ∧
      json.decode Kind.profile.schema (bs ++ [0x20, 0x0A]) = .ok v := by
  intro v front bs
  have hencode : json.encode (.schema Kind.profile.schema) v = .ok bs := by decide +kernel
  obtain ⟨octets, hoctets, hcut, htrailing, hblank⟩ := json_exact (k := .profile) rfl rfl v
  obtain rfl : bs = octets := Except.ok.inj (hencode.symm.trans hoctets)
  refine ⟨hencode, ?_, ?_, ?_⟩
  · exact hcut front (List.prefix_append _ _) (by decide +kernel) (by decide +kernel)
  · exact htrailing _ ⟨0x7D, by decide, rfl⟩
  · exact hblank _ (by simp [Json.isBlank])

example : ∀ k ∈ [Kind.unit, .ping, .bool, .char, .string, .bytes, .vecU8, .vecI32, .vecString,
    .pair, .arr3, .mapStr, .mapU8, .move, .spawn, .profile, .strict, .event, .party],
    k.isLossless = true ∧ k.schema.isDelimited = true := by decide

end PacketBus.Codec
