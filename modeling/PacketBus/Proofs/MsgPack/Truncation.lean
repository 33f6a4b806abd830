import PacketBus.Proofs.MsgPack.Lookahead
import PacketBus.Proofs.MsgPack.RoundTrip

/-! # Payloads that are cut short

What a value is written as is read as that value, whatever follows it. A reader that made do with
the front of it would leave the rest. So octets are found to be missing wherever a payload is cut,
be it between the entries of a record whose missing fields have defaults.
-/
namespace PacketBus.MsgPack
variable {α : Type}

theorem Reads.cut {read : Reader α} {bs : Octets} {v : α} (h : Reads read bs v)
    (hsettles : Settles read) {front : Octets} (hfront : front <+: bs) (hne : front ≠ bs) :
    ∃ fault, fault.isCut = true ∧ read front = .error fault := by
  obtain ⟨more, rfl⟩ := hfront
  obtain hcut | hread := hsettles front more
  · exact hcut
  · -- the front alone would be read as the value, and `more` be left
    have hall := h []
    rw [List.append_nil, hread] at hall
    cases hx : read front with
    | error fault =>
      rw [hx] at hall
      cases hall
    | ok x =>
      rw [hx] at hall
      have hleft : x.2 ++ more = [] := congrArg Prod.snd (Except.ok.inj hall)
      obtain rfl := (List.append_eq_nil_iff.mp hleft).2
      exact absurd (List.append_nil front).symm hne

end PacketBus.MsgPack

namespace PacketBus.Codec
open Catalog (Kind)

/-- Payloads without floating-point numbers are decoded from all the octets that they are encoded
in. If the last ones are missing, and any are left, then this is the fault. -/
theorem msgPack_refuses_cut {k : Kind} (hk : k.isLossless = true) {v : k.Value}
    (hv : k.schema.Short v) :
    ∃ bs, msgPack.encode (.schema k.schema) v = .ok bs ∧
      ∀ front, front <+: bs → front ≠ bs → front ≠ [] →
        ∃ fault, fault.isCut = true ∧
          msgPack.decode k.schema front = .error (.msgPackRead fault) := by
  obtain ⟨hfaithful, hnesting⟩ := Kind.isFaithful_of_isLossless hk
  have hdepth : k.schema.nesting < MsgPack.maxDepth := Nat.lt_of_le_of_lt hnesting (by decide)
  have hread := MsgPack.reads_write hfaithful hdepth hv
  have hsettles := MsgPack.settles_marked (MsgPack.settles_readAt k.schema MsgPack.maxDepth)
  refine ⟨MsgPack.write k.schema v, rfl, ?_⟩
  intro front hfront hne hnil
  obtain ⟨fault, hcut, hfault⟩ := hread.cut hsettles hfront hne
  refine ⟨fault, hcut, ?_⟩
  simp only [msgPack, orElse_of_ne_nil hnil, MsgPack.read, hfault]
  rfl

/-- The front holds two of three entries, and a record need not have the third. -/
theorem msgPack_refuses_cut_profile :
    let v : Kind.profile.Value := ("n", ⟨300, by decide, by decide⟩, none, none, ())
    let front := [0x83] ++ MsgPack.text "nick" ++ MsgPack.text "n" ++
      MsgPack.text "level" ++ [0xCD, 1, 44]
    msgPack.encode (.schema Kind.profile.schema) v =
        .ok (front ++ MsgPack.text "guild" ++ [0xC0]) ∧
      ∃ fault, fault.isCut = true ∧
        msgPack.decode Kind.profile.schema front = .error (.msgPackRead fault) := by
  intro v front
  have hnick : (Utf8.encode "n").length < UInt32.size := by decide +kernel
  have hnone : ∀ s : Schema, (Schema.option s).Short none := by
    intro s w hw
    cases hw
  have hv : Kind.profile.schema.Short v := ⟨hnick, hnone Catalog.text, hnone _, trivial⟩
  have hencode : msgPack.encode (.schema Kind.profile.schema) v =
      .ok (front ++ MsgPack.text "guild" ++ [0xC0]) := by decide +kernel
  obtain ⟨bs, hbs, hcut⟩ := msgPack_refuses_cut (k := .profile) rfl hv
  obtain rfl := Except.ok.inj (hencode.symm.trans hbs)
  refine ⟨hencode, hcut front ?_ ?_ (by decide +kernel)⟩
  · exact ⟨MsgPack.text "guild" ++ [0xC0], (List.append_assoc _ _ _).symm⟩
  · decide +kernel

end PacketBus.Codec
