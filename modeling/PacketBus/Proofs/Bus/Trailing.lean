import PacketBus.Catalog.Handlers
import PacketBus.Proofs.Bus.History
import PacketBus.Proofs.MsgPack.Lookahead

/-! # Octets behind a payload

A MessagePack payload ends where its value ends. What comes behind it in the packet is not noticed,
neither by the codec nor by the bus, and the handler runs.
-/
namespace PacketBus

theorem Codec.msgPack_decode_append {s : Schema} {payload : Octets} (hpayload : payload ≠ [])
    {v : s.Value} (hv : msgPack.decode s payload = .ok v) (more : Octets) :
    msgPack.decode s (payload ++ more) = .ok v := by
  have hmore : payload ++ more ≠ [] := List.append_ne_nil_of_left_ne_nil hpayload more
  simp only [msgPack, orElse_of_ne_nil hpayload] at hv
  simp only [msgPack, orElse_of_ne_nil hmore]
  cases hx : MsgPack.read s payload with
  | error fault =>
    rw [hx] at hv
    cases hv
  | ok w =>
    rw [hx] at hv
    obtain ⟨fault, -, hcut⟩ | hread := MsgPack.settles_read s payload more
    · cases hx.symm.trans hcut
    · rw [hread, hx]
      exact hv

/-- The codec takes octets that do not belong to the value. -/
theorem Codec.msgPack_decode_append_one :
    ¬∀ (k : Catalog.Kind) (v : k.Value) (payload more : Octets),
      msgPack.encode (.schema k.schema) v = .ok payload → more ≠ [] →
        ∃ fault, msgPack.decode k.schema (payload ++ more) = .error fault := by
  intro h
  obtain ⟨fault, hfault⟩ := h .bool true [0xC3] [0x00] rfl (by decide)
  have hread : msgPack.decode Catalog.Kind.bool.schema ([0xC3] ++ [0x00]) = .ok true := rfl
  rw [hread] at hfault
  cases hfault

namespace Registry
variable {σ : Type}

/-- A handler runs on the value at the front of a payload, whatever comes behind it. -/
theorem dispatch_trailing {calls : List (Call σ)} {id : UInt16} {r : Registration σ}
    (hr : last? (history calls) id = some r) {payload : Octets} (hpayload : payload ≠ [])
    {v : r.request.schema.Value} (hv : Codec.msgPack.decode r.request.schema payload = .ok v)
    (more : Octets) (state : σ) :
    Codec.msgPack.decode r.request.schema (payload ++ more) = .ok v ∧
      (after .msgPack calls).build.dispatch ⟨id, payload ++ more⟩ state =
        r.respond .msgPack v state := by
  have hdecode := Codec.msgPack_decode_append hpayload hv more
  refine ⟨hdecode, ?_⟩
  rw [(reflects_after .msgPack calls).dispatch_eq]
  simp only [hr, Registration.serve, hdecode]

/-- An octet comes behind a number, and the number is added. -/
theorem dispatch_trailing_one :
    let r := Catalog.SilentHandler.add.register 5
    let calls := [Call.register r]
    let one : FixedInt .i32 := .wrap 1
    last? (history calls) 5 = some r ∧ Codec.msgPack.decode r.request.schema [1] = .ok one ∧
      ((after .msgPack calls).build.dispatch ⟨5, [1, 0]⟩ {}).state.counter.val = 1 := by
  intro r calls one
  have hr : last? (history calls) 5 = some r := rfl
  have hv : Codec.msgPack.decode r.request.schema [1] = .ok one := rfl
  obtain ⟨-, hdispatch⟩ := dispatch_trailing hr (List.cons_ne_nil 1 []) hv [0] {}
  exact ⟨hr, hv, congrArg (fun step => step.state.counter.val) hdispatch⟩

end Registry
end PacketBus
