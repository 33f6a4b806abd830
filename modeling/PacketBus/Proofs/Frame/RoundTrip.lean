import PacketBus.Proofs.Frame.Deframer

/-! # Pushing a stream in chunks

A stream that no header of which is refused gives its packets however it is cut. So packets that
fit the limit of a deframer come out of it as they were framed.
-/
namespace PacketBus

/-- A buffer with the frames of packets after what it holds. -/
def Packet.appendFrames (ps : List Packet) (buffer : Octets) : Except HeaderFault Octets :=
  ps.foldlM (fun buffer p => p.appendFrame buffer) buffer

namespace Deframer
open PacketBus.Stream
variable {limit : UInt32} {bs : Octets} {d : Deframer}

/-- Pushes chunks one after another. -/
def pushAll : List Octets → Deframer → List (Except HeaderFault (List Packet)) × Deframer
  | [], d => ([], d)
  | chunk :: chunks, d =>
    let (answer, d) := d.push chunk
    let (answers, d) := pushAll chunks d
    (answer :: answers, d)

theorem Holds.push_of_none (hd : Holds limit bs d) {chunk : Octets}
    (hf : (parse limit (bs ++ chunk)).fault = none) :
    ∃ e, d.push chunk = (.ok (parse limit (bs ++ chunk)).packets, e) ∧
      Holds limit (parse limit (bs ++ chunk)).rest e := by
  obtain ⟨e, hdrain, he⟩ := (hd.extend chunk).drain
  refine ⟨e, ?_, he⟩
  rw [hf] at hdrain
  simp only [push, hdrain]

theorem front_rest_of_none (hf : (parse limit bs).fault = none) :
    front limit (parse limit bs).rest = .incomplete := by
  have h := (parse_splits limit bs).stuck
  rwa [hf] at h

theorem fault_eq_none_of_append {more : Octets} (hf : (parse limit (bs ++ more)).fault = none) :
    (parse limit bs).fault = none := by
  cases h : (parse limit bs).fault with
  | none => rfl
  | some fault =>
    rw [(parse_append_of_fault h more).2] at hf
    simp at hf

/-- A deframer that holds no complete packet gives those that chunks complete. -/
theorem Holds.pushAll (hd : Holds limit bs d) (hbs : front limit bs = .incomplete)
    {chunks : List Octets} (hf : (parse limit (bs ++ chunks.flatten)).fault = none) :
    ∃ (batches : List (List Packet)) (e : Deframer), d.pushAll chunks = (batches.map .ok, e) ∧
      batches.flatten = (parse limit (bs ++ chunks.flatten)).packets ∧
      Holds limit (parse limit (bs ++ chunks.flatten)).rest e := by
  induction chunks generalizing bs d with
  | nil =>
    rw [List.flatten_nil, List.append_nil, parse_of_incomplete hbs]
    exact ⟨[], d, rfl, rfl, hd⟩
  | cons chunk chunks ih =>
    rw [List.flatten_cons, ← List.append_assoc] at hf ⊢
    have hfirst := fault_eq_none_of_append hf
    obtain ⟨e, hpush, he⟩ := hd.push_of_none hfirst
    rw [parse_append] at hf ⊢
    obtain ⟨batches, last, hall, hflat, hlast⟩ := ih he (front_rest_of_none hfirst) hf
    refine ⟨(parse limit (bs ++ chunk)).packets :: batches, last, ?_, ?_, hlast⟩
    · simp only [Deframer.pushAll, hpush, hall, List.map_cons]
    · rw [List.flatten_cons, hflat]
      rfl

theorem Holds.eq_new (hd : Holds limit [] d) : d = new limit := by
  obtain ⟨l, pending, buffered⟩ := d
  obtain rfl : l = limit := hd.limit_eq
  have hu := hd.unread_eq
  cases pending with
  | none =>
    simp only [unread, Option.elim_none, List.nil_append] at hu
    rw [hu]
    rfl
  | some h =>
    have hl := congrArg List.length hu
    simp [unread, Header.size] at hl

theorem appendFrames_eq {ps : List Packet} (hp : ∀ p ∈ ps, p.Fits limit) (buffer : Octets) :
    Packet.appendFrames ps buffer = .ok (buffer ++ wires ps) := by
  induction ps generalizing buffer with
  | nil => simp [Packet.appendFrames, pure, Except.pure]
  | cons p ps ih =>
    have hframe := Packet.frame_eq_wire (hp p List.mem_cons_self).length_lt
    have hfirst : p.appendFrame buffer = .ok (buffer ++ p.wire) := by
      simp [Packet.appendFrame, hframe, bind, Except.bind, pure, Except.pure]
    have hrest := ih (fun q hq => hp q (List.mem_cons_of_mem _ hq)) (buffer ++ p.wire)
    rw [List.append_assoc, ← wires_cons] at hrest
    simp only [Packet.appendFrames, List.foldlM_cons, hfirst] at hrest ⊢
    exact hrest

theorem parse_wires {ps : List Packet} (hp : ∀ p ∈ ps, p.Fits limit) :
    parse limit (wires ps) = ⟨ps, none, []⟩ := by
  have h := parse_wires_append hp []
  rw [List.append_nil, parse_nil] at h
  rw [h]
  simp [Parse.prepend]

/-- Packets that fit are framed, and their frames give back the packets, cut as they may be. -/
theorem pushAll_appendFrames {ps : List Packet} (hp : ∀ p ∈ ps, p.Fits limit) :
    ∃ octets, Packet.appendFrames ps [] = .ok octets ∧
      ∀ chunks : List Octets, chunks.flatten = octets →
        ∃ (batches : List (List Packet)) (d : Deframer),
          (new limit).pushAll chunks = (batches.map .ok, d) ∧
          batches.flatten = ps ∧ d.length = 0 ∧ d.isEmpty = true ∧ d.hasPartial = false := by
  refine ⟨wires ps, appendFrames_eq hp [], ?_⟩
  intro chunks hchunks
  have hparse : parse limit ([] ++ chunks.flatten) = ⟨ps, none, []⟩ := by
    rw [hchunks]
    exact parse_wires hp
  obtain ⟨batches, d, hall, hflat, hd⟩ :=
    (holds_new limit).pushAll front_nil (congrArg Parse.fault hparse)
  rw [hparse] at hflat hd
  obtain rfl := hd.eq_new
  exact ⟨batches, _, hall, hflat, rfl, rfl, rfl⟩

theorem pushAll_appendFrames_cut :
    (∀ p ∈ [(⟨7, []⟩ : Packet), ⟨65535, [0, 1, 2]⟩], p.Fits 3) ∧
      ∃ (batches : List (List Packet)) (d : Deframer),
        (new 3).pushAll [[0, 7, 0], [0, 0, 0, 255, 255, 0, 0, 0, 3], [], [0, 1], [2]] =
          (batches.map .ok, d) ∧
        batches.flatten = [⟨7, []⟩, ⟨65535, [0, 1, 2]⟩] ∧ d.hasPartial = false := by
  have hp : ∀ p ∈ [(⟨7, []⟩ : Packet), ⟨65535, [0, 1, 2]⟩], p.Fits 3 := by decide
  obtain ⟨octets, hframes, h⟩ := pushAll_appendFrames hp
  have hoctets : [0, 7, 0, 0, 0, 0, 255, 255, 0, 0, 0, 3, 0, 1, 2] = octets :=
    Except.ok.inj hframes
  obtain ⟨batches, d, hpush, hflat, -, -, hpartial⟩ := h
    [[0, 7, 0], [0, 0, 0, 255, 255, 0, 0, 0, 3], [], [0, 1], [2]] (by rw [← hoctets]; decide)
  exact ⟨hp, batches, d, hpush, hflat, hpartial⟩

end Deframer
end PacketBus
