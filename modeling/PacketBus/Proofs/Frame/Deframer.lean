import PacketBus.Frame.Deframer
import PacketBus.Proofs.Frame.Stream

/-! # What a deframer holds

The octets that a deframer was given and has not handed out determine all that it does. A pending
header counts among them with its six octets, so that taking a header changes nothing.
-/
namespace PacketBus.Deframer
open PacketBus.Stream
variable {limit : UInt32} {bs : Octets} {d : Deframer}

/-- The octets that have not been handed out. -/
def unread (d : Deframer) : Octets := d.pending.elim [] Header.encode ++ d.buffered

/-- A deframer with its octets. A pending header has been accepted and announces a payload. -/
structure Holds (limit : UInt32) (bs : Octets) (d : Deframer) : Prop where
  limit_eq : d.limit = limit
  unread_eq : d.unread = bs
  pending_ok : ∀ h, d.pending = some h → h.validate limit = .ok () ∧ 0 < h.length.toNat

theorem holds_new (limit : UInt32) : Holds limit [] (new limit) := ⟨rfl, rfl, by simp [new]⟩

theorem holds_waiting (limit : UInt32) (bs : Octets) : Holds limit bs ⟨limit, none, bs⟩ :=
  ⟨rfl, rfl, by simp⟩

theorem Holds.extend (hd : Holds limit bs d) (chunk : Octets) :
    Holds limit (bs ++ chunk) (d.extend chunk) := by
  refine ⟨hd.limit_eq, ?_, hd.pending_ok⟩
  rw [← hd.unread_eq]
  simp [unread, Deframer.extend]

theorem front_encode_append {h : Header} (hv : h.validate limit = .ok ()) (bs : Octets) :
    front limit (h.encode ++ bs) =
      match Octets.split? h.length.toNat bs with
      | none => .incomplete
      | some (payload, rest) => .packet ⟨h.id, payload⟩ rest := by
  have hdrop : (h.encode ++ bs).drop Header.size = bs := List.drop_left' (Header.length_encode h)
  cases hs : Octets.split? h.length.toNat bs with
  | none => simp only [front, Header.decode?_encode_append, hv, hdrop, hs]
  | some s => simp only [front, Header.decode?_encode_append, hv, hdrop, hs]

/-- Taking a payload agrees with the first frame of the header and what follows it. -/
theorem takePayload_of_packet {h : Header} {p : Packet} {rest : Octets}
    (hv : h.validate limit = .ok ()) (hf : front limit (h.encode ++ bs) = .packet p rest) :
    d.takePayload h bs = (some p, { d with pending := none, buffered := rest }) := by
  rw [front_encode_append hv] at hf
  unfold takePayload
  cases hs : Octets.split? h.length.toNat bs with
  | none => simp [hs] at hf
  | some s =>
    simp only [hs, Front.packet.injEq] at hf
    obtain ⟨rfl, rfl⟩ := hf
    rfl

theorem takePayload_of_incomplete {h : Header} (hv : h.validate limit = .ok ())
    (hf : front limit (h.encode ++ bs) = .incomplete) :
    d.takePayload h bs = (none, { d with pending := some h, buffered := bs }) ∧
      bs.length < h.length.toNat := by
  rw [front_encode_append hv] at hf
  unfold takePayload
  cases hs : Octets.split? h.length.toNat bs with
  | none => exact ⟨rfl, Octets.split?_eq_none_iff.mp hs⟩
  | some s => simp [hs] at hf

/-- A deframer takes from its pending header, or from the header in front if it accepts it. -/
theorem Holds.next_of_header (hd : Holds limit bs d) {h : Header} {rest : Octets}
    (hv : h.validate limit = .ok ()) (hbs : bs = h.encode ++ rest) :
    d.next = ((.ok (d.takePayload h rest).1), (d.takePayload h rest).2) := by
  have hu := hd.unread_eq
  cases hp : d.pending with
  | some g =>
    simp only [unread, hp, Option.elim_some] at hu
    -- both headers are read off the same octets
    have hg : some g = some h := by
      rw [← Header.decode?_encode_append g d.buffered, hu, hbs]
      exact Header.decode?_encode_append h rest
    obtain rfl := Option.some.inj hg
    have hrest : d.buffered = rest := List.append_cancel_left (hu.trans hbs)
    simp only [next, hp, hrest]
  | none =>
    simp only [unread, hp, Option.elim_none, List.nil_append] at hu
    have hdecode : Header.decode? d.buffered = some h := by
      rw [hu, hbs]
      exact Header.decode?_encode_append h rest
    have hdrop : d.buffered.drop Header.size = rest := by
      rw [hu, hbs]
      exact List.drop_left' (Header.length_encode h)
    simp only [next, hp, hdecode, hd.limit_eq, hv, hdrop]

theorem Holds.next_packet (hd : Holds limit bs d) {p : Packet} {rest : Octets}
    (hf : front limit bs = .packet p rest) :
    d.next = (.ok (some p), ⟨limit, none, rest⟩) := by
  obtain ⟨hp, rfl⟩ := front_eq_packet_iff.mp hf
  have hv := (Packet.validate_header_eq_ok_iff hp.length_lt).mpr hp
  rw [Packet.wire, List.append_assoc] at hf
  have hn := hd.next_of_header hv (by rw [Packet.wire, List.append_assoc])
  rw [takePayload_of_packet hv hf, hd.limit_eq] at hn
  exact hn

/-- A refused header has not been taken. -/
theorem Holds.eq_of_refused (hd : Holds limit bs d) {fault : HeaderFault}
    (hf : front limit bs = .refused fault) : d = ⟨limit, none, bs⟩ := by
  obtain ⟨h, hdecode, hv⟩ := front_eq_refused_iff.mp hf
  have hu := hd.unread_eq
  obtain ⟨l, pending, buffered⟩ := d
  obtain rfl : l = limit := hd.limit_eq
  cases pending with
  | none =>
    simp only [unread, Option.elim_none, List.nil_append] at hu
    rw [hu]
  | some g =>
    simp only [unread, Option.elim_some] at hu
    rw [← hu, Header.decode?_encode_append] at hdecode
    obtain rfl := Option.some.inj hdecode
    simp [(hd.pending_ok g rfl).1] at hv

theorem Holds.next_refused (hd : Holds limit bs d) {fault : HeaderFault}
    (hf : front limit bs = .refused fault) : d.next = (.error fault, d) := by
  obtain ⟨h, hdecode, hv⟩ := front_eq_refused_iff.mp hf
  rw [hd.eq_of_refused hf]
  simp only [next, hdecode, hv]

/-- What draining leaves of a stream. A header that is complete has been taken, unless it is
refused. -/
def left (limit : UInt32) (r : Parse) : Deframer :=
  match r.fault, Header.decode? r.rest with
  | none, some h => ⟨limit, some h, r.rest.drop Header.size⟩
  | _, _ => ⟨limit, none, r.rest⟩

theorem left_of_fault {r : Parse} {fault : HeaderFault} (hr : r.fault = some fault) :
    left limit r = ⟨limit, none, r.rest⟩ := by
  simp only [left, hr]

theorem Holds.next_of_incomplete (hd : Holds limit bs d) (hf : front limit bs = .incomplete) :
    d.next = (.ok none, left limit ⟨[], none, bs⟩) := by
  cases hdecode : Header.decode? bs with
  | none =>
    have hu := hd.unread_eq
    obtain ⟨l, pending, buffered⟩ := d
    obtain rfl : l = limit := hd.limit_eq
    cases pending with
    | some g =>
      rw [← hu, unread, Option.elim_some, Header.decode?_encode_append] at hdecode
      simp at hdecode
    | none =>
      obtain rfl : buffered = bs := hu
      simp only [next, left, hdecode]
  | some h =>
    obtain ⟨rest, rfl⟩ := Header.decode?_eq_some_iff.mp hdecode
    cases hv : h.validate limit with
    | error fault => simp [front_eq_refused_iff.mpr ⟨h, hdecode, hv⟩] at hf
    | ok u =>
      have hdrop : (h.encode ++ rest).drop Header.size = rest :=
        List.drop_left' (Header.length_encode h)
      rw [hd.next_of_header hv rfl, (takePayload_of_incomplete hv hf).1, hd.limit_eq]
      simp only [left, hdecode, hdrop]

/-- A header that has been taken is one that is accepted and whose payload is not complete. -/
theorem holds_left {r : Parse} (hr : front limit r.rest = r.fault.elim .incomplete .refused) :
    Holds limit r.rest (left limit r) := by
  cases hfault : r.fault with
  | some fault =>
    rw [left_of_fault hfault]
    exact holds_waiting limit r.rest
  | none =>
    rw [hfault] at hr
    cases hdecode : Header.decode? r.rest with
    | none =>
      simp only [left, hfault, hdecode]
      exact holds_waiting limit r.rest
    | some h =>
      obtain ⟨rest, hrest⟩ := Header.decode?_eq_some_iff.mp hdecode
      have hdrop : r.rest.drop Header.size = rest := by
        rw [hrest]
        exact List.drop_left' (Header.length_encode h)
      simp only [left, hfault, hdecode, hdrop]
      refine ⟨rfl, hrest.symm, ?_⟩
      rintro g ⟨⟩
      cases hv : h.validate limit with
      | error fault => simp [front_eq_refused_iff.mpr ⟨h, hdecode, hv⟩] at hr
      | ok u =>
        rw [hrest] at hr
        have hlt := (takePayload_of_incomplete (d := new limit) hv hr).2
        exact ⟨rfl, by omega⟩

theorem Holds.next_incomplete (hd : Holds limit bs d) (hf : front limit bs = .incomplete) :
    ∃ e, d.next = (.ok none, e) ∧ Holds limit bs e :=
  ⟨_, hd.next_of_incomplete hf, holds_left (r := ⟨[], none, bs⟩) hf⟩

/-- A packet has begun when there are octets that have not been handed out. -/
theorem Holds.hasPartial_eq_false_iff (hd : Holds limit bs d) : d.hasPartial = false ↔ bs = [] := by
  rw [← hd.unread_eq]
  cases hp : d.pending with
  | none => simp [hasPartial, isEmpty, unread, hp]
  | some h =>
    have hne : h.encode ≠ [] := by
      intro hnil
      have hlength := h.length_encode
      simp [hnil, Header.size] at hlength
    simp [hasPartial, unread, hp, hne]

/-- Draining takes a stream apart as one pass over it does. -/
theorem Holds.drain_eq (hd : Holds limit bs d) :
    d.drain = ((parse limit bs).packets, (parse limit bs).fault, left limit (parse limit bs)) := by
  fun_induction parse limit bs generalizing d with
  | case1 bs p rest hf ih =>
    have hn := hd.next_packet hf
    rw [Deframer.drain]
    split
    · rename_i q next hq
      obtain ⟨hpq, rfl⟩ := Prod.mk.inj (hn.symm.trans hq)
      obtain rfl : p = q := by simpa using hpq
      rw [ih (holds_waiting limit rest)]
      rfl
    · rename_i next hq
      simp [hn] at hq
    · rename_i fault next hq
      simp [hn] at hq
  | case2 bs fault hf =>
    have hn := hd.next_refused hf
    rw [Deframer.drain]
    split
    · rename_i q next hq
      simp [hn] at hq
    · rename_i next hq
      simp [hn] at hq
    · rename_i other next hq
      obtain ⟨hfault, rfl⟩ := Prod.mk.inj (hn.symm.trans hq)
      rw [left_of_fault rfl, ← hd.eq_of_refused hf, Except.error.inj hfault]
  | case3 bs hf =>
    have hn := hd.next_of_incomplete hf
    rw [Deframer.drain]
    split
    · rename_i q next hq
      simp [hn] at hq
    · rename_i next hq
      rw [(Prod.mk.inj (hn.symm.trans hq)).2]
    · rename_i other next hq
      simp [hn] at hq

theorem holds_left_parse (limit : UInt32) (bs : Octets) :
    Holds limit (parse limit bs).rest (left limit (parse limit bs)) :=
  holds_left (parse_splits limit bs).stuck

theorem Holds.drain (hd : Holds limit bs d) :
    ∃ e, d.drain = ((parse limit bs).packets, (parse limit bs).fault, e) ∧
      Holds limit (parse limit bs).rest e :=
  ⟨_, hd.drain_eq, holds_left_parse limit bs⟩

/-- The octets of a header that has been taken are not buffered any more. -/
theorem length_left {r : Parse} (hr : r.fault = none) :
    (left limit r).length =
      if r.rest.length < Header.size then r.rest.length else r.rest.length - Header.size := by
  cases hdecode : Header.decode? r.rest with
  | none =>
    have hlt := Header.decode?_eq_none_iff.mp hdecode
    simp only [left, hr, hdecode, length, hlt, if_true]
  | some h =>
    have hle : ¬r.rest.length < Header.size := by
      rw [← Header.decode?_eq_none_iff, hdecode]
      exact Option.some_ne_none h
    simp only [left, hr, hdecode, length, hle, if_false, List.length_drop]

end PacketBus.Deframer
