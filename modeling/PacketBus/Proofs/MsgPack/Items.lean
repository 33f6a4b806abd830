import PacketBus.MsgPack.Reader
import PacketBus.MsgPack.Writer
import PacketBus.Proofs.Text.Utf8

/-! # MessagePack items as they are written

Numbers and lengths are written in the first form that holds them. Whichever it is, the marker and
what comes right after it are read as the same item, whatever follows.
-/
namespace PacketBus.MsgPack

/-- Octets that a marker starts and that are read as an item. -/
def Encodes (bs : Octets) (m : Marker) (item : Item) : Prop :=
  ∃ b body, bs = b :: body ∧ Marker.ofOctet b = m ∧
    ∀ rest, readItem m (body ++ rest) = .ok (item, rest)

/-- What a marker alone tells. -/
theorem encodes_singleton {b : UInt8} {m : Marker} {item : Item} (hm : Marker.ofOctet b = m)
    (hitem : ∀ rest, readItem m rest = .ok (item, rest)) : Encodes [b] m item :=
  ⟨b, [], rfl, hm, hitem⟩

/-! ## Fields -/

theorem readNat_ofNat {width n : Nat} (h : n < Octets.span width) (rest : Octets) :
    readNat width (Octets.ofNat width n ++ rest) = .ok (n, rest) := by
  have hsplit := Octets.split?_append (Octets.ofNat width n) rest
  rw [Octets.length_ofNat] at hsplit
  simp only [readNat, hsplit, Octets.toNat_ofNat, Nat.mod_eq_of_lt h]

theorem readBody_append (body rest : Octets) :
    readBody body.length (body ++ rest) = .ok (body, rest) := by
  simp only [readBody, Octets.split?_append]

/-- A number is written in one of the forms, and its field holds it. -/
theorem sized_eq {n : Nat} (forms : List (UInt8 × Nat))
    (h : ∃ form ∈ forms.getLast?, n < Octets.span form.2) :
    ∃ form ∈ forms, n < Octets.span form.2 ∧
      sized n forms = form.1 :: Octets.ofNat form.2 n := by
  induction forms with
  | nil => simp at h
  | cons form forms ih =>
    cases forms with
    | nil =>
      obtain ⟨last, hlast, hn⟩ := h
      obtain rfl : form = last := by simpa using hlast
      exact ⟨form, by simp, hn, rfl⟩
    | cons next forms =>
      by_cases hn : n < Octets.span form.2
      · refine ⟨form, List.mem_cons_self, hn, ?_⟩
        rw [sized, if_pos hn]
        simp
      · obtain ⟨last, hlast, hlt⟩ := h
        obtain ⟨wider, hmem, hwider, hsized⟩ := ih ⟨last, by simpa using hlast, hlt⟩
        refine ⟨wider, List.mem_cons_of_mem _ hmem, hwider, ?_⟩
        rw [sized, if_neg hn, hsized]
        simp

/-! ## Markers that hold a number -/

section
variable {n : Nat}

theorem ofOctet_fixPos (hn : n < 0x80) : Marker.ofOctet (UInt8.ofNat n) = .fixPos n := by
  have htoNat : (UInt8.ofNat n).toNat = n :=
    UInt8.toNat_ofNat_of_lt' (show n < 0x100 by omega)
  simp only [Marker.ofOctet, htoNat]
  rw [if_pos hn]

theorem ofOctet_fixMap (hn : n < 0x10) : Marker.ofOctet (UInt8.ofNat (0x80 + n)) = .fixMap n := by
  have htoNat : (UInt8.ofNat (0x80 + n)).toNat = 0x80 + n :=
    UInt8.toNat_ofNat_of_lt' (show 0x80 + n < 0x100 by omega)
  simp only [Marker.ofOctet, htoNat]
  rw [if_neg (by omega), if_pos (by omega), Nat.add_sub_cancel_left]

theorem ofOctet_fixArray (hn : n < 0x10) :
    Marker.ofOctet (UInt8.ofNat (0x90 + n)) = .fixArray n := by
  have htoNat : (UInt8.ofNat (0x90 + n)).toNat = 0x90 + n :=
    UInt8.toNat_ofNat_of_lt' (show 0x90 + n < 0x100 by omega)
  simp only [Marker.ofOctet, htoNat]
  rw [if_neg (by omega), if_neg (by omega), if_pos (by omega), Nat.add_sub_cancel_left]

theorem ofOctet_fixStr (hn : n < 0x20) : Marker.ofOctet (UInt8.ofNat (0xA0 + n)) = .fixStr n := by
  have htoNat : (UInt8.ofNat (0xA0 + n)).toNat = 0xA0 + n :=
    UInt8.toNat_ofNat_of_lt' (show 0xA0 + n < 0x100 by omega)
  simp only [Marker.ofOctet, htoNat]
  rw [if_neg (by omega), if_neg (by omega), if_neg (by omega), if_pos (by omega),
    Nat.add_sub_cancel_left]

theorem ofOctet_fixNeg {i : Int} (hlow : -0x20 ≤ i) (hhigh : i < 0) :
    Marker.ofOctet (UInt8.ofNat (i + 0x100).toNat) = .fixNeg i := by
  have htoNat : (UInt8.ofNat (i + 0x100).toNat).toNat = (i + 0x100).toNat :=
    UInt8.toNat_ofNat_of_lt' (show (i + 0x100).toNat < 0x100 by omega)
  simp only [Marker.ofOctet, htoNat]
  iterate 17 rw [if_neg (by omega)]
  congr 1
  omega

end

/-! ## Items -/

section
variable {width n : Nat} {bs body rest : Octets}

theorem readItem_unsigned (h : readNat width bs = .ok (n, rest)) :
    readItem (.unsigned width) bs = .ok (.unsigned n, rest) := by
  simp only [readItem, h]
  rfl

theorem readItem_array (h : readNat width bs = .ok (n, rest)) :
    readItem (.array width) bs = .ok (.array n, rest) := by
  simp only [readItem, h]
  rfl

theorem readItem_map (h : readNat width bs = .ok (n, rest)) :
    readItem (.map width) bs = .ok (.map n, rest) := by
  simp only [readItem, h]
  rfl

theorem readItem_str (h : readNat width bs = .ok (body.length, body ++ rest)) :
    readItem (.str width) bs = .ok (.string body, rest) := by
  have hbody := readBody_append body rest
  simp only [readItem, h]
  exact congrArg (· >>= fun x => Except.ok (Item.string x.1, x.2)) hbody

theorem readItem_bin (h : readNat width bs = .ok (body.length, body ++ rest)) :
    readItem (.bin width) bs = .ok (.octets body, rest) := by
  have hbody := readBody_append body rest
  simp only [readItem, h]
  exact congrArg (· >>= fun x => Except.ok (Item.octets x.1, x.2)) hbody

end

section
variable {n : Nat} {forms : List (UInt8 × Nat)} {marker : Nat → Marker} {item : Item}

/-- Whichever width a number takes, the marker tells it, and the item that the number starts is
found behind the number. -/
theorem encodes_sized (hmarker : ∀ form ∈ forms, Marker.ofOctet form.1 = marker form.2)
    (hfits : ∃ form ∈ forms.getLast?, n < Octets.span form.2) (body : Octets)
    (hitem : ∀ width bs rest, readNat width bs = .ok (n, body ++ rest) →
      readItem (marker width) bs = .ok (item, rest)) :
    ∃ width, Encodes (sized n forms ++ body) (marker width) item := by
  obtain ⟨form, hform, hlt, heq⟩ := sized_eq forms hfits
  refine ⟨form.2, form.1, Octets.ofNat form.2 n ++ body, ?_, hmarker form hform, ?_⟩
  · rw [heq, List.cons_append]
  · intro rest
    rw [List.append_assoc]
    exact hitem form.2 _ rest (readNat_ofNat hlt (body ++ rest))

/-- Where nothing is behind the number, it tells the item. -/
theorem encodes_sized_alone (hmarker : ∀ form ∈ forms, Marker.ofOctet form.1 = marker form.2)
    (hfits : ∃ form ∈ forms.getLast?, n < Octets.span form.2)
    (hitem : ∀ width bs rest, readNat width bs = .ok (n, rest) →
      readItem (marker width) bs = .ok (item, rest)) :
    ∃ width, Encodes (sized n forms) (marker width) item := by
  have hwidth := encodes_sized hmarker hfits [] hitem
  rwa [List.append_nil] at hwidth

end

theorem encodes_natural {n : Nat} (hn : n < Octets.span 8) :
    ∃ m : Marker, m.isPlain = true ∧ m ≠ .nil ∧ Encodes (natural n) m (.unsigned n) := by
  unfold natural
  by_cases hsmall : n < 0x80
  · rw [if_pos hsmall]
    exact ⟨.fixPos n, rfl, nofun, encodes_singleton (ofOctet_fixPos hsmall) fun _ => rfl⟩
  · rw [if_neg hsmall]
    have hmarker : ∀ form ∈ [(0xCC, 1), (0xCD, 2), (0xCE, 4), (0xCF, 8)],
        Marker.ofOctet form.1 = .unsigned form.2 := by decide
    obtain ⟨width, hsized⟩ := encodes_sized_alone hmarker ⟨_, rfl, hn⟩ fun _ _ _ =>
      readItem_unsigned
    exact ⟨.unsigned width, rfl, nofun, hsized⟩

/-- A negative number has a field that tells it by its two's complement. -/
theorem twosComplement_add_span {width : Nat} {i : Int} (hneg : i < 0)
    (hlow : -(Octets.span width : Int) ≤ 2 * i) :
    twosComplement width (i + Octets.span width).toNat = i ∧
      (i + Octets.span width).toNat < Octets.span width := by
  unfold twosComplement
  rw [if_neg (by omega)]
  omega

theorem encodes_signed {b : UInt8} {width : Nat} {i : Int}
    (hb : Marker.ofOctet b = .signed width) (hneg : i < 0)
    (hlow : -(Octets.span width : Int) ≤ 2 * i) :
    Encodes (b :: Octets.ofNat width (i + Octets.span width).toNat) (.signed width)
      (.signed i) := by
  obtain ⟨htwos, hlt⟩ := twosComplement_add_span hneg hlow
  refine ⟨_, _, rfl, hb, ?_⟩
  intro rest
  simp only [readItem, readNat_ofNat hlt]
  exact congrArg (fun j => Except.ok (Item.signed j, rest)) htwos

theorem encodes_negative {i : Int} (hneg : i < 0) (hlow : -0x8000000000000000 ≤ i) :
    ∃ m : Marker, m.isPlain = true ∧ m ≠ .nil ∧ Encodes (negative i) m (.signed i) := by
  have hspan : Octets.span 1 = 0x100 ∧ Octets.span 2 = 0x10000 ∧ Octets.span 4 = 0x100000000 ∧
    Octets.span 8 = 0x10000000000000000 := ⟨rfl, rfl, rfl, rfl⟩
  unfold negative
  by_cases hfix : -0x20 ≤ i
  · rw [if_pos hfix]
    exact ⟨.fixNeg i, rfl, nofun, encodes_singleton (ofOctet_fixNeg hfix hneg) fun _ => rfl⟩
  rw [if_neg hfix]
  by_cases hone : -0x80 ≤ i
  · rw [if_pos hone]
    exact ⟨.signed 1, rfl, nofun, encodes_signed rfl hneg (by omega)⟩
  rw [if_neg hone]
  by_cases htwo : -0x8000 ≤ i
  · rw [if_pos htwo]
    exact ⟨.signed 2, rfl, nofun, encodes_signed rfl hneg (by omega)⟩
  rw [if_neg htwo]
  by_cases hfour : -0x80000000 ≤ i
  · rw [if_pos hfour]
    exact ⟨.signed 4, rfl, nofun, encodes_signed rfl hneg (by omega)⟩
  · rw [if_neg hfour]
    exact ⟨.signed 8, rfl, nofun, encodes_signed rfl hneg (by omega)⟩

theorem encodes_string {bs : Octets} (h : bs.length < UInt32.size) :
    ∃ m : Marker, m ≠ .nil ∧ Encodes (string bs) m (.string bs) := by
  unfold string
  dsimp only
  by_cases hsmall : bs.length < 0x20
  · rw [if_pos hsmall]
    refine ⟨.fixStr bs.length, nofun, _, bs, rfl, ofOctet_fixStr hsmall, ?_⟩
    intro rest
    simp only [readItem, readBody_append]
    rfl
  · rw [if_neg hsmall]
    have hmarker : ∀ form ∈ [(0xD9, 1), (0xDA, 2), (0xDB, 4)],
        Marker.ofOctet form.1 = .str form.2 := by decide
    obtain ⟨width, hsized⟩ :=
      encodes_sized hmarker ⟨_, rfl, h⟩ bs fun _ _ _ => readItem_str
    exact ⟨.str width, nofun, hsized⟩

theorem encodes_octets {bs : Octets} (h : bs.length < UInt32.size) :
    ∃ m : Marker, m ≠ .nil ∧ Encodes (octets bs) m (.octets bs) := by
  have hmarker : ∀ form ∈ [(0xC4, 1), (0xC5, 2), (0xC6, 4)],
      Marker.ofOctet form.1 = .bin form.2 := by decide
  obtain ⟨width, hsized⟩ := encodes_sized hmarker ⟨_, rfl, h⟩ bs fun _ _ _ => readItem_bin
  exact ⟨.bin width, nofun, hsized⟩

theorem encodes_arrayHead {n : Nat} (h : n < UInt32.size) :
    ∃ m : Marker, m ≠ .nil ∧ Encodes (arrayHead n) m (.array n) := by
  unfold arrayHead
  by_cases hsmall : n < 0x10
  · rw [if_pos hsmall]
    exact ⟨.fixArray n, nofun, encodes_singleton (ofOctet_fixArray hsmall) fun _ => rfl⟩
  · rw [if_neg hsmall]
    have hmarker : ∀ form ∈ [(0xDC, 2), (0xDD, 4)], Marker.ofOctet form.1 = .array form.2 := by
      decide
    obtain ⟨width, hsized⟩ := encodes_sized_alone hmarker ⟨_, rfl, h⟩ fun _ _ _ =>
      readItem_array
    exact ⟨.array width, nofun, hsized⟩

theorem encodes_mapHead {n : Nat} (h : n < UInt32.size) :
    ∃ m : Marker, m ≠ .nil ∧ Encodes (mapHead n) m (.map n) := by
  unfold mapHead
  by_cases hsmall : n < 0x10
  · rw [if_pos hsmall]
    exact ⟨.fixMap n, nofun, encodes_singleton (ofOctet_fixMap hsmall) fun _ => rfl⟩
  · rw [if_neg hsmall]
    have hmarker : ∀ form ∈ [(0xDE, 2), (0xDF, 4)], Marker.ofOctet form.1 = .map form.2 := by
      decide
    obtain ⟨width, hsized⟩ := encodes_sized_alone hmarker ⟨_, rfl, h⟩ fun _ _ _ =>
      readItem_map
    exact ⟨.map width, nofun, hsized⟩

end PacketBus.MsgPack
