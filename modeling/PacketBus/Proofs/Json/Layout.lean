import PacketBus.Json.Reader
import PacketBus.Json.Writer
import PacketBus.Proofs.Json.Number
import PacketBus.Proofs.Json.Text

/-! # The punctuation that is written

What is written has no blanks between its values, so the commas and brackets of a list or an object
are found right where they were put, and no value runs on into them.
-/
namespace PacketBus.Json

/-- Octets that start as a value does: with no blank and not with what closes a list. -/
def Opens (bs : Octets) : Prop := ∃ b rest, bs = b :: rest ∧ isBlank b = false ∧ b ≠ 0x5D

/-- Octets that start as a value does that is not null. -/
def Solid (bs : Octets) : Prop :=
  ∃ b rest, bs = b :: rest ∧ isBlank b = false ∧ b ≠ 0x5D ∧ b ≠ 0x6E

theorem Solid.opens {bs : Octets} (h : Solid bs) : Opens bs := by
  obtain ⟨b, rest, hbs, hblank, hclose, -⟩ := h
  exact ⟨b, rest, hbs, hblank, hclose⟩

theorem Opens.ne_nil {bs : Octets} (h : Opens bs) : bs ≠ [] := by
  obtain ⟨b, rest, rfl, -⟩ := h
  exact List.cons_ne_nil b rest

theorem Opens.append {bs : Octets} (h : Opens bs) (cs : Octets) : Opens (bs ++ cs) := by
  obtain ⟨b, rest, rfl, hb⟩ := h
  exact ⟨b, rest ++ cs, rfl, hb⟩

theorem Opens.skipBlank_eq {bs : Octets} (h : Opens bs) : skipBlank bs = bs := by
  obtain ⟨b, rest, rfl, hblank, -⟩ := h
  simp [skipBlank, hblank]

/-! ## Items between commas -/

/-- The comma in front of an item. The first has none. -/
def comma (first : Bool) : Octets := if first then [] else [0x2C]

def separated : (first : Bool) → List Octets → Octets
  | _, [] => []
  | first, item :: items => comma first ++ item ++ separated false items

theorem intercalate_eq_separated (items : List Octets) :
    [0x2C].intercalate items = separated true items := by
  induction items with
  | nil => rfl
  | cons item items ih =>
    cases items with
    | nil => simp [separated, comma]
    | cons next items =>
      rw [List.intercalate_cons_cons, ih]
      simp [separated, comma]

theorem list_eq (items : List Octets) : list items = 0x5B :: (separated true items ++ [0x5D]) := by
  rw [list, intercalate_eq_separated, List.cons_append]

theorem object_eq (entries : List Octets) :
    object entries = 0x7B :: (separated true entries ++ [0x7D]) := by
  rw [object, intercalate_eq_separated, List.cons_append]

theorem stops_separated (items : List Octets) {bs : Octets} (h : Stops bs) :
    Stops (separated false items ++ bs) := by
  cases items with
  | nil => exact h
  | cons item items => exact stops_cons (by decide) _

/-- So there is fuel for all items. -/
theorem length_le_separated (first : Bool) {items : List Octets} (h : ∀ item ∈ items, item ≠ []) :
    items.length ≤ (separated first items).length := by
  induction items generalizing first with
  | nil => exact Nat.zero_le _
  | cons item items ih =>
    have hitem : 0 < item.length := List.length_pos_iff.mpr (h item List.mem_cons_self)
    have hitems := ih false fun next hnext => h next (List.mem_cons_of_mem _ hnext)
    simp only [separated, List.length_append, List.length_cons]
    omega

theorem nextItem?_comma (first : Bool) {bs : Octets} (h : Opens bs) :
    nextItem? first (comma first ++ bs) = .ok (some bs) := by
  have hskip := h.skipBlank_eq
  obtain ⟨b, rest, rfl, hblank, hclose⟩ := h
  cases first with
  | true =>
    change nextItem? true (b :: rest) = _
    simp [nextItem?, hskip, hclose]
  | false =>
    change nextItem? false (0x2C :: b :: rest) = _
    have hcomma : skipBlank (0x2C :: b :: rest) = 0x2C :: b :: rest := rfl
    simp [nextItem?, hcomma, hskip, hclose]

theorem nextItem?_close (first : Bool) (rest : Octets) :
    nextItem? first (0x5D :: rest) = .ok none := rfl

theorem nextKey?_comma (first : Bool) (bs : Octets) :
    nextKey? first (comma first ++ 0x22 :: bs) = .ok (some bs) := by
  cases first <;> rfl

theorem nextKey?_close (first : Bool) (rest : Octets) :
    nextKey? first (0x7D :: rest) = .ok none := rfl

end PacketBus.Json
