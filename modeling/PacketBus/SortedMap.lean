/-! # Maps in key order

A finite map, held as its entries by increasing key. Insertion replaces the value of a key that is
present, so a key has one entry.
-/
namespace PacketBus

structure SortedMap (α β : Type) [Ord α] where
  entries : List (α × β)
  increasing : entries.Pairwise (fun a b => compare a.1 b.1 = .lt)

namespace SortedMap
variable {α β : Type} [Ord α]

def empty : SortedMap α β := ⟨[], .nil⟩

instance : Inhabited (SortedMap α β) := ⟨empty⟩
instance : EmptyCollection (SortedMap α β) := ⟨empty⟩

def size (m : SortedMap α β) : Nat := m.entries.length
def isEmpty (m : SortedMap α β) : Bool := m.entries.isEmpty
def keys (m : SortedMap α β) : List α := m.entries.map Prod.fst
def get? (m : SortedMap α β) (k : α) : Option β :=
  (m.entries.find? fun e => compare k e.1 == .eq).map Prod.snd
def contains (m : SortedMap α β) (k : α) : Bool := (m.get? k).isSome

@[simp] theorem get?_empty (k : α) : (empty : SortedMap α β).get? k = none := rfl

/-- The entry goes before the first greater key. -/
def insertEntry (k : α) (v : β) : List (α × β) → List (α × β)
  | [] => [(k, v)]
  | e :: rest =>
    match compare k e.1 with
    | .lt => (k, v) :: e :: rest
    | .eq => (k, v) :: rest
    | .gt => e :: insertEntry k v rest

theorem mem_insertEntry {k : α} {v : β} {e : α × β} {es : List (α × β)}
    (h : e ∈ insertEntry k v es) : e = (k, v) ∨ e ∈ es := by
  induction es with
  | nil => simpa [insertEntry] using h
  | cons d es ih =>
    unfold insertEntry at h
    split at h <;> grind

theorem insertEntry_increasing [Std.TransOrd α] (k : α) (v : β) {es : List (α × β)}
    (h : es.Pairwise (fun a b => compare a.1 b.1 = .lt)) :
    (insertEntry k v es).Pairwise (fun a b => compare a.1 b.1 = .lt) := by
  induction es with
  | nil => simp [insertEntry]
  | cons d es ih =>
    obtain ⟨hd, hes⟩ := List.pairwise_cons.mp h
    unfold insertEntry
    split
    · rename_i hlt
      refine List.pairwise_cons.mpr ⟨fun e he => ?_, h⟩
      rcases List.mem_cons.mp he with rfl | he
      · exact hlt
      · exact Std.TransCmp.lt_trans hlt (hd e he)
    · rename_i heq
      refine List.pairwise_cons.mpr ⟨fun e he => ?_, hes⟩
      exact Std.TransCmp.lt_of_eq_of_lt heq (hd e he)
    · rename_i hgt
      refine List.pairwise_cons.mpr ⟨fun e he => ?_, ih hes⟩
      rcases mem_insertEntry he with rfl | he
      · exact Std.OrientedCmp.lt_of_gt hgt
      · exact hd e he

variable [Std.TransOrd α]

def insert (m : SortedMap α β) (k : α) (v : β) : SortedMap α β :=
  ⟨insertEntry k v m.entries, insertEntry_increasing k v m.increasing⟩

theorem find?_insertEntry_of_eq {j k : α} (h : compare j k = .eq) (v : β) (es : List (α × β)) :
    (insertEntry k v es).find? (fun e => compare j e.1 == .eq) = some (k, v) := by
  induction es with
  | nil => simp [insertEntry, h]
  | cons d es ih =>
    unfold insertEntry
    split
    · simp [h]
    · simp [h]
    · rename_i hgt
      have hj : compare j d.1 = .gt := Std.TransCmp.gt_of_eq_of_gt h hgt
      simp [hj, ih]

theorem find?_insertEntry_of_ne {j k : α} (h : compare j k ≠ .eq) (v : β) (es : List (α × β)) :
    (insertEntry k v es).find? (fun e => compare j e.1 == .eq) =
      es.find? (fun e => compare j e.1 == .eq) := by
  induction es with
  | nil => simp [insertEntry, h]
  | cons d es ih =>
    unfold insertEntry
    split
    · simp [h]
    · rename_i heq
      have hj : compare j d.1 ≠ .eq := fun hd =>
        h (Std.TransCmp.eq_trans hd (Std.OrientedCmp.eq_symm heq))
      simp [h, hj]
    · simp only [List.find?_cons, ih]

theorem get?_insert [Std.LawfulEqOrd α] [DecidableEq α] (m : SortedMap α β) (k j : α) (v : β) :
    (m.insert k v).get? j = if j = k then some v else m.get? j := by
  by_cases h : j = k
  · subst h
    simp [get?, insert, find?_insertEntry_of_eq (Std.ReflCmp.compare_self)]
  · have hc : compare j k ≠ .eq := fun he => h (Std.LawfulEqCmp.eq_of_compare he)
    simp [get?, insert, find?_insertEntry_of_ne hc, h]

/-- A key has one entry. -/
theorem eq_of_compare_eq {es : List (α × β)} (h : es.Pairwise (fun a b => compare a.1 b.1 = .lt))
    {a b : α × β} (ha : a ∈ es) (hb : b ∈ es) (hab : compare a.1 b.1 = .eq) : a = b := by
  induction es with
  | nil => simp at ha
  | cons e es ih =>
    obtain ⟨he, hes⟩ := List.pairwise_cons.mp h
    rcases List.mem_cons.mp ha with rfl | hamem
    · rcases List.mem_cons.mp hb with rfl | hbmem
      · rfl
      · simp [he b hbmem] at hab
    · rcases List.mem_cons.mp hb with rfl | hbmem
      · have hba := Std.OrientedCmp.eq_symm hab
        simp [he a hamem] at hba
      · exact ih hes hamem hbmem

theorem get?_eq_some_iff [Std.LawfulEqOrd α] {m : SortedMap α β} {k : α} {v : β} :
    m.get? k = some v ↔ (k, v) ∈ m.entries := by
  constructor
  · intro h
    simp only [get?, Option.map_eq_some_iff] at h
    obtain ⟨e, hf, rfl⟩ := h
    have hk : k = e.1 := by simpa using List.find?_some hf
    rw [hk]
    exact List.mem_of_find?_eq_some hf
  · intro h
    cases hf : m.entries.find? fun e => compare k e.1 == .eq with
    | none => simpa using List.find?_eq_none.mp hf _ h
    | some e =>
      have he := eq_of_compare_eq m.increasing h (List.mem_of_find?_eq_some hf)
        (by simpa using List.find?_some hf)
      simp only [get?, hf, Option.map_some, ← he]

/-- Of entries with one key the last counts. -/
def ofList (es : List (α × β)) : SortedMap α β := es.foldl (fun m e => m.insert e.1 e.2) empty

end SortedMap
end PacketBus
