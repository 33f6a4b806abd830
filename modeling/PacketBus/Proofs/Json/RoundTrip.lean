import PacketBus.Codec
import PacketBus.Proofs.Json.Scalars

/-! # Values come back from JSON

What a value is written as is read as that value, unless more of a number follows. This goes over
from the fields, items and entries to what is made of them, as far as names lead to one field only
and what may be left out is not written as null.
-/
namespace PacketBus.Json

variable {α : Type}

/-- What a value of the schema is written as is read as that value. -/
def ReadsBack (s : Schema) (v : s.Value) : Prop :=
  s.isFaithful = true → ∀ depth, s.nesting < depth → Reads (readAt s depth) (write s v) v

/-! ## How values start -/

theorem solid_variant : (vs : Variants) → (v : vs.Value) → Solid (writeVariant vs v)
  | .nil, v => Empty.elim v
  | .bare variant _, .inl _ => solid_text variant
  | .carrying _ _ _ _, .inl _ => solid_object _
  | .bare _ rest, .inr v | .carrying _ _ _ rest, .inr v => solid_variant rest v

/-- Values of a schema that always has something to write do not start as null. -/
theorem solid_write {s : Schema} (hsolid : s.isSolid = true) (v : s.Value) : Solid (write s v) := by
  cases s with
  | scalar s => exact solid_scalar hsolid v
  | option s => simp [Schema.isSolid] at hsolid
  | seq s => exact solid_list _
  | tuple name items => exact solid_list _
  | record title strict fields => exact solid_object _
  | map k s => exact solid_object _
  | choice name variants => exact solid_variant variants v

theorem opens_write {s : Schema} (hfaithful : s.isFaithful = true) (v : s.Value) :
    Opens (write s v) := by
  cases s with
  | scalar s => exact opens_scalar hfaithful v
  | option s =>
    obtain ⟨hsolid, -⟩ := Schema.isFaithful_option_iff.mp hfaithful
    cases v with
    | none => exact opens_null
    | some w => exact (solid_write hsolid w).opens
  | seq s => exact (solid_list _).opens
  | tuple name items => exact (solid_list _).opens
  | record title strict fields => exact (solid_object _).opens
  | map k s => exact (solid_object _).opens
  | choice name variants => exact (solid_variant variants v).opens

theorem reads_option {read : Reader α} {bs : Octets} {v : α} (hsolid : Solid bs)
    (h : Reads read bs v) : Reads (readOption read) bs (some v) := by
  intro rest hrest
  have hread := h rest hrest
  have hskip := (hsolid.opens.append rest).skipBlank_eq
  obtain ⟨b, bs, rfl, -, -, hnull⟩ := hsolid
  rw [List.cons_append] at hread hskip ⊢
  unfold readOption
  rw [hskip]
  split
  · rename_i heq
    exact absurd (List.cons.inj heq).1 hnull
  · rw [hread]
    rfl

theorem readsBack_option (s : Schema) (v : Option s.Value) (h : ∀ w, v = some w → ReadsBack s w) :
    ReadsBack (.option s) v := by
  intro hfaithful depth hdepth
  obtain ⟨hsolid, hs⟩ := Schema.isFaithful_option_iff.mp hfaithful
  cases v with
  | none => exact fun _ _ => rfl
  | some w => exact reads_option (solid_write hsolid w) (h w rfl hs depth hdepth)

/-! ## Lists -/

theorem readsBack_seq (s : Schema) (vs : List s.Value) (h : ∀ v ∈ vs, ReadsBack s v) :
    ReadsBack (.seq s) vs := by
  intro hfaithful depth hdepth rest _
  have hdepth : s.nesting + 1 < depth := hdepth
  have hs : s.isFaithful = true := hfaithful
  have hlist := readList_separated (fun v _ => opens_write hs v)
    (fun v hv => h v hv hs (depth - 1) (by omega)) rest
  rw [write, list_eq, List.cons_append, List.append_assoc, List.singleton_append]
  change enter depth >>= (fun depth => readList (readAt s depth) _) = _
  rw [enter_of_lt (by omega), ok_bind, hlist]

/-- The next item goes in front of what is read of the others. -/
theorem reads_next {β : Type} {missing : Except Fault α} {read : Reader α} {item : Octets} {v : α}
    (hopens : Opens item) (hv : Reads read item v) {more : Reader β} {items : List Octets} {vs : β}
    (hvs : Reads more (separated false items) vs) (first : Bool) :
    Reads (fun bs => do
      let (v, bs) ← readNext missing read first bs
      let (vs, bs) ← more bs
      return ((v, vs), bs)) (separated first (item :: items)) (v, vs) := by
  intro rest hrest
  have hnext := nextItem?_comma first (hopens.append (separated false items ++ rest))
  have hv := hv _ (stops_separated items hrest)
  simp only [separated, List.append_assoc, readNext, hnext, ok_bind, hv]
  exact congrArg (fun r => r >>= fun x => Except.ok ((v, x.1), x.2)) (hvs rest hrest)

theorem reads_items : (r : Row) → (vs : r.Values) → r.isFaithful = true → r.All ReadsBack vs →
    (depth : Nat) → r.nesting < depth → (expected : String) → (index : Nat) →
    Reads (readItems r depth expected index) (separated (index = 0) (writeItems r vs)) vs
  | .nil, _, _, _, _, _, _, _ => fun _ _ => rfl
  | .required _ s rest, (v, vs), hfaithful, hall, depth, hdepth, expected, index => by
    obtain ⟨hs, hrest⟩ := Row.isFaithful_required_iff.mp hfaithful
    have hdepth : max s.nesting rest.nesting < depth := hdepth
    have hv := hall.1 hs depth (by omega)
    have hvs := reads_items rest vs hrest hall.2 depth (by omega) expected (index + 1)
    exact reads_next (opens_write hs v) hv hvs _
  | .orZero _ k rest, (v, vs), hfaithful, hall, depth, hdepth, expected, index => by
    have hvs := reads_items rest vs hfaithful hall.2 depth hdepth expected (index + 1)
    exact reads_next (solid_integer v.val).opens (reads_integer v) hvs _
  | .orNone _ s rest, (v, vs), hfaithful, hall, depth, hdepth, expected, index => by
    obtain ⟨hs, hrest⟩ := Row.isFaithful_orNone_iff.mp hfaithful
    have hdepth : max s.nesting rest.nesting < depth := hdepth
    have hv := hall.1 hs depth (by simp only [Schema.nesting]; omega)
    have hvs := reads_items rest vs hrest hall.2 depth (by omega) expected (index + 1)
    exact reads_next (opens_write hs v) hv hvs _

theorem readsBack_tuple (name : TupleName) (items : Row) (vs : items.Values)
    (h : items.All ReadsBack vs) : ReadsBack (.tuple name items) vs := by
  intro hfaithful depth hdepth rest _
  obtain ⟨-, hitems⟩ := Schema.isFaithful_tuple_iff.mp hfaithful
  have hdepth : items.nesting + 1 < depth := hdepth
  have hclose : Stops (0x5D :: rest) := stops_cons (by decide) rest
  have hvs := reads_items items vs hitems h (depth - 1) (by omega) (name.counted items.length) 0
    (0x5D :: rest) hclose
  rw [write, list_eq, List.cons_append, List.append_assoc, List.singleton_append]
  change enter depth >>= (fun depth =>
    readItems items depth (name.counted items.length) 0 _ >>= _) = _
  rw [enter_of_lt (by omega), ok_bind]
  exact congrArg (fun r => r >>= fun x => endList x.2 >>= fun bs => Except.ok (x.1, bs)) hvs

/-! ## Records and maps -/

section
variable {β : Type} {read : Reader α} {bs : Octets} {v : α}

theorem Reads.map (h : Reads read bs v) (f : α → β) :
    Reads (fun bs => do
      let (a, bs) ← read bs
      return (f a, bs)) bs (f v) := by
  intro rest hrest
  simp only [h rest hrest, ok_bind]
  rfl

/-- A value behind its colon. -/
theorem Reads.fill (h : Reads read bs v) (field : String) :
    Reads (fillSlot field read none) (0x3A :: bs) (some v) :=
  h.map some

end

theorem reads_ident {s : String} {resolve : Ident → Except Mismatch α} {a : α}
    (hresolve : resolve (.name (Utf8.encode s)) = .ok a) :
    Reads (readIdent resolve) (closedText s) a := by
  intro rest _
  rw [readIdent, readText_closedText, ok_bind]
  simp only [hresolve, mapError_ok, ok_bind]
  rfl

theorem length_lt_fuel {items : List Octets} (h : ∀ item ∈ items, item ≠ []) (rest : Octets) :
    items.length < (separated true items ++ rest).length + 1 := by
  have hlength := length_le_separated true h
  rw [List.length_append]
  omega

/-- An entry, up to the quote that opens its key and from there on. -/
theorem separated_entry (first : Bool) (key value : Octets) (items : List Octets) (rest : Octets) :
    separated first (entry (0x22 :: key) value :: items) ++ rest =
      comma first ++ 0x22 :: (key ++ 0x3A :: (value ++ (separated false items ++ rest))) := by
  simp [separated, entry]

section
variable {depth : Nat} {name : Reader (Option Nat)} {fill : Nat → α → Reader α}
  {names : List String}

/-- An entry for the field at the front of what the record ends with fills the slot of that
field. -/
theorem readFields_entry
    (hname : ∀ i field, names[i]? = some field → Reads name (closedText field) (some i))
    {k : Nat} {r : Row} {put : r.Slots → α}
    (hends : Row.Ends (fun r => readField r depth) fill names k r put) {field : String}
    {others : List String} (hfield : r.names = field :: others) {slots slots' : r.Slots}
    {value : Octets} (hvalue : Reads (readField r depth 0 slots) (0x3A :: value) slots')
    (first : Bool) (fuel : Nat) (items : List Octets) (rest : Octets) :
    readFields name fill (fuel + 1) first (put slots)
        (separated first (entry (writeText field) value :: items) ++ 0x7D :: rest) =
      readFields name fill fuel false (put slots') (separated false items ++ 0x7D :: rest) := by
  have hmore : Stops (separated false items ++ 0x7D :: rest) :=
    stops_separated items (stops_cons (by decide) rest)
  have hkey := hname k field (hends.getElem?_eq hfield)
    (0x3A :: (value ++ (separated false items ++ 0x7D :: rest))) (stops_cons (by decide) _)
  have hfill := hends.fill_eq 0 slots (0x3A :: value ++ (separated false items ++ 0x7D :: rest))
  rw [hvalue _ hmore, ok_bind, Nat.add_zero, List.cons_append] at hfill
  rw [writeText_eq, separated_entry, readFields, nextKey?_comma]
  simp only [hkey]
  rw [hfill]
  rfl

/-- Each field that is written is found by its name and read into its slot. -/
theorem readFields_separated (depth : Nat)
    (hname : ∀ i field, names[i]? = some field → Reads name (closedText field) (some i)) :
    (r : Row) → (vs : r.Values) → r.isFaithful = true → r.All ReadsBack vs → r.nesting < depth →
    {k : Nat} → {put : r.Slots → α} →
    Row.Ends (fun r => readField r depth) fill names k r put →
    (fuel : Nat) → (writeFields r vs).length < fuel → (first : Bool) → (rest : Octets) →
    readFields name fill fuel first (put r.emptySlots)
        (separated first (writeFields r vs) ++ 0x7D :: rest) =
      .ok (put (r.filled vs), 0x7D :: rest)
  | .nil, _, _, _, _, _, _, _, fuel + 1, _, first, rest => by
    simp only [writeFields, separated, List.nil_append, readFields, nextKey?_close]
  | .required field s others, (v, vs), hfaithful, hall, hdepth, _, _, hends, fuel + 1, hfuel,
      first, rest => by
    obtain ⟨hs, hothers⟩ := Row.isFaithful_required_iff.mp hfaithful
    have hdepth : max s.nesting others.nesting < depth := hdepth
    have hread : Reads (readField (.required field s others) depth 0 (none, others.emptySlots))
        (0x3A :: write s v) (some v, others.emptySlots) :=
      ((hall.1 hs depth (by omega)).fill field).map fun slot => (slot, others.emptySlots)
    refine (readFields_entry hname hends rfl hread first fuel _ rest).trans ?_
    exact readFields_separated depth hname others vs hothers hall.2 (by omega)
      (hends.next (fun slots => (some v, slots)) rfl fun _ _ _ => rfl) fuel
      (Nat.lt_of_succ_lt_succ hfuel) false rest
  | .orZero field k others, (v, vs), hfaithful, hall, hdepth, _, _, hends, fuel + 1, hfuel,
      first, rest => by
    have hread : Reads (readField (.orZero field k others) depth 0 (none, others.emptySlots))
        (0x3A :: integer v.val) (some v, others.emptySlots) :=
      ((reads_integer v).fill field).map fun slot => (slot, others.emptySlots)
    refine (readFields_entry hname hends rfl hread first fuel _ rest).trans ?_
    exact readFields_separated depth hname others vs hfaithful hall.2 hdepth
      (hends.next (fun slots => (some v, slots)) rfl fun _ _ _ => rfl) fuel
      (Nat.lt_of_succ_lt_succ hfuel) false rest
  | .orNone field s others, (none, vs), hfaithful, hall, hdepth, _, _, hends, fuel, hfuel,
      first, rest => by
    obtain ⟨-, hothers⟩ := Row.isFaithful_orNone_iff.mp hfaithful
    have hdepth : max s.nesting others.nesting < depth := hdepth
    -- nothing is written, and the slot stays as it is
    exact readFields_separated depth hname others vs hothers hall.2 (by omega)
      (hends.next (fun slots => (none, slots)) rfl fun _ _ _ => rfl) fuel hfuel first rest
  | .orNone field s others, (some v, vs), hfaithful, hall, hdepth, _, _, hends, fuel + 1, hfuel,
      first, rest => by
    obtain ⟨hs, hothers⟩ := Row.isFaithful_orNone_iff.mp hfaithful
    have hdepth : max s.nesting others.nesting < depth := hdepth
    have hv : Reads (readOption (readAt s depth)) (write s v) (some v) :=
      hall.1 hs depth (by simp only [Schema.nesting]; omega)
    have hread : Reads (readField (.orNone field s others) depth 0 (none, others.emptySlots))
        (0x3A :: write s v) (some (some v), others.emptySlots) :=
      (hv.fill field).map fun slot => (slot, others.emptySlots)
    refine (readFields_entry hname hends rfl hread first fuel _ rest).trans ?_
    exact readFields_separated depth hname others vs hothers hall.2 (by omega)
      (hends.next (fun slots => (some (some v), slots)) rfl fun _ _ _ => rfl) fuel
      (Nat.lt_of_succ_lt_succ hfuel) false rest

end

theorem entry_ne_nil (key value : Octets) : entry key value ≠ [] := by
  simp [entry]

theorem ne_nil_of_mem_writeFields : (r : Row) → (vs : r.Values) →
    ∀ item ∈ writeFields r vs, item ≠ []
  | .nil, _ => nofun
  | .required _ _ rest, (_, vs) =>
    List.forall_mem_cons.mpr ⟨entry_ne_nil _ _, ne_nil_of_mem_writeFields rest vs⟩
  | .orZero _ _ rest, (_, vs) =>
    List.forall_mem_cons.mpr ⟨entry_ne_nil _ _, ne_nil_of_mem_writeFields rest vs⟩
  | .orNone _ _ rest, (none, vs) => ne_nil_of_mem_writeFields rest vs
  | .orNone _ _ rest, (some _, vs) =>
    List.forall_mem_cons.mpr ⟨entry_ne_nil _ _, ne_nil_of_mem_writeFields rest vs⟩

theorem readsBack_record (title : String) (strict : Bool) (fields : Row) (vs : fields.Values)
    (h : fields.All ReadsBack vs) : ReadsBack (.record title strict fields) vs := by
  intro hfaithful depth hdepth rest _
  obtain ⟨hlabels, hfields⟩ := Schema.isFaithful_record_iff.mp hfaithful
  have hdepth : fields.nesting + 1 < depth := hdepth
  have hname : ∀ i field, fields.names[i]? = some field →
      Reads (readIdent (fields.resolve strict)) (closedText field) (some i) := by
    intro i field hfield
    exact reads_ident (Row.resolve_name hlabels.1 hfield strict)
  have hfuel := length_lt_fuel (ne_nil_of_mem_writeFields fields vs) (0x7D :: rest)
  have hvs := readFields_separated (depth - 1) hname fields vs hfields h (by omega)
    fields.ends_self _ hfuel true rest
  rw [write, object_eq, List.cons_append, List.append_assoc, List.singleton_append]
  change enter depth >>= (fun depth => readFields (readIdent (fields.resolve strict))
    (fun i slots bs => readField fields depth i slots bs)
    ((separated true (writeFields fields vs) ++ 0x7D :: rest).length + 1) true fields.emptySlots
    (separated true (writeFields fields vs) ++ 0x7D :: rest) >>= _) = _
  simp only [id_eq] at hvs
  rw [enter_of_lt (by omega), ok_bind, hvs, ok_bind]
  simp only [Row.finish_filled, mapError_ok, ok_bind]
  rfl

section
variable {κ : Type} [Ord κ] [Std.TransOrd κ] {key : Reader κ} {value : Reader α}
  {writeKey : κ → Octets} {write : α → Octets} {es : List (κ × α)}

theorem readEntries_entry {k : κ} {v : α} {bs cs : Octets} (hkey : Reads key bs k)
    (hvalue : Reads value cs v) (first : Bool) (fuel : Nat) (m : SortedMap κ α)
    (items : List Octets) (rest : Octets) :
    readEntries key value (fuel + 1) first m
        (separated first (entry (0x22 :: bs) cs :: items) ++ 0x7D :: rest) =
      readEntries key value fuel false (m.insert k v) (separated false items ++ 0x7D :: rest) := by
  have hmore : Stops (separated false items ++ 0x7D :: rest) :=
    stops_separated items (stops_cons (by decide) rest)
  have hk := hkey (0x3A :: (cs ++ (separated false items ++ 0x7D :: rest)))
    (stops_cons (by decide) _)
  have hcolon : colon (0x3A :: (cs ++ (separated false items ++ 0x7D :: rest))) >>= value =
      .ok (v, separated false items ++ 0x7D :: rest) := hvalue _ hmore
  rw [separated_entry, readEntries, nextKey?_comma]
  simp only [hk]
  rw [hcolon]

theorem readEntries_separated
    (hkey : ∀ e ∈ es, ∃ bs, writeKey e.1 = 0x22 :: bs ∧ Reads key bs e.1)
    (hvalue : ∀ e ∈ es, Reads value (write e.2) e.2) {fuel : Nat} (hfuel : es.length < fuel)
    (first : Bool) (m : SortedMap κ α) (rest : Octets) :
    readEntries key value fuel first m
        (separated first (es.map fun e => entry (writeKey e.1) (write e.2)) ++ 0x7D :: rest) =
      .ok (es.foldl (fun m e => m.insert e.1 e.2) m, 0x7D :: rest) := by
  induction es generalizing fuel first m with
  | nil =>
    obtain ⟨fuel, rfl⟩ := Nat.exists_eq_add_one.mpr hfuel
    simp only [List.map_nil, separated, List.nil_append, readEntries, nextKey?_close]
    rfl
  | cons e es ih =>
    obtain ⟨fuel, rfl⟩ := Nat.exists_eq_add_one.mpr (Nat.zero_lt_of_lt hfuel)
    obtain ⟨bs, hquote, hread⟩ := hkey e List.mem_cons_self
    have hes := ih (fun f hf => hkey f (List.mem_cons_of_mem _ hf))
      (fun f hf => hvalue f (List.mem_cons_of_mem _ hf)) (Nat.lt_of_succ_lt_succ hfuel) false
      (m.insert e.1 e.2)
    rw [List.map_cons, hquote, readEntries_entry hread (hvalue e List.mem_cons_self), hes]
    rfl

end

/-- An integer key ends with its quote. -/
theorem reads_intKey {k : IntKind} (i : FixedInt k) :
    Reads (readIntKey k) (integer i.val ++ [0x22]) i := by
  intro rest _
  have hread := reads_integer i (0x22 :: rest) (stops_cons (by decide) rest)
  obtain ⟨b, bs, hi, hb⟩ := integer_eq_cons i.val
  rw [List.append_assoc, List.singleton_append, readIntKey, hread]
  rw [hi]
  simp only [List.cons_append, List.head?_cons, Option.map_some, hb, Option.getD_some, if_true]
  rfl

theorem reads_key (k : KeyKind) (v : k.Value) :
    ∃ bs, writeKey k v = 0x22 :: bs ∧ Reads (readKey k) bs v := by
  cases k with
  | string => exact ⟨closedText v, rfl, fun rest _ => readText_closedText v rest⟩
  | int k => exact ⟨integer v.val ++ [0x22], rfl, reads_intKey v⟩

theorem readsBack_map (k : KeyKind) (s : Schema) (m : SortedMap k.Value s.Value)
    (h : ∀ e ∈ m.entries, ReadsBack s e.2) : ReadsBack (.map k s) m := by
  intro hfaithful depth hdepth rest _
  have hs : s.isFaithful = true := hfaithful
  have hdepth : s.nesting + 1 < depth := hdepth
  have hkey : ∀ e ∈ m.entries, ∃ bs, writeKey k e.1 = 0x22 :: bs ∧ Reads (readKey k) bs e.1 :=
    fun e _ => reads_key k e.1
  have hvalue : ∀ e ∈ m.entries, Reads (readAt s (depth - 1)) (write s e.2) e.2 :=
    fun e he => h e he hs (depth - 1) (by omega)
  let entries := m.entries.map fun e => entry (writeKey k e.1) (write s e.2)
  have hne : ∀ item ∈ entries, item ≠ [] := by
    intro item hitem
    obtain ⟨e, -, rfl⟩ := List.mem_map.mp hitem
    exact entry_ne_nil _ _
  have hfuel := length_lt_fuel hne (0x7D :: rest)
  rw [List.length_map] at hfuel
  have hes := readEntries_separated hkey hvalue hfuel true .empty rest
  rw [write, object_eq, List.cons_append, List.append_assoc, List.singleton_append]
  change enter depth >>= (fun depth => readEntries (readKey k) (readAt s depth)
    ((separated true entries ++ 0x7D :: rest).length + 1) true .empty
    (separated true entries ++ 0x7D :: rest) >>= _) = _
  rw [enter_of_lt (by omega), ok_bind, hes, ok_bind]
  exact congrArg (fun m => Except.ok (m, rest)) (SortedMap.ofList_entries m)

/-! ## Variants -/

/-- A variant is written as its name alone, or in an object from its name to what it carries. -/
theorem told_variant (depth : Nat) : (vs : Variants) → (v : vs.Value) → vs.isFaithful = true →
    vs.All ReadsBack v → vs.nesting < depth →
    Variants.Told Stops writeText
      (fun variant content => object [entry (writeText variant) content])
      (writeVariant vs v) vs (readContent vs depth) v
  | .nil, v, _, _, _ => nomatch v
  | .bare variant _, .inl _, _, _, _ => ⟨0, variant, rfl, .inl ⟨rfl, rfl⟩⟩
  | .bare _ rest, .inr v, hfaithful, hall, hdepth => by
    have hv := told_variant depth rest v hfaithful hall hdepth
    exact hv.next rfl (fun _ => rfl) fun _ _ => rfl
  | .carrying variant form s rest, .inl v, hfaithful, hall, hdepth => by
    obtain ⟨hs, -⟩ := Variants.isFaithful_carrying_iff.mp hfaithful
    have hdepth : max s.nesting rest.nesting < depth := hdepth
    have hread : Reads (readContent (.carrying variant form s rest) depth 0) (write s v) (.inl v) :=
      (hall hs depth (by omega)).map Sum.inl
    exact ⟨0, variant, rfl, .inr ⟨write s v, rfl, hread⟩⟩
  | .carrying _ _ s rest, .inr v, hfaithful, hall, hdepth => by
    obtain ⟨-, hrest⟩ := Variants.isFaithful_carrying_iff.mp hfaithful
    have hdepth : max s.nesting rest.nesting < depth := hdepth
    have hv := told_variant depth rest v hrest hall (by omega)
    exact hv.next rfl (fun _ => rfl) fun _ _ => rfl

theorem readsBack_choice (name : String) (variants : Variants) (v : variants.Value)
    (h : variants.All ReadsBack v) : ReadsBack (.choice name variants) v := by
  intro hfaithful depth hdepth rest hrest
  obtain ⟨hlabels, hvariants⟩ := Schema.isFaithful_choice_iff.mp hfaithful
  have hdepth : variants.nesting + 1 < depth := hdepth
  obtain ⟨i, variant, hi, htold⟩ := told_variant (depth - 1) variants v hvariants h (by omega)
  have hident : Reads (readIdent variants.resolve) (closedText variant) i :=
    reads_ident (Variants.resolve_name hlabels.1 hi)
  rw [write]
  obtain ⟨hwrite, hbare⟩ | ⟨content, hwrite, hread⟩ := htold
  · rw [hwrite, writeText_eq, List.cons_append]
    change readIdent variants.resolve (closedText variant ++ rest) >>= _ = _
    rw [hident rest hrest, ok_bind]
    simp only [hbare, mapError_ok, ok_bind]
    rfl
  · have hbrace : Stops (0x7D :: rest) := stops_cons (by decide) rest
    have hcolon : Stops (0x3A :: (content ++ 0x7D :: rest)) := stops_cons (by decide) _
    have hobject : object [entry (writeText variant) content] ++ rest =
        0x7B :: 0x22 :: (closedText variant ++ 0x3A :: (content ++ 0x7D :: rest)) := by
      rw [object_eq, List.cons_append, List.append_assoc, List.singleton_append, writeText_eq,
        separated_entry]
      rfl
    rw [hwrite, hobject]
    change enter depth >>= (fun depth => readIdent variants.resolve
      (closedText variant ++ 0x3A :: (content ++ 0x7D :: rest)) >>= fun x =>
        colon x.2 >>= fun bs => readContent variants depth x.1 bs >>= _) = _
    rw [enter_of_lt (by omega), ok_bind, hident _ hcolon, ok_bind]
    have hafter : colon (0x3A :: (content ++ 0x7D :: rest)) = .ok (content ++ 0x7D :: rest) := rfl
    simp only [hafter, ok_bind, hread _ hbrace]
    rfl

/-! ## Payloads -/

theorem inherits_readsBack : Schema.Inherits ReadsBack where
  scalar _ v hfaithful _ hdepth := reads_scalar hfaithful hdepth v
  option := readsBack_option
  seq := readsBack_seq
  tuple := readsBack_tuple
  record := readsBack_record
  map := readsBack_map
  choice := readsBack_choice

theorem reads_write {s : Schema} (hfaithful : s.isFaithful = true) (hnesting : s.nesting < maxDepth)
    (v : s.Value) : Reads (readAt s maxDepth) (write s v) v :=
  inherits_readsBack.holds s v hfaithful maxDepth hnesting

end PacketBus.Json

namespace PacketBus.Codec
open Catalog (Kind)

/-- A payload is not empty, so it does not count as one of null. -/
theorem json_decode_write {s : Schema} (hfaithful : s.isFaithful = true)
    (hnesting : s.nesting < Json.maxDepth) (v : s.Value) :
    Json.write s v ≠ [] ∧ json.decode s (Json.write s v) = .ok v := by
  have hread := (Json.reads_write hfaithful hnesting v).alone
  have hne := (Json.opens_write hfaithful v).ne_nil
  have hpayload := orElse_of_ne_nil hne Json.null
  refine ⟨hne, ?_⟩
  simp only [json, hpayload, Json.read, hread]
  rfl

/-- Payloads without floating-point numbers are encoded in some octets and decoded from them as
what they were, whatever characters and control characters their strings hold. -/
theorem json_returns {k : Kind} (hk : k.isLossless = true) (v : k.Value) :
    ∃ bs, json.encode (.schema k.schema) v = .ok bs ∧ bs ≠ [] ∧
      json.decode k.schema bs = .ok v := by
  obtain ⟨hfaithful, hnesting⟩ := Kind.isFaithful_of_isLossless hk
  have hdepth : k.schema.nesting < Json.maxDepth := Nat.lt_of_le_of_lt hnesting (by decide)
  obtain ⟨hne, hdecode⟩ := json_decode_write hfaithful hdepth v
  exact ⟨Json.write k.schema v, rfl, hne, hdecode⟩

/-- A string with a quote, a line break and a character of four octets, a field that is null, and
the least number of its kind. -/
theorem json_returns_profile :
    let v : Kind.profile.Value :=
      ("\"\n😀", ⟨0, by decide, by decide⟩, none, some ⟨-128, by decide, by decide⟩, ())
    Kind.profile.isLossless = true ∧
      ∃ bs, json.encode (.schema Kind.profile.schema) v = .ok bs ∧ bs ≠ [] ∧
        json.decode Kind.profile.schema bs = .ok v := by
  intro v
  have hk : Kind.profile.isLossless = true := rfl
  exact ⟨hk, json_returns hk v⟩

end PacketBus.Codec
