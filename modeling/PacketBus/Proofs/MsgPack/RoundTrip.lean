import PacketBus.Codec
import PacketBus.Proofs.MsgPack.Scalars

/-! # Values come back from MessagePack

What a value is written as is read as that value, whatever follows it. This goes over from the
fields, items and entries to what is made of them, as far as names lead to one field only and what
may be left out is not written as nothing.
-/
namespace PacketBus.MsgPack

variable {α : Type}

/-! ## Sequences -/

/-- What a value of the schema is written as is read as that value. -/
def ReadsBack (s : Schema) (v : s.Value) : Prop :=
  s.isFaithful = true → s.Short v → ∀ depth, s.nesting < depth →
    Reads (marked (readAt s depth)) (write s v) v

theorem reads_many {read : Reader α} {write : α → Octets} {vs : List α}
    (h : ∀ v ∈ vs, Reads read (write v) v) (acc : List α) :
    Reads (readMany read vs.length acc) (vs.flatMap write) (acc.reverse ++ vs) := by
  induction vs generalizing acc with
  | nil => simp [Reads, readMany]
  | cons v vs ih =>
    intro rest
    have hv := h v List.mem_cons_self (vs.flatMap write ++ rest)
    have hvs := ih (fun w hw => h w (List.mem_cons_of_mem _ hw)) (v :: acc) rest
    rw [List.flatMap_cons, List.append_assoc, List.length_cons, readMany, hv]
    simp only [hvs, List.reverse_cons, List.append_assoc, List.singleton_append]

theorem readsBack_seq (s : Schema) (vs : List s.Value) (h : ∀ v ∈ vs, ReadsBack s v) :
    ReadsBack (.seq s) vs := by
  intro hfaithful hshort depth hdepth rest
  have hdepth : s.nesting + 1 < depth := hdepth
  obtain ⟨m, -, hitem⟩ := encodes_arrayHead hshort.1
  obtain ⟨body, hread, hbody⟩ :=
    hitem.marked (readAt (.seq s) depth) (vs.flatMap (write s) ++ rest)
  have hvs := reads_many (fun v hv => h v hv hfaithful (hshort.2 v hv) (depth - 1) (by omega)) []
  rw [write, List.append_assoc, hread, readAt, hbody, ok_bind]
  simp only [enter_of_lt (show 1 < depth by omega), ok_bind]
  exact hvs rest

/-- The next item goes in front of what is read of the others. -/
theorem reads_next {β : Type} {missing : Except Fault α} {read : Reader α} {v : α} {bs cs : Octets}
    (hv : Reads read bs v) {left : Nat} {more : Nat → Reader (β × Nat)} {vs : β}
    (hvs : Reads (more left) cs (vs, 0)) :
    Reads (fun bs => do
      let ((v, left), bs) ← nextItem missing read (left + 1) bs
      let ((vs, left), bs) ← more left bs
      return (((v, vs), left), bs)) (bs ++ cs) ((v, vs), 0) := by
  intro rest
  simp only [List.append_assoc, nextItem, hv (cs ++ rest), ok_bind]
  exact congrArg (fun r => r >>= fun x => Except.ok (((v, x.1.1), x.1.2), x.2)) (hvs rest)

theorem reads_items : (r : Row) → (vs : r.Values) → r.isFaithful = true → r.Short vs →
    r.All ReadsBack vs → (depth : Nat) → r.nesting < depth → (expected : String) → (index : Nat) →
    Reads (readItems r depth expected index r.length) (writeItems r vs) (vs, 0)
  | .nil, _, _, _, _, _, _, _, _ => fun _ => rfl
  | .required _ s rest, (v, vs), hfaithful, hshort, hall, depth, hdepth, expected, index => by
    obtain ⟨hs, hrest⟩ := Row.isFaithful_required_iff.mp hfaithful
    have hdepth : max s.nesting rest.nesting < depth := hdepth
    have hv := hall.1 hs hshort.1 depth (by omega)
    have hvs := reads_items rest vs hrest hshort.2 hall.2 depth (by omega) expected (index + 1)
    exact reads_next hv hvs
  | .orZero _ k rest, (v, vs), hfaithful, hshort, hall, depth, hdepth, expected, index => by
    have hvs := reads_items rest vs hfaithful hshort hall.2 depth hdepth expected (index + 1)
    exact reads_next (reads_integer v depth) hvs
  | .orNone _ s rest, (v, vs), hfaithful, hshort, hall, depth, hdepth, expected, index => by
    obtain ⟨hs, hrest⟩ := Row.isFaithful_orNone_iff.mp hfaithful
    have hdepth : max s.nesting rest.nesting < depth := hdepth
    have hv := hall.1 hs hshort.1 depth (by simp only [Schema.nesting]; omega)
    have hvs := reads_items rest vs hrest hshort.2 hall.2 depth (by omega) expected (index + 1)
    exact reads_next hv hvs

theorem readsBack_tuple (name : TupleName) (items : Row) (vs : items.Values)
    (h : items.All ReadsBack vs) : ReadsBack (.tuple name items) vs := by
  intro hfaithful hshort depth hdepth rest
  obtain ⟨hlabels, hitems⟩ := Schema.isFaithful_tuple_iff.mp hfaithful
  have hdepth : items.nesting + 1 < depth := hdepth
  obtain ⟨m, -, hitem⟩ := encodes_arrayHead hlabels.2.1
  obtain ⟨body, hread, hbody⟩ :=
    hitem.marked (readAt (.tuple name items) depth) (writeItems items vs ++ rest)
  have hvs := reads_items items vs hitems hshort h (depth - 1) (by omega)
    (name.counted items.length) 0 rest
  rw [write, List.append_assoc, Row.length, hread, readAt, hbody, ok_bind]
  simp only [enter_of_lt (show 1 < depth by omega), ok_bind]
  exact congrArg (fun r => r >>= exhausted items.length) hvs

/-! ## Values that may be missing -/

theorem reads_option {read : Marker → Reader α} {bs : Octets} {v : α} (hsolid : Solid bs)
    (h : Reads (marked read) bs v) : Reads (marked (readOption read)) bs (some v) := by
  obtain ⟨b, hb, hm⟩ := hsolid
  obtain ⟨tail, rfl⟩ := List.head?_eq_some_iff.mp hb
  intro rest
  have hread : read (Marker.ofOctet b) (tail ++ rest) = .ok (v, rest) := h rest
  change readOption read (Marker.ofOctet b) (tail ++ rest) = .ok (some v, rest)
  unfold readOption
  split
  · contradiction
  · rw [hread]
    rfl

theorem entryCount_le : (r : Row) → (vs : r.Values) → entryCount r vs ≤ r.names.length
  | .nil, _ => Nat.le_refl 0
  | .required _ _ rest, (_, vs) => Nat.succ_le_succ (entryCount_le rest vs)
  | .orZero _ _ rest, (_, vs) => Nat.succ_le_succ (entryCount_le rest vs)
  | .orNone _ _ rest, (v, vs) => by
    have hrest := entryCount_le rest vs
    simp only [entryCount, Row.names, List.length_cons]
    split <;> omega

theorem solid_variant : (vs : Variants) → (v : vs.Value) → Labels vs.names →
    Solid (writeVariant vs v)
  | .nil, v, _ => Empty.elim v
  | .bare _ _, .inl _, h => solid_text (h.2.2 _ List.mem_cons_self)
  | .carrying _ _ _ _, .inl _, _ => ((solid_mapHead (by decide)).append _).append _
  | .bare _ rest, .inr v, h | .carrying _ _ _ rest, .inr v, h => solid_variant rest v h.tail

/-- Values of a schema that always has something to write do not start with nil. -/
theorem solid_write {s : Schema} (hsolid : s.isSolid = true) (hfaithful : s.isFaithful = true)
    {v : s.Value} (hshort : s.Short v) : Solid (write s v) := by
  cases s with
  | scalar s => exact solid_scalar hsolid hshort
  | option s => simp [Schema.isSolid] at hsolid
  | seq s => exact (solid_arrayHead hshort.1).append _
  | tuple name items =>
    obtain ⟨hlabels, -⟩ := Schema.isFaithful_tuple_iff.mp hfaithful
    exact (solid_arrayHead hlabels.2.1).append _
  | record title strict fields =>
    obtain ⟨hlabels, -⟩ := Schema.isFaithful_record_iff.mp hfaithful
    have hcount := Nat.lt_of_le_of_lt (entryCount_le fields v) hlabels.2.1
    exact (solid_mapHead hcount).append _
  | map k s => exact (solid_mapHead hshort.1).append _
  | choice name variants =>
    obtain ⟨hlabels, -⟩ := Schema.isFaithful_choice_iff.mp hfaithful
    exact solid_variant variants v hlabels

theorem readsBack_option (s : Schema) (v : Option s.Value) (h : ∀ w, v = some w → ReadsBack s w) :
    ReadsBack (.option s) v := by
  intro hfaithful hshort depth hdepth
  obtain ⟨hsolid, hs⟩ := Schema.isFaithful_option_iff.mp hfaithful
  cases v with
  | none => exact fun _ => rfl
  | some w =>
    have hw := hshort w rfl
    exact reads_option (solid_write hsolid hs hw) (h w rfl hs hw depth hdepth)

/-! ## Records and maps -/

section
variable {β : Type} {read : Reader α} {bs : Octets} {v : α}

theorem Reads.map (h : Reads read bs v) (f : α → β) :
    Reads (fun bs => do
      let (a, bs) ← read bs
      return (f a, bs)) bs (f v) := by
  intro rest
  simp only [h rest, ok_bind]
  rfl

theorem Reads.fill (h : Reads read bs v) (field : String) :
    Reads (fillSlot field read none) bs (some v) :=
  h.map some

end

section
variable {depth : Nat} {name : Reader (Option Nat)} {fill : Nat → α → Reader α}
  {skip : Octets → Except Fault Octets} {names : List String}

/-- An entry for the field at the front of what the record ends with fills the slot of that
field. -/
theorem reads_entry
    (hname : ∀ i field, names[i]? = some field → Reads name (text field) (some i))
    {k : Nat} {r : Row} {put : r.Slots → α}
    (hends : Row.Ends (fun r => readField r depth) fill names k r put) {field : String}
    {others : List String} (hfield : r.names = field :: others) {slots slots' : r.Slots}
    {value : Octets} (hvalue : Reads (readField r depth 0 slots) value slots')
    {n : Nat} {more : Octets} {a : α}
    (hmore : Reads (readFields name fill skip n (put slots')) more a) :
    Reads (readFields name fill skip (n + 1) (put slots)) (text field ++ value ++ more) a := by
  intro rest
  have hkey := hname k field (hends.getElem?_eq hfield) (value ++ (more ++ rest))
  have hfill := hends.fill_eq 0 slots (value ++ (more ++ rest))
  rw [hvalue, ok_bind, Nat.add_zero] at hfill
  rw [List.append_assoc, List.append_assoc, readFields, hkey]
  simp only [hfill]
  exact hmore rest

/-- Each field that is written is found by its name and read into its slot. -/
theorem reads_fields (skip : Octets → Except Fault Octets) (depth : Nat)
    (hname : ∀ i field, names[i]? = some field → Reads name (text field) (some i)) :
    (r : Row) → (vs : r.Values) → r.isFaithful = true → r.Short vs → r.All ReadsBack vs →
    r.nesting < depth → {k : Nat} → {put : r.Slots → α} →
    Row.Ends (fun r => readField r depth) fill names k r put →
    Reads (readFields name fill skip (entryCount r vs) (put r.emptySlots)) (writeFields r vs)
      (put (r.filled vs))
  | .nil, _, _, _, _, _, _, _, _ => fun _ => rfl
  | .required field s rest, (v, vs), hfaithful, hshort, hall, hdepth, _, _, hends => by
    obtain ⟨hs, hrest⟩ := Row.isFaithful_required_iff.mp hfaithful
    have hdepth : max s.nesting rest.nesting < depth := hdepth
    have hread : Reads (readField (.required field s rest) depth 0 (none, rest.emptySlots))
        (write s v) (some v, rest.emptySlots) :=
      ((hall.1 hs hshort.1 depth (by omega)).fill field).map fun slot => (slot, rest.emptySlots)
    apply reads_entry hname hends rfl hread
    exact reads_fields skip depth hname rest vs hrest hshort.2 hall.2 (by omega) <|
      hends.next (fun slots => (some v, slots)) rfl fun _ _ _ => rfl
  | .orZero field k rest, (v, vs), hfaithful, hshort, hall, hdepth, _, _, hends => by
    have hread : Reads (readField (.orZero field k rest) depth 0 (none, rest.emptySlots))
        (integer v.val) (some v, rest.emptySlots) :=
      ((reads_integer v depth).fill field).map fun slot => (slot, rest.emptySlots)
    apply reads_entry hname hends rfl hread
    exact reads_fields skip depth hname rest vs hfaithful hshort hall.2 hdepth <|
      hends.next (fun slots => (some v, slots)) rfl fun _ _ _ => rfl
  | .orNone field s rest, (none, vs), hfaithful, hshort, hall, hdepth, _, _, hends => by
    obtain ⟨-, hrest⟩ := Row.isFaithful_orNone_iff.mp hfaithful
    have hdepth : max s.nesting rest.nesting < depth := hdepth
    -- nothing is written, and the slot stays as it is
    exact reads_fields skip depth hname rest vs hrest hshort.2 hall.2 (by omega) <|
      hends.next (fun slots => (none, slots)) rfl fun _ _ _ => rfl
  | .orNone field s rest, (some v, vs), hfaithful, hshort, hall, hdepth, _, _, hends => by
    obtain ⟨hs, hrest⟩ := Row.isFaithful_orNone_iff.mp hfaithful
    have hdepth : max s.nesting rest.nesting < depth := hdepth
    have hv : Reads (marked (readOption (readAt s depth))) (write s v) (some v) :=
      hall.1 hs hshort.1 depth (by simp only [Schema.nesting]; omega)
    have hread : Reads (readField (.orNone field s rest) depth 0 (none, rest.emptySlots))
        (write s v) (some (some v), rest.emptySlots) :=
      (hv.fill field).map fun slot => (slot, rest.emptySlots)
    apply reads_entry hname hends rfl hread
    exact reads_fields skip depth hname rest vs hrest hshort.2 hall.2 (by omega) <|
      hends.next (fun slots => (some (some v), slots)) rfl fun _ _ _ => rfl

end

theorem reads_ident {s : String} (hs : (Utf8.encode s).length < UInt32.size)
    {resolve : Ident → Except Mismatch α} {a : α}
    (hresolve : resolve (.name (Utf8.encode s)) = .ok a) (expected : String) (depth : Nat) :
    Reads (readIdent expected resolve depth) (text s) a :=
  reads_text hs depth hresolve

theorem readsBack_record (title : String) (strict : Bool) (fields : Row) (vs : fields.Values)
    (h : fields.All ReadsBack vs) : ReadsBack (.record title strict fields) vs := by
  intro hfaithful hshort depth hdepth rest
  obtain ⟨hlabels, hfields⟩ := Schema.isFaithful_record_iff.mp hfaithful
  have hdepth : fields.nesting + 1 < depth := hdepth
  have hcount := Nat.lt_of_le_of_lt (entryCount_le fields vs) hlabels.2.1
  obtain ⟨m, -, hitem⟩ := encodes_mapHead hcount
  obtain ⟨body, hread, hbody⟩ :=
    hitem.marked (readAt (.record title strict fields) depth) (writeFields fields vs ++ rest)
  have hname : ∀ i field, fields.names[i]? = some field →
      Reads (readIdent "field identifier" (fields.resolve strict) (depth - 1)) (text field)
        (some i) := by
    intro i field hfield
    exact reads_ident (hlabels.2.2 field (List.mem_of_getElem? hfield))
      (Row.resolve_name hlabels.1 hfield strict) _ _
  have hvs := reads_fields (skip (depth - 1)) (depth - 1) hname fields vs hfields hshort h
    (by omega) fields.ends_self rest
  rw [write, List.append_assoc, hread, readAt, hbody, ok_bind]
  simp only [enter_of_lt (show 1 < depth by omega), ok_bind]
  simp only [id_eq] at hvs
  rw [hvs]
  simp only [ok_bind, Row.finish_filled, mapError_ok]
  rfl

theorem reads_entries {κ : Type} [Ord κ] [Std.TransOrd κ] {key : Reader κ} {value : Reader α}
    {writeKey : κ → Octets} {write : α → Octets} {es : List (κ × α)}
    (hkey : ∀ e ∈ es, Reads key (writeKey e.1) e.1)
    (hvalue : ∀ e ∈ es, Reads value (write e.2) e.2) (m : SortedMap κ α) :
    Reads (readEntries key value es.length m) (es.flatMap fun e => writeKey e.1 ++ write e.2)
      (es.foldl (fun m e => m.insert e.1 e.2) m) := by
  induction es generalizing m with
  | nil => exact fun _ => rfl
  | cons e es ih =>
    intro rest
    let more := es.flatMap fun e => writeKey e.1 ++ write e.2
    have hk := hkey e List.mem_cons_self (write e.2 ++ (more ++ rest))
    have hv := hvalue e List.mem_cons_self (more ++ rest)
    have hes := ih (fun f hf => hkey f (List.mem_cons_of_mem _ hf))
      (fun f hf => hvalue f (List.mem_cons_of_mem _ hf)) (m.insert e.1 e.2) rest
    rw [List.flatMap_cons, List.append_assoc, List.append_assoc, List.length_cons, readEntries, hk]
    simp only [hv]
    exact hes

theorem reads_key {k : KeyKind} {v : k.Value} (hshort : k.Short v) (depth : Nat) :
    Reads (readKey depth k) (writeKey k v) v := by
  cases k with
  | string => exact reads_text hshort depth rfl
  | int k => exact reads_integer v depth

theorem readsBack_map (k : KeyKind) (s : Schema) (m : SortedMap k.Value s.Value)
    (h : ∀ e ∈ m.entries, ReadsBack s e.2) : ReadsBack (.map k s) m := by
  intro hfaithful hshort depth hdepth rest
  have hdepth : s.nesting + 1 < depth := hdepth
  obtain ⟨marker, -, hitem⟩ := encodes_mapHead hshort.1
  obtain ⟨body, hread, hbody⟩ := hitem.marked (readAt (.map k s) depth)
    ((m.entries.flatMap fun e => writeKey k e.1 ++ write s e.2) ++ rest)
  have hkey : ∀ e ∈ m.entries, Reads (readKey (depth - 1) k) (writeKey k e.1) e.1 :=
    fun e he => reads_key (hshort.2 e he).1 (depth - 1)
  have hvalue : ∀ e ∈ m.entries, Reads (marked (readAt s (depth - 1))) (write s e.2) e.2 :=
    fun e he => h e he hfaithful (hshort.2 e he).2 (depth - 1) (by omega)
  have hes := reads_entries hkey hvalue .empty rest
  rw [write, List.append_assoc, hread, readAt, hbody, ok_bind]
  simp only [enter_of_lt (show 1 < depth by omega), ok_bind]
  refine hes.trans ?_
  exact congrArg (fun m => Except.ok (m, rest)) (SortedMap.ofList_entries m)

/-! ## Variants -/

/-- A variant is written as its name alone, or in a map from its name to what it carries. -/
theorem told_variant (depth : Nat) : (vs : Variants) → (v : vs.Value) → vs.isFaithful = true →
    vs.Short v → vs.All ReadsBack v → vs.nesting < depth →
    Variants.Told (fun _ => True) text (fun variant content => mapHead 1 ++ text variant ++ content)
      (writeVariant vs v) vs (readContent vs depth) v
  | .nil, v, _, _, _, _ => nomatch v
  | .bare variant _, .inl _, _, _, _, _ => ⟨0, variant, rfl, .inl ⟨rfl, rfl⟩⟩
  | .bare _ rest, .inr v, hfaithful, hshort, hall, hdepth => by
    have hv := told_variant depth rest v hfaithful hshort hall hdepth
    exact hv.next rfl (fun _ => rfl) fun _ _ => rfl
  | .carrying variant form s rest, .inl v, hfaithful, hshort, hall, hdepth => by
    obtain ⟨hs, -⟩ := Variants.isFaithful_carrying_iff.mp hfaithful
    have hdepth : max s.nesting rest.nesting < depth := hdepth
    have hread : Reads (readContent (.carrying variant form s rest) depth 0) (write s v) (.inl v) :=
      (hall hs hshort depth (by omega)).map Sum.inl
    exact ⟨0, variant, rfl, .inr ⟨write s v, rfl, fun rest _ => hread rest⟩⟩
  | .carrying _ _ s rest, .inr v, hfaithful, hshort, hall, hdepth => by
    obtain ⟨-, hrest⟩ := Variants.isFaithful_carrying_iff.mp hfaithful
    have hdepth : max s.nesting rest.nesting < depth := hdepth
    have hv := told_variant depth rest v hrest hshort hall (by omega)
    exact hv.next rfl (fun _ => rfl) fun _ _ => rfl

theorem readsBack_choice (name : String) (variants : Variants) (v : variants.Value)
    (h : variants.All ReadsBack v) : ReadsBack (.choice name variants) v := by
  intro hfaithful hshort depth hdepth rest
  obtain ⟨hlabels, hvariants⟩ := Schema.isFaithful_choice_iff.mp hfaithful
  have hdepth : variants.nesting + 1 < depth := hdepth
  obtain ⟨i, variant, hi, htold⟩ :=
    told_variant depth variants v hvariants hshort h (by omega)
  have hresolve := Variants.resolve_name hlabels.1 hi
  have hvariant := hlabels.2.2 variant (List.mem_of_getElem? hi)
  rw [write]
  obtain ⟨hwrite, hbare⟩ | ⟨content, hwrite, hread⟩ := htold
  · obtain ⟨m, -, hitem⟩ := encodes_string hvariant
    obtain ⟨body, hread, hbody⟩ := hitem.marked (readAt (.choice name variants) depth) rest
    rw [hwrite, text, hread, readAt, hbody, ok_bind]
    simp only [offer, Utf8.decode_encode, acceptIdent, hresolve, hbare, mapError_ok, ok_bind]
    rfl
  · obtain ⟨m, -, hitem⟩ := encodes_mapHead (n := 1) (by decide)
    obtain ⟨body, hhead, hbody⟩ := hitem.marked (readAt (.choice name variants) depth)
      (text variant ++ (content ++ rest))
    have hident := reads_ident hvariant hresolve "variant identifier" depth (content ++ rest)
    rw [hwrite, List.append_assoc, List.append_assoc, hhead, readAt, hbody, ok_bind]
    simp only [hident, ok_bind, if_true]
    exact hread rest trivial

/-! ## Payloads -/

theorem inherits_readsBack : Schema.Inherits ReadsBack where
  scalar _ _ hfaithful hshort depth _ := reads_scalar hfaithful hshort depth
  option := readsBack_option
  seq := readsBack_seq
  tuple := readsBack_tuple
  record := readsBack_record
  map := readsBack_map
  choice := readsBack_choice

theorem reads_write {s : Schema} (hfaithful : s.isFaithful = true) (hnesting : s.nesting < maxDepth)
    {v : s.Value} (hshort : s.Short v) : Reads (marked (readAt s maxDepth)) (write s v) v :=
  inherits_readsBack.holds s v hfaithful hshort maxDepth hnesting

end PacketBus.MsgPack

namespace PacketBus.Codec
open Catalog (Kind)

/-- A payload is not empty, so it does not count as one of nil. -/
theorem msgPack_decode_write {s : Schema} (hfaithful : s.isFaithful = true)
    (hnesting : s.nesting < MsgPack.maxDepth) {v : s.Value} (hshort : s.Short v) :
    MsgPack.write s v ≠ [] ∧ msgPack.decode s (MsgPack.write s v) = .ok v := by
  have hread := MsgPack.reads_write hfaithful hnesting hshort
  have hpayload := orElse_of_ne_nil hread.ne_nil [0xC0]
  have hend := hread []
  rw [List.append_nil] at hend
  refine ⟨hread.ne_nil, ?_⟩
  simp only [msgPack, hpayload, MsgPack.read, hend]
  rfl

/-- Payloads without floating-point numbers are encoded in some octets and decoded from them as
what they were, whichever forms their numbers and lengths are written in. -/
theorem msgPack_returns {k : Kind} (hk : k.isLossless = true) {v : k.Value}
    (hv : k.schema.Short v) :
    ∃ bs, msgPack.encode (.schema k.schema) v = .ok bs ∧ bs ≠ [] ∧
      msgPack.decode k.schema bs = .ok v := by
  obtain ⟨hfaithful, hnesting⟩ := Kind.isFaithful_of_isLossless hk
  have hdepth : k.schema.nesting < MsgPack.maxDepth := Nat.lt_of_le_of_lt hnesting (by decide)
  obtain ⟨hne, hdecode⟩ := msgPack_decode_write hfaithful hdepth hv
  exact ⟨MsgPack.write k.schema v, rfl, hne, hdecode⟩

/-- A field that is left out, one that is nil, and numbers whose marker has no field or a field of
two octets. -/
theorem msgPack_returns_profile :
    let v : Kind.profile.Value := ("n\u00E9", ⟨300, by decide, by decide⟩, none, none, ())
    Kind.profile.isLossless = true ∧ Kind.profile.schema.Short v ∧
      ∃ bs, msgPack.encode (.schema Kind.profile.schema) v = .ok bs ∧ bs ≠ [] ∧
        msgPack.decode Kind.profile.schema bs = .ok v := by
  intro v
  have hk : Kind.profile.isLossless = true := rfl
  have hnick : (Utf8.encode "n\u00E9").length < UInt32.size := by decide +kernel
  have hnone : ∀ s : Schema, (Schema.option s).Short none := by
    intro s w hw
    cases hw
  have hv : Kind.profile.schema.Short v := ⟨hnick, hnone Catalog.text, hnone _, trivial⟩
  exact ⟨hk, hv, msgPack_returns hk hv⟩

end PacketBus.Codec
