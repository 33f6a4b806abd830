import PacketBus.Payload.Accept
import PacketBus.Proofs.Text.Utf8

/-! # What values are made of

What the formats share in reading a value back from its parts: a property goes over from the parts
to the whole, names lead to the fields and variants they name, and records and maps come together
from their entries.
-/
namespace PacketBus

/-! ## Readers that go on -/

section
variable {ε ε' α β : Type}

@[simp] theorem ok_bind (a : α) (f : α → Except ε β) : (Except.ok a >>= f) = f a := rfl

@[simp] theorem mapError_ok (f : ε → ε') (a : α) :
    (Except.ok a : Except ε α).mapError f = .ok a := rfl

end

/-! ## Values and what they are made of -/

section
variable {P : (s : Schema) → s.Value → Prop}

/-- Each value of a record has the property, with the schema of its place. -/
def Row.All (P : (s : Schema) → s.Value → Prop) : (r : Row) → r.Values → Prop
  | .nil, _ => True
  | .required _ s rest, (v, vs) => P s v ∧ rest.All P vs
  | .orZero _ k rest, (v, vs) => P (.scalar (.int k)) v ∧ rest.All P vs
  | .orNone _ s rest, (v, vs) => P (.option s) v ∧ rest.All P vs

/-- What a variant carries has the property. -/
def Variants.All (P : (s : Schema) → s.Value → Prop) : (v : Variants) → v.Value → Prop
  | .nil, v => nomatch v
  | .bare _ _, .inl _ => True
  | .carrying _ _ s _, .inl v => P s v
  | .bare _ rest, .inr v | .carrying _ _ _ rest, .inr v => rest.All P v

/-- A property of values that goes over to a value from the values it is made of. -/
structure Schema.Inherits (P : (s : Schema) → s.Value → Prop) : Prop where
  scalar (s : Scalar) (v : s.Value) : P (.scalar s) v
  option (s : Schema) (v : Option s.Value) : (∀ w, v = some w → P s w) → P (.option s) v
  seq (s : Schema) (vs : List s.Value) : (∀ v ∈ vs, P s v) → P (.seq s) vs
  tuple (name : TupleName) (items : Row) (vs : items.Values) :
    items.All P vs → P (.tuple name items) vs
  record (title : String) (strict : Bool) (fields : Row) (vs : fields.Values) :
    fields.All P vs → P (.record title strict fields) vs
  map (k : KeyKind) (s : Schema) (m : SortedMap k.Value s.Value) :
    (∀ e ∈ m.entries, P s e.2) → P (.map k s) m
  choice (name : String) (variants : Variants) (v : variants.Value) :
    variants.All P v → P (.choice name variants) v

mutual

/-- A property that goes over to what is made of the values that have it holds of all values. -/
theorem Schema.Inherits.holds (h : Inherits P) : (s : Schema) → (v : s.Value) → P s v
  | .scalar s, v => h.scalar s v
  | .option s, v => h.option s v fun w _ => holds h s w
  | .seq s, vs => h.seq s vs fun v _ => holds h s v
  | .tuple name items, vs => h.tuple name items vs (h.holds_row items vs)
  | .record title strict fields, vs => h.record title strict fields vs (h.holds_row fields vs)
  | .map k s, m => h.map k s m fun e _ => holds h s e.2
  | .choice name variants, v => h.choice name variants v (h.holds_variants variants v)

theorem Schema.Inherits.holds_row (h : Inherits P) : (r : Row) → (vs : r.Values) → r.All P vs
  | .nil, _ => trivial
  | .required _ s rest, (v, vs) => ⟨h.holds s v, h.holds_row rest vs⟩
  | .orZero _ k rest, (v, vs) => ⟨h.scalar (.int k) v, h.holds_row rest vs⟩
  | .orNone _ s rest, (v, vs) =>
    ⟨h.option s v fun w _ => h.holds s w, h.holds_row rest vs⟩

theorem Schema.Inherits.holds_variants (h : Inherits P) :
    (vs : Variants) → (v : vs.Value) → vs.All P v
  | .nil, v => nomatch v
  | .bare _ _, .inl _ => trivial
  | .carrying _ _ s _, .inl v => h.holds s v
  | .bare _ rest, .inr v | .carrying _ _ _ rest, .inr v => h.holds_variants rest v

end

end

/-! ## Names -/

theorem findName_append {front : List String} {name : String} (h : name ∉ front)
    (names : List String) :
    findName (front ++ name :: names) (Utf8.encode name) = some front.length := by
  have hfront : front.findIdx? (fun other => Utf8.encode other == Utf8.encode name) = none := by
    rw [List.findIdx?_eq_none_iff]
    intro other hother
    rw [beq_eq_false_iff_ne]
    exact fun heq => h (Utf8.encode_injective heq ▸ hother)
  rw [findName, List.findIdx?_append, hfront, List.findIdx?_cons]
  simp

/-- A name leads to its position among names that differ. -/
theorem findName_of_getElem? {names : List String} (h : names.Nodup) {i : Nat} {name : String}
    (hi : names[i]? = some name) : findName names (Utf8.encode name) = some i := by
  obtain ⟨hlt, rfl⟩ := List.getElem?_eq_some_iff.mp hi
  have hsplit : names.take i ++ names[i] :: names.drop (i + 1) = names := by
    rw [List.getElem_cons_drop, List.take_append_drop]
  have hnot : names[i] ∉ names.take i := by
    rw [← hsplit, List.nodup_append] at h
    intro hmem
    exact h.2.2 _ hmem _ List.mem_cons_self rfl
  have hfound := findName_append hnot (names.drop (i + 1))
  rw [hsplit, List.length_take_of_le (Nat.le_of_lt hlt)] at hfound
  exact hfound

theorem Row.resolve_name {r : Row} (hr : r.names.Nodup) {i : Nat} {name : String}
    (hi : r.names[i]? = some name) (strict : Bool) :
    r.resolve strict (.name (Utf8.encode name)) = .ok (some i) := by
  simp only [resolve, findName_of_getElem? hr hi]

theorem Variants.resolve_name {v : Variants} (hv : v.names.Nodup) {i : Nat} {name : String}
    (hi : v.names[i]? = some name) : v.resolve (.name (Utf8.encode name)) = .ok i := by
  simp only [resolve, findName_of_getElem? hv hi]

/-! ## Records -/

/-- What reading a record finds of its values. A value that is left out is not found. -/
def Row.filled : (r : Row) → r.Values → r.Slots
  | .nil, _ => ()
  | .required _ _ rest, (v, vs) => (some v, rest.filled vs)
  | .orZero _ _ rest, (v, vs) => (some v, rest.filled vs)
  | .orNone _ _ rest, (v, vs) => (v.map some, rest.filled vs)

theorem Row.finish_filled : (r : Row) → (vs : r.Values) → r.finish (r.filled vs) = .ok vs
  | .nil, _ => rfl
  | .required _ s rest, (v, vs) => by
    have hrest := finish_filled rest vs
    simp only [finish, filled, Option.some_or, hrest]
    rfl
  | .orZero _ _ rest, (v, vs) => by
    have hrest := finish_filled rest vs
    simp only [finish, filled, Option.getD_some, hrest]
    rfl
  | .orNone _ _ rest, (v, vs) => by
    have hrest := finish_filled rest vs
    have hv : (v.map some).getD none = v := by cases v <;> rfl
    simp only [finish, filled, hv, hrest]
    rfl

section
variable {ε α : Type}
  {readField : (r : Row) → (index : Nat) → r.Slots → Octets → Except ε (r.Slots × Octets)}
  {fill : Nat → α → Octets → Except ε (α × Octets)} {names : List String} {k : Nat}
  {r rest : Row} {put : r.Slots → α}

/-- The row is what a record with these names ends with: its fields come `k` places on, and to read
one of them is to read it into the slots of the whole. -/
structure Row.Ends
    (readField : (r : Row) → (index : Nat) → r.Slots → Octets → Except ε (r.Slots × Octets))
    (fill : Nat → α → Octets → Except ε (α × Octets)) (names : List String) (k : Nat)
    (r : Row) (put : r.Slots → α) : Prop where
  names_eq : names.drop k = r.names
  fill_eq : ∀ i slots bs, fill (k + i) (put slots) bs = do
    let (slots, bs) ← readField r i slots bs
    return (put slots, bs)

theorem Row.ends_self (r : Row) :
    Ends readField (fun i slots bs => readField r i slots bs) r.names 0 r id := by
  constructor
  · rfl
  · intro i slots bs
    rw [Nat.zero_add]
    dsimp only [id_eq]
    cases readField r i slots bs <;> rfl

theorem Row.Ends.getElem?_eq (h : Ends readField fill names k r put) {field : String}
    {others : List String} (hr : r.names = field :: others) : names[k]? = some field := by
  have hfirst : (names.drop k)[0]? = some field := by
    rw [h.names_eq, hr]
    rfl
  rwa [List.getElem?_drop, Nat.add_zero] at hfirst

/-- Without its first field it is an end still. -/
theorem Row.Ends.next (h : Ends readField fill names k r put) (push : rest.Slots → r.Slots)
    {field : String} (hnames : r.names = field :: rest.names)
    (hpush : ∀ i slots bs, readField r (i + 1) (push slots) bs = do
      let (slots, bs) ← readField rest i slots bs
      return (push slots, bs)) :
    Ends readField fill names (k + 1) rest fun slots => put (push slots) := by
  constructor
  · rw [← List.drop_drop, h.names_eq, hnames]
    rfl
  · intro i slots bs
    rw [Nat.add_right_comm, Nat.add_assoc, h.fill_eq, hpush]
    cases readField rest i slots bs <;> rfl

end

/-! ## Variants -/

section
variable {ε : Type} {follow : Octets → Prop} {alone : String → Octets}
  {around : String → Octets → Octets} {written : Octets} {vs rest : Variants}

/-- A variant is written as its name alone, or as its name and what it carries, and that is read
back as long as what comes behind it may follow. -/
def Variants.Told (follow : Octets → Prop) (alone : String → Octets)
    (around : String → Octets → Octets) (written : Octets) (vs : Variants)
    (readContent : Nat → Octets → Except ε (vs.Value × Octets)) (v : vs.Value) : Prop :=
  ∃ i variant, vs.names[i]? = some variant ∧
    (written = alone variant ∧ vs.bareAt i = .ok v ∨
      ∃ content, written = around variant content ∧
        ∀ rest, follow rest → readContent i (content ++ rest) = .ok (v, rest))

/-- It is told in the same way behind another variant, one place on. -/
theorem Variants.Told.next {readContent : Nat → Octets → Except ε (vs.Value × Octets)}
    {readRest : Nat → Octets → Except ε (rest.Value × Octets)} {v : rest.Value}
    (h : Told follow alone around written rest readRest v) {put : rest.Value → vs.Value}
    {variant : String} (hnames : vs.names = variant :: rest.names)
    (hbare : ∀ i, vs.bareAt (i + 1) = (rest.bareAt i).map put)
    (hread : ∀ i bs, readContent (i + 1) bs = do
      let (v, bs) ← readRest i bs
      return (put v, bs)) : Told follow alone around written vs readContent (put v) := by
  obtain ⟨i, variant, hi, htold⟩ := h
  refine ⟨i + 1, variant, by rw [hnames, List.getElem?_cons_succ, hi], ?_⟩
  rw [hbare]
  obtain ⟨hname, hv⟩ | ⟨content, hname, hcontent⟩ := htold
  · exact .inl ⟨hname, congrArg (Except.map put) hv⟩
  · refine .inr ⟨content, hname, ?_⟩
    intro bs hbs
    rw [hread, hcontent bs hbs]
    rfl

end

/-! ## Maps -/

namespace SortedMap
variable {α β : Type} [Ord α] [Std.TransOrd α]

/-- An entry whose key is greater than all others goes to the end. -/
theorem insertEntry_of_forall_lt {k : α} {es : List (α × β)}
    (h : ∀ e ∈ es, compare e.1 k = .lt) (v : β) : insertEntry k v es = es ++ [(k, v)] := by
  induction es with
  | nil => rfl
  | cons e es ih =>
    have he : compare k e.1 = .gt := Std.OrientedCmp.gt_of_lt (h e List.mem_cons_self)
    have hes := ih fun f hf => h f (List.mem_cons_of_mem _ hf)
    simp only [insertEntry, he, hes, List.cons_append]

theorem entries_foldl_insert (m : SortedMap α β) (es : List (α × β))
    (h : (m.entries ++ es).Pairwise (fun a b => compare a.1 b.1 = .lt)) :
    (es.foldl (fun m e => m.insert e.1 e.2) m).entries = m.entries ++ es := by
  induction es generalizing m with
  | nil => simp
  | cons e es ih =>
    have hlast : ∀ d ∈ m.entries, compare d.1 e.1 = .lt := fun d hd =>
      (List.pairwise_append.mp h).2.2 d hd e List.mem_cons_self
    have hinsert : (m.insert e.1 e.2).entries = m.entries ++ [e] :=
      insertEntry_of_forall_lt hlast e.2
    have hmore := ih (m.insert e.1 e.2) (by rwa [hinsert, List.append_assoc])
    rw [List.foldl_cons, hmore, hinsert, List.append_assoc, List.singleton_append]

/-- A map is what its entries make up, one after another. -/
@[simp] theorem ofList_entries (m : SortedMap α β) : ofList m.entries = m := by
  have h := entries_foldl_insert .empty m.entries m.increasing
  obtain ⟨es, hes⟩ := m
  simp only [ofList]
  generalize List.foldl _ _ _ = n at h ⊢
  obtain ⟨fs, hfs⟩ := n
  simp only [empty, List.nil_append] at h
  subst h
  rfl

end SortedMap

end PacketBus
