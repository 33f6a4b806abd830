import PacketBus.MsgPack.Item

/-! # Reading values from MessagePack

Each schema has its reader, by recursion on the schema. A reader gets the depth that is left for
nested items, the marker of its item and the octets after the marker.
-/
namespace PacketBus.MsgPack

/-- Where the depth left starts: 1023 nested items can be read. -/
def maxDepth : Nat := 1024

variable {α : Type}

/-- Reads a marker and then what it starts. -/
def marked (read : Marker → Reader α) : Reader α := fun bs => do
  let (m, bs) ← readMarker bs
  read m bs

/-- Nil stands for no value. -/
def readOption (read : Marker → Reader α) (m : Marker) : Reader (Option α) := fun bs =>
  match m with
  | .nil => .ok (none, bs)
  | m => do
    let (v, bs) ← read m bs
    return (some v, bs)

/-- The next of `left` items, or what stands for an item that is not there. -/
def nextItem (missing : Except Fault α) (read : Reader α) (left : Nat) : Reader (α × Nat) :=
  fun bs =>
    match left with
    | 0 => return ((← missing, 0), bs)
    | left + 1 => do
      let (v, bs) ← read bs
      return ((v, left), bs)

/-- Fills a slot, which has to be empty. -/
def fillSlot (field : String) (read : Reader α) (slot : Option α) : Reader (Option α) := fun bs =>
  if slot.isSome then .error (.mismatch (.duplicateField field)) else do
    let (v, bs) ← read bs
    return (some v, bs)

def readOffer (accept : Offer → Except Mismatch α) (depth : Nat) (m : Marker) : Reader α :=
  fun bs => do
    let (item, bs) ← readItem m bs
    return (← offer accept depth item, bs)

/-- Numbers and truth values. -/
def readPlain (s : Scalar) (m : Marker) : Reader s.Value := fun bs =>
  if m.isPlain then readOffer s.accept maxDepth m bs else .error (.wrongMarker m)

def readOctet : Reader UInt8 := fun bs => do
  let (v, bs) ← marked (readPlain (.int .u8)) bs
  return (UInt8.ofNat v.val.toNat, bs)

/-- Octet strings may come as an array of integers. -/
def readOctets (depth : Nat) (m : Marker) : Reader Octets := fun bs => do
  let (item, bs) ← readItem m bs
  match item with
  | .array n =>
    let _ ← enter depth
    readMany readOctet n [] bs
  | item => return (← offer Scalar.octets.accept depth item, bs)

/-- A marker type may come as an empty array. -/
def readScalar (depth : Nat) : (s : Scalar) → Marker → Reader s.Value
  | .unit, m, bs => readOffer Scalar.unit.accept depth m bs
  | .marker _, .fixArray 0, bs => .ok ((), bs)
  | .marker name, m, bs => readOffer (Scalar.marker name).accept depth m bs
  | .bool, m, bs => readPlain .bool m bs
  | .int k, m, bs => readPlain (.int k) m bs
  | .float f, m, bs => readPlain (.float f) m bs
  | .char, m, bs => readOffer Scalar.char.accept depth m bs
  | .string, m, bs => readOffer Scalar.string.accept depth m bs
  | .octets, m, bs => readOctets depth m bs

def readKey (depth : Nat) : (k : KeyKind) → Reader k.Value
  | .string, bs => marked (readScalar depth .string) bs
  | .int k, bs => marked (readScalar depth (.int k)) bs

/-- A field or a variant is picked by its name or by its number. -/
def acceptIdent (expected : String) (resolve : Ident → Except Mismatch α) :
    Offer → Except Mismatch α
  | .string s => resolve (.name (Utf8.encode s))
  | .octets bs => resolve (.name bs)
  | .unsigned n => resolve (.index n)
  | offer => refuseAll expected offer

def readIdent (expected : String) (resolve : Ident → Except Mismatch α) (depth : Nat) : Reader α :=
  marked (readOffer (acceptIdent expected resolve) depth)

/-- The entries of a record: each names a field, and `fill` reads it into its slot. -/
def readFields (name : Reader (Option Nat)) (fill : Nat → α → Reader α)
    (skip : Octets → Except Fault Octets) : (n : Nat) → α → Reader α
  | 0, slots, bs => .ok (slots, bs)
  | n + 1, slots, bs =>
    match name bs with
    | .error fault => .error fault
    | .ok (some i, bs) =>
      match fill i slots bs with
      | .error fault => .error fault
      | .ok (slots, bs) => readFields name fill skip n slots bs
    | .ok (none, bs) =>
      match skip bs with
      | .error fault => .error fault
      | .ok bs => readFields name fill skip n slots bs

def readEntries {κ : Type} [Ord κ] [Std.TransOrd κ] (key : Reader κ) (value : Reader α) :
    (n : Nat) → SortedMap κ α → Reader (SortedMap κ α)
  | 0, m, bs => .ok (m, bs)
  | n + 1, m, bs =>
    match key bs with
    | .error fault => .error fault
    | .ok (k, bs) =>
      match value bs with
      | .error fault => .error fault
      | .ok (v, bs) => readEntries key value n (m.insert k v) bs

/-- All items of an array have to be read. -/
def exhausted (n : Nat) : (α × Nat) × Octets → Except Fault (α × Octets)
  | ((values, 0), bs) => .ok (values, bs)
  | ((_, left), _) => .error (.lengthMismatch (n - left))

mutual

def readAt : (s : Schema) → (depth : Nat) → Marker → Reader s.Value
  | .scalar s, depth, m, bs => readScalar depth s m bs
  | .option s, depth, m, bs => readOption (readAt s depth) m bs
  | .seq s, depth, m, bs => do
    let (item, bs) ← readItem m bs
    match item with
    | .array n =>
      let depth ← enter depth
      readMany (marked (readAt s depth)) n [] bs
    | .octets items => return (← (items.mapM fun b => s.acceptNat b.toNat).mapError .mismatch, bs)
    | item => return (← offer (refuseAll (Schema.seq s).expected) depth item, bs)
  | .tuple name items, depth, m, bs => do
    let (item, bs) ← readItem m bs
    let expected := name.counted items.length
    match item with
    | .array n =>
      let depth ← enter depth
      readItems items depth expected 0 n bs >>= exhausted n
    | .octets bytes => return (← (items.ofNats expected 0 bytes).mapError .mismatch, bs)
    | item => return (← offer (refuseAll (name.expected items.length)) depth item, bs)
  | .record title strict fields, depth, m, bs => do
    let (item, bs) ← readItem m bs
    let expected := elements title fields.length
    match item with
    | .array n =>
      let depth ← enter depth
      readItems fields depth expected 0 n bs >>= exhausted n
    | .map n =>
      let depth ← enter depth
      let name := readIdent "field identifier" (fields.resolve strict) depth
      let (slots, bs) ← readFields name (fun i slots bs => readField fields depth i slots bs)
        (skip depth) n fields.emptySlots bs
      return (← (fields.finish slots).mapError .mismatch, bs)
    | .octets bytes => return (← (fields.ofNats expected 0 bytes).mapError .mismatch, bs)
    | item => return (← offer (refuseAll title) depth item, bs)
  | .map k s, depth, m, bs => do
    let (item, bs) ← readItem m bs
    match item with
    | .map n =>
      let depth ← enter depth
      readEntries (readKey depth k) (marked (readAt s depth)) n .empty bs
    | item => return (← offer (refuseAll (Schema.map k s).expected) depth item, bs)
  | .choice _ variants, depth, m, bs => do
    let (item, bs) ← readItem m bs
    match item with
    | .map n =>
      if n = 1 then
        let (i, bs) ← readIdent "variant identifier" variants.resolve depth bs
        readContent variants depth i bs
      else .error (.lengthMismatch n)
    | item =>
      let i ← offer (acceptIdent "variant identifier" variants.resolve) depth item
      return (← (variants.bareAt i).mapError .mismatch, bs)

/-- The fields from a sequence with `left` items, with the number of items left after them. -/
def readItems : (r : Row) → (depth : Nat) → (expected : String) → (index left : Nat) →
    Reader (r.Values × Nat)
  | .nil, _, _, _, left, bs => .ok (((), left), bs)
  | .required _ s rest, depth, expected, index, left, bs => do
    let missing := .error (.mismatch (.length index expected))
    let ((v, left), bs) ← nextItem missing (marked (readAt s depth)) left bs
    let ((vs, left), bs) ← readItems rest depth expected (index + 1) left bs
    return (((v, vs), left), bs)
  | .orZero _ k rest, depth, expected, index, left, bs => do
    let ((v, left), bs) ← nextItem (.ok 0) (marked (readScalar depth (.int k))) left bs
    let ((vs, left), bs) ← readItems rest depth expected (index + 1) left bs
    return (((v, vs), left), bs)
  | .orNone _ s rest, depth, expected, index, left, bs => do
    let ((v, left), bs) ← nextItem (.ok none) (marked (readOption (readAt s depth))) left bs
    let ((vs, left), bs) ← readItems rest depth expected (index + 1) left bs
    return (((v, vs), left), bs)

/-- Reads the field at a position into its slot. -/
def readField : (r : Row) → (depth index : Nat) → r.Slots → Reader r.Slots
  | .nil, _, _, slots, bs => .ok (slots, bs)
  | .required field s _, depth, 0, (slot, slots), bs => do
    let (slot, bs) ← fillSlot field (marked (readAt s depth)) slot bs
    return ((slot, slots), bs)
  | .orZero field k _, depth, 0, (slot, slots), bs => do
    let (slot, bs) ← fillSlot field (marked (readScalar depth (.int k))) slot bs
    return ((slot, slots), bs)
  | .orNone field s _, depth, 0, (slot, slots), bs => do
    let (slot, bs) ← fillSlot field (marked (readOption (readAt s depth))) slot bs
    return ((slot, slots), bs)
  | .required _ _ rest, depth, index + 1, (slot, slots), bs
  | .orZero _ _ rest, depth, index + 1, (slot, slots), bs
  | .orNone _ _ rest, depth, index + 1, (slot, slots), bs => do
    let (slots, bs) ← readField rest depth index slots bs
    return ((slot, slots), bs)

/-- The content of the variant at a position. A variant without content has nil for it. -/
def readContent : (v : Variants) → (depth index : Nat) → Reader v.Value
  | .nil, _, _, _ => .error (.lengthMismatch 0)
  | .bare _ _, _, 0, bs => do
    let (m, bs) ← readMarker bs
    match m with
    | .nil => return (.inl (), bs)
    | m => .error (.wrongMarker m)
  | .carrying _ _ s _, depth, 0, bs => do
    let (v, bs) ← marked (readAt s depth) bs
    return (.inl v, bs)
  | .bare _ rest, depth, index + 1, bs | .carrying _ _ _ rest, depth, index + 1, bs => do
    let (v, bs) ← readContent rest depth index bs
    return (.inr v, bs)

end

/-- Octets after the value are not looked at. -/
def read (s : Schema) (bs : Octets) : Except Fault s.Value := do
  let (v, _) ← marked (readAt s maxDepth) bs
  return v

end PacketBus.MsgPack
