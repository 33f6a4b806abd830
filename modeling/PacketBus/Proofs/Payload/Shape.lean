import PacketBus.Catalog.Kind
import PacketBus.Text.Utf8

/-! # Schemas whose values can be read back

What reading a value back asks of its schema and of the value: names that differ, values that are
not mistaken for missing ones, and lengths that a format can tell.
-/
namespace PacketBus

/-- Names that differ, and lengths of names and of their list that fit a field of four octets. -/
def Labels (names : List String) : Prop :=
  names.Nodup ∧ names.length < UInt32.size ∧
    ∀ name ∈ names, (Utf8.encode name).length < UInt32.size

instance (names : List String) : Decidable (Labels names) := inferInstanceAs (Decidable (_ ∧ _))

theorem Labels.tail {name : String} {names : List String} (h : Labels (name :: names)) :
    Labels names := by
  obtain ⟨hnodup, hlength, hnames⟩ := h
  refine ⟨(List.nodup_cons.mp hnodup).2, ?_, fun other h => hnames other (List.mem_cons_of_mem _ h)⟩
  exact Nat.lt_of_succ_lt hlength

/-- Whether a value is never written as nothing. -/
def Schema.isSolid : Schema → Bool
  | .scalar .unit | .scalar (.marker _) | .scalar (.float _) | .option _ => false
  | _ => true

mutual

/-- Whether values are told apart by what is written of them: there are no floating-point numbers,
what has a name has one of its own, and what may be left out is not written as nothing itself. -/
def Schema.isFaithful : Schema → Bool
  | .scalar (.float _) => false
  | .scalar _ => true
  | .option s => s.isSolid && s.isFaithful
  | .seq s => s.isFaithful
  | .tuple _ items => Labels items.names && items.isFaithful
  | .record _ _ fields => Labels fields.names && fields.isFaithful
  | .map _ s => s.isFaithful
  | .choice _ variants => Labels variants.names && variants.isFaithful

def Row.isFaithful : Row → Bool
  | .nil => true
  | .required _ s rest => s.isFaithful && rest.isFaithful
  | .orZero _ _ rest => rest.isFaithful
  | .orNone _ s rest => s.isSolid && s.isFaithful && rest.isFaithful

def Variants.isFaithful : Variants → Bool
  | .nil => true
  | .bare _ rest => rest.isFaithful
  | .carrying _ _ s rest => s.isFaithful && rest.isFaithful

end

theorem Schema.isFaithful_option_iff {s : Schema} :
    (Schema.option s).isFaithful = true ↔ s.isSolid = true ∧ s.isFaithful = true := by
  simp [isFaithful]

theorem Schema.isFaithful_tuple_iff {name : TupleName} {items : Row} :
    (Schema.tuple name items).isFaithful = true ↔
      Labels items.names ∧ items.isFaithful = true := by
  simp [isFaithful]

theorem Schema.isFaithful_record_iff {title : String} {strict : Bool} {fields : Row} :
    (Schema.record title strict fields).isFaithful = true ↔
      Labels fields.names ∧ fields.isFaithful = true := by
  simp [isFaithful]

theorem Schema.isFaithful_choice_iff {name : String} {variants : Variants} :
    (Schema.choice name variants).isFaithful = true ↔
      Labels variants.names ∧ variants.isFaithful = true := by
  simp [isFaithful]

theorem Row.isFaithful_required_iff {field : String} {s : Schema} {rest : Row} :
    (Row.required field s rest).isFaithful = true ↔
      s.isFaithful = true ∧ rest.isFaithful = true := by
  simp [isFaithful]

theorem Row.isFaithful_orNone_iff {field : String} {s : Schema} {rest : Row} :
    (Row.orNone field s rest).isFaithful = true ↔
      (Schema.option s).isFaithful = true ∧ rest.isFaithful = true := by
  simp [isFaithful, Schema.isFaithful]

theorem Variants.isFaithful_carrying_iff {variant : String} {form : VariantForm} {s : Schema}
    {rest : Variants} : (Variants.carrying variant form s rest).isFaithful = true ↔
      s.isFaithful = true ∧ rest.isFaithful = true := by
  simp [isFaithful]

mutual

/-- How many lists and records the values stand in and are made of, one within another. -/
def Schema.nesting : Schema → Nat
  | .scalar .octets => 1
  | .scalar _ => 0
  | .option s => s.nesting
  | .seq s => s.nesting + 1
  | .tuple _ items => items.nesting + 1
  | .record _ _ fields => fields.nesting + 1
  | .map _ s => s.nesting + 1
  | .choice _ variants => variants.nesting + 1

def Row.nesting : Row → Nat
  | .nil => 0
  | .required _ s rest => max s.nesting rest.nesting
  | .orZero _ _ rest => rest.nesting
  | .orNone _ s rest => max s.nesting rest.nesting

def Variants.nesting : Variants → Nat
  | .nil => 0
  | .bare _ rest => rest.nesting
  | .carrying _ _ s rest => max s.nesting rest.nesting

end

/-- Strings and octet strings whose length fits a field of four octets. -/
def Scalar.Short : (s : Scalar) → s.Value → Prop
  | .string, s => (Utf8.encode s).length < UInt32.size
  | .octets, bs => bs.length < UInt32.size
  | _, _ => True

def KeyKind.Short : (k : KeyKind) → k.Value → Prop
  | .string, s => (Utf8.encode s).length < UInt32.size
  | .int _, _ => True

mutual

/-- Values in which each string, octet string, list and map has a length that fits a field of four
octets. -/
def Schema.Short : (s : Schema) → s.Value → Prop
  | .scalar s, v => s.Short v
  | .option s, v => ∀ w, v = some w → s.Short w
  | .seq s, vs => vs.length < UInt32.size ∧ ∀ v ∈ vs, s.Short v
  | .tuple _ items, vs => items.Short vs
  | .record _ _ fields, vs => fields.Short vs
  | .map k s, m => m.size < UInt32.size ∧ ∀ e ∈ m.entries, k.Short e.1 ∧ s.Short e.2
  | .choice _ variants, v => variants.Short v

def Row.Short : (r : Row) → r.Values → Prop
  | .nil, _ => True
  | .required _ s rest, (v, vs) => s.Short v ∧ rest.Short vs
  | .orZero _ _ rest, (_, vs) => rest.Short vs
  | .orNone _ s rest, (v, vs) => (∀ w, v = some w → s.Short w) ∧ rest.Short vs

def Variants.Short : (v : Variants) → v.Value → Prop
  | .nil, v => nomatch v
  | .bare _ _, .inl _ => True
  | .carrying _ _ s _, .inl v => s.Short v
  | .bare _ rest, .inr v | .carrying _ _ _ rest, .inr v => rest.Short v

end

namespace Catalog

/-- Payloads without floating-point numbers and of limited depth. -/
def Kind.isLossless : Kind → Bool
  | .float _ | .point | .tree => false
  | _ => true

theorem Kind.isFaithful_of_isLossless {k : Kind} (h : k.isLossless = true) :
    k.schema.isFaithful = true ∧ k.schema.nesting ≤ 3 := by
  cases k with
  | float f => simp [isLossless] at h
  | point => simp [isLossless] at h
  | tree => simp [isLossless] at h
  | int k => exact ⟨rfl, by simp [schema, Schema.nesting]⟩
  | _ => exact ⟨by decide, by decide⟩

end Catalog
end PacketBus
