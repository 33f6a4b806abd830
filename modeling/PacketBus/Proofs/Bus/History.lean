import Mathlib.Data.Finset.Card
import Mathlib.Data.Finset.Dedup
import PacketBus.Proofs.Bus.Sequence

/-! # Tables and the history of their registrations

The table of a bus holds the last registration of each id, whatever was registered before it and in
between, one by one or in groups.
-/
namespace PacketBus
variable {σ : Type}

namespace Registry

/-- What is done to a registry before it becomes a bus. -/
inductive Call (σ : Type)
  | register (r : Registration σ)
  | install (group : List (Registration σ))

def Call.registrations : Call σ → List (Registration σ)
  | register r => [r]
  | install group => group

def perform (b : Registry σ) : Call σ → Registry σ
  | .register r => (b.register r).1
  | .install group => (b.install group).1

/-- What a new registry has come to after some calls. -/
def after (codec : Codec) (calls : List (Call σ)) : Registry σ := calls.foldl perform (new codec)

/-- All registrations of some calls, those of a group in order. -/
def history (calls : List (Call σ)) : List (Registration σ) := calls.flatMap Call.registrations

/-- The ids that registrations use. -/
def ids (history : List (Registration σ)) : Finset UInt16 := (history.map (·.id)).toFinset

/-- The registration that counts for an id. -/
def last? (history : List (Registration σ)) (id : UInt16) : Option (Registration σ) :=
  (history.filter (·.id == id)).getLast?

variable {rs : List (Registration σ)} {r : Registration σ} {id : UInt16}

theorem last?_cons (r : Registration σ) (rs : List (Registration σ)) (id : UInt16) :
    last? (r :: rs) id = (last? rs id).or (if id = r.id then some r else none) := by
  by_cases h : id = r.id
  · simp only [last?, List.filter_cons, h, beq_self_eq_true, if_true, List.getLast?_cons]
    cases (rs.filter (·.id == r.id)).getLast? <;> rfl
  · have hne : (r.id == id) = false := beq_eq_false_iff_ne.mpr (Ne.symm h)
    simp [last?, hne, h]

theorem id_of_last? (h : last? rs id = some r) : r.id = id := by
  have hr := List.mem_filter.mp (List.mem_of_getLast? h)
  simpa using hr.2

theorem last?_eq_none_iff : last? rs id = none ↔ id ∉ ids rs := by
  simp only [last?, List.getLast?_eq_none_iff, List.filter_eq_nil_iff, ids, List.mem_toFinset,
    List.mem_map, beq_iff_eq, not_exists, not_and]

theorem install_fst (b : Registry σ) (group : List (Registration σ)) :
    (b.install group).1 = group.foldl insert b := by
  induction group generalizing b with
  | nil => rfl
  | cons r group ih => exact ih (b.insert r)

theorem after_eq (codec : Codec) (calls : List (Call σ)) :
    after codec calls = (history calls).foldl insert (new codec) := by
  rw [after, history, List.foldl_flatMap]
  congr 1
  funext b c
  cases c with
  | register r => rfl
  | install group => exact install_fst b group

theorem codec_foldl (b : Registry σ) (rs : List (Registration σ)) :
    (rs.foldl insert b).codec = b.codec := by
  induction rs generalizing b with
  | nil => rfl
  | cons r rs ih => exact ih (b.insert r)

theorem get?_foldl (b : Registry σ) (rs : List (Registration σ)) (id : UInt16) :
    (rs.foldl insert b).table.get? id = (last? rs id).or (b.table.get? id) := by
  induction rs generalizing b with
  | nil => rfl
  | cons r rs ih =>
    have hfirst : (b.insert r).table.get? id = if id = r.id then some r else b.table.get? id :=
      SortedMap.get?_insert b.table r.id id r
    rw [List.foldl_cons, ih, hfirst, last?_cons, Option.or_assoc]
    split <;> rfl

/-- The table of a registry holds the last registration of each id. -/
theorem get?_after (codec : Codec) (calls : List (Call σ)) (id : UInt16) :
    (after codec calls).table.get? id = last? (history calls) id := by
  rw [after_eq, get?_foldl, new, SortedMap.get?_empty, Option.or_none]

end Registry

namespace Bus
open Registry

/-- A table that holds the last registration of each id. -/
structure Reflects (codec : Codec) (history : List (Registration σ)) (bus : Bus σ) : Prop where
  codec_eq : bus.codec = codec
  get?_eq : ∀ id, bus.table.get? id = last? history id

namespace Reflects
variable {codec : Codec} {rs : List (Registration σ)} {bus : Bus σ} (h : bus.Reflects codec rs)
include h

theorem mem_entries_iff {e : UInt16 × Registration σ} :
    e ∈ bus.table.entries ↔ last? rs e.1 = some e.2 := by
  rw [← h.get?_eq, SortedMap.get?_eq_some_iff]

/-- Each registration stands at its own id. -/
theorem fst_of_mem {e : UInt16 × Registration σ} (he : e ∈ bus.table.entries) : e.2.id = e.1 :=
  id_of_last? (h.mem_entries_iff.mp he)

theorem mem_keys_iff {id : UInt16} : id ∈ bus.table.keys ↔ id ∈ ids rs := by
  rw [← not_iff_not, ← last?_eq_none_iff, SortedMap.keys, List.mem_map]
  constructor
  · intro hnot
    cases hl : last? rs id with
    | none => rfl
    | some r => exact absurd ⟨(id, r), h.mem_entries_iff.mpr hl, rfl⟩ hnot
  · rintro hnone ⟨e, he, rfl⟩
    simp [h.mem_entries_iff.mp he] at hnone

theorem size_eq : bus.size = (ids rs).card := by
  have hnodup : bus.table.keys.Nodup := by
    refine List.pairwise_map.mpr (bus.table.increasing.imp ?_)
    intro a b hab heq
    simp [heq] at hab
  have hkeys : bus.table.keys.toFinset = ids rs := by
    ext id
    rw [List.mem_toFinset]
    exact h.mem_keys_iff
  rw [← hkeys, List.toFinset_card_of_nodup hnodup]
  exact (List.length_map _).symm

/-- The last registration of the id of a packet serves it. -/
theorem dispatch_eq (p : Packet) (state : σ) :
    bus.dispatch p state =
      match last? rs p.id with
      | none => { value := .ok .noHandler, state }
      | some r => r.serve codec p.payload state := by
  have hget := h.get?_eq p.id
  unfold dispatch
  cases hl : last? rs p.id with
  | none => simp only [hget, hl]
  | some r => simp only [hget, hl, h.codec_eq]

end Reflects
end Bus

namespace Registry

theorem reflects_after (codec : Codec) (calls : List (Call σ)) :
    (after codec calls).build.Reflects codec (history calls) where
  codec_eq := by
    rw [build, after_eq, codec_foldl]
    rfl
  get?_eq := get?_after codec calls

end Registry
end PacketBus
