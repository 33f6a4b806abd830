import Mathlib.Data.List.ReduceOption
import PacketBus.Catalog.Handlers
import PacketBus.Proofs.Bus.History
import PacketBus.Session.Event

/-! # Replacements are reported

A registration is recorded as a replacement just when its id has been registered before, and what is
recorded names the type of the requests whose handler it displaces. So each registration adds to a
registry or to its journal, and never to both.
-/
namespace PacketBus
variable {σ : Type}

/-- The record of a registration that displaces a previous one. -/
structure Record.Displaces (r previous : Registration σ) (record : Record) : Prop where
  level_eq : record.level = .debug
  message_eq : record.message = "replacing registered handler"
  fields_eq : record.fields = [("request_id", toString r.id), ("previous", previous.request.name)]

namespace Registry

/-- What a registration puts on record. -/
def record? (b : Registry σ) (r : Registration σ) : Option Record :=
  (b.register r).2.map .replaced

/-- What each of some registrations puts on record, one after another. -/
def records? (b : Registry σ) : List (Registration σ) → List (Option Record)
  | [] => []
  | r :: rs => b.record? r :: (b.register r).1.records? rs

/-- What a call puts on record. -/
def recordsOf (b : Registry σ) : Call σ → List Record
  | .register r => (b.record? r).toList
  | .install group => (b.install group).2.map .replaced

/-- The records of some calls. -/
def journal (b : Registry σ) : List (Call σ) → List Record
  | [] => []
  | call :: calls => b.recordsOf call ++ (b.perform call).journal calls

section
variable {b : Registry σ} {rs : List (Registration σ)}

@[simp] theorem history_register (rs : List (Registration σ)) :
    history (rs.map Call.register) = rs := by
  induction rs with
  | nil => rfl
  | cons r rs ih => exact congrArg (r :: ·) ih

theorem length_records? (b : Registry σ) (rs : List (Registration σ)) :
    (b.records? rs).length = rs.length := by
  induction rs generalizing b with
  | nil => rfl
  | cons r rs ih => exact congrArg Nat.succ (ih _)

theorem records?_append (b : Registry σ) (rs ss : List (Registration σ)) :
    b.records? (rs ++ ss) = b.records? rs ++ (rs.foldl insert b).records? ss := by
  induction rs generalizing b with
  | nil => rfl
  | cons r rs ih => exact congrArg (b.record? r :: ·) (ih _)

/-- A group is recorded as its registrations are. -/
theorem install_snd (b : Registry σ) (group : List (Registration σ)) :
    (b.install group).2.map Record.replaced = (b.records? group).reduceOption := by
  induction group generalizing b with
  | nil => rfl
  | cons r group ih =>
    rw [install, List.map_append, ih, records?, record?]
    cases (b.register r).2 <;> rfl

theorem recordsOf_eq (b : Registry σ) (call : Call σ) :
    b.recordsOf call = (b.records? call.registrations).reduceOption := by
  cases call with
  | register r =>
    simp only [recordsOf, Call.registrations, records?]
    cases b.record? r <;> rfl
  | install group => exact install_snd b group

theorem perform_eq (b : Registry σ) (call : Call σ) :
    b.perform call = call.registrations.foldl insert b := by
  cases call with
  | register r => rfl
  | install group => exact install_fst b group

/-- The journal of some calls is that of all their registrations. -/
theorem journal_eq (b : Registry σ) (calls : List (Call σ)) :
    b.journal calls = (b.records? (history calls)).reduceOption := by
  induction calls generalizing b with
  | nil => rfl
  | cons call calls ih =>
    have hall : history (call :: calls) = call.registrations ++ history calls := rfl
    rw [journal, recordsOf_eq, ih, perform_eq, hall, records?_append, List.reduceOption_append]

/-- What a registration puts on record is told by the registrations before it. -/
theorem record?_foldl (codec : Codec) (rs : List (Registration σ)) (r : Registration σ) :
    (rs.foldl insert (new codec)).record? r =
      (last? rs r.id).map fun previous => .replaced ⟨r.id, previous.request.name⟩ := by
  have hprevious : (rs.foldl insert (new codec)).table.get? r.id = last? rs r.id := by
    rw [get?_foldl, new, SortedMap.get?_empty, Option.or_none]
  simp only [record?, register, replacement?, hprevious, Option.map_map]
  rfl

theorem getElem?_records? (codec : Codec) {i : Nat} {r : Registration σ} (hr : rs[i]? = some r) :
    ((new codec).records? rs)[i]? = some ((last? (rs.take i) r.id).map
      fun previous => .replaced ⟨r.id, previous.request.name⟩) := by
  obtain ⟨hi, rfl⟩ := List.getElem?_eq_some_iff.mp hr
  have hsplit : rs = rs.take i ++ rs[i] :: rs.drop (i + 1) := by
    rw [List.getElem_cons_drop, List.take_append_drop]
  have hbefore : ((new codec).records? (rs.take i)).length = i := by
    rw [length_records?, List.length_take_of_le (Nat.le_of_lt hi)]
  have hall := records?_append (new codec) (rs.take i) (rs[i] :: rs.drop (i + 1))
  rw [← hsplit] at hall
  rw [hall, List.getElem?_append_right (Nat.le_of_eq hbefore), hbefore, Nat.sub_self, records?,
    List.getElem?_cons_zero, record?_foldl]

theorem take_records? (b : Registry σ) {i : Nat} (hi : i ≤ rs.length) :
    (b.records? rs).take i = b.records? (rs.take i) := by
  have hall := b.records?_append (rs.take i) (rs.drop i)
  have hlength : (b.records? (rs.take i)).length = i := by
    rw [length_records?, List.length_take_of_le hi]
  rw [List.take_append_drop] at hall
  rw [hall, List.take_left' hlength]

theorem exists_last?_iff {id : UInt16} :
    (∃ previous, last? rs id = some previous) ↔ ∃ previous ∈ rs, previous.id = id := by
  have hnone : last? rs id = none ↔ id ∉ ids rs := last?_eq_none_iff
  rw [← Option.isSome_iff_exists, ← not_iff_not, Option.not_isSome_iff_eq_none, hnone]
  simp [ids]

theorem size_foldl (codec : Codec) (rs : List (Registration σ)) :
    (rs.foldl insert (new codec)).size = (ids rs).card := by
  have hsize := (reflects_after codec (rs.map Call.register)).size_eq
  rwa [after_eq, history_register] at hsize

/-- An id that is used again is recorded, and one that is not makes the registry larger. -/
theorem length_eq_size_add (codec : Codec) (rs : List (Registration σ)) :
    rs.length = (rs.foldl insert (new codec)).size +
      ((new codec).records? rs).reduceOption.length := by
  rw [size_foldl]
  induction rs using List.reverseRecOn with
  | nil => rfl
  | append_singleton rs r ih =>
    have hids : ids (rs ++ [r]) = Insert.insert r.id (ids rs) := by
      ext id
      simp [ids]
    have hlast : (rs.foldl insert (new codec)).records? [r] =
        [(last? rs r.id).map fun previous => .replaced ⟨r.id, previous.request.name⟩] := by
      rw [records?, record?_foldl]
      rfl
    rw [List.length_append, List.length_singleton, records?_append, List.reduceOption_append,
      List.length_append, hlast, hids]
    cases hl : last? rs r.id with
    | none =>
      have hnew := Finset.card_insert_of_notMem (last?_eq_none_iff.mp hl)
      rw [hnew]
      simp only [Option.map_none, List.reduceOption_cons_of_none, List.reduceOption_nil,
        List.length_nil]
      omega
    | some previous =>
      have hused : r.id ∈ ids rs := by
        by_contra hnot
        rw [last?_eq_none_iff.mpr hnot] at hl
        cases hl
      rw [Finset.insert_eq_of_mem hused]
      simp only [Option.map_some, List.reduceOption_cons_of_some, List.reduceOption_nil,
        List.length_singleton]
      omega

end

/-- Of the registrations that calls make, each is recorded or not as it is made. It is just when an
earlier one has the same id, and then the record names the request type of the latest of those. At
each point, with those recorded left out, there are as many registrations as the registry holds. -/
theorem journal_displaced (codec : Codec) (calls : List (Call σ)) :
    let rs := history calls
    let records := (new codec).records? rs
    (new codec).journal calls = records.reduceOption ∧ records.length = rs.length ∧
      (∀ i r, rs[i]? = some r →
        ((∃ record, records[i]? = some (some record)) ↔
          ∃ previous ∈ rs.take i, previous.id = r.id) ∧
        ∀ record, records[i]? = some (some record) →
          ∃ previous, last? (rs.take i) r.id = some previous ∧ record.Displaces r previous) ∧
      (∀ i ≤ rs.length, i = (after codec ((rs.take i).map .register)).size +
        (records.take i).reduceOption.length) ∧
      rs.length = (after codec calls).size + ((new codec).journal calls).length := by
  intro rs records
  have hjournal := journal_eq (new codec) calls
  refine ⟨hjournal, length_records? _ rs, ?_, ?_, ?_⟩
  · intro i r hr
    have hrecord : records[i]? = _ := getElem?_records? codec hr
    rw [hrecord, ← exists_last?_iff]
    cases last? (rs.take i) r.id with
    | none => simp
    | some previous =>
      refine ⟨by simp, ?_⟩
      intro record hsome
      obtain rfl := Option.some.inj (Option.some.inj hsome)
      exact ⟨previous, rfl, rfl, rfl, rfl⟩
  · intro i hi
    have hcount := length_eq_size_add codec (rs.take i)
    rw [List.length_take_of_le hi] at hcount
    rw [after_eq, history_register, take_records? _ hi]
    exact hcount
  · rw [hjournal, after_eq]
    exact length_eq_size_add codec rs

/-- Within a group an id is used that the group has used before, and an earlier call too. -/
theorem journal_displaced_group :
    let ping := Catalog.SilentHandler.ping.register
    let double := Catalog.ReplyHandler.double.register
    let calls := [Call.register (ping 5), .install [double 5 6, ping 9, ping 5]]
    (history calls)[3]? = some (ping 5) ∧
      (∃ record, ((new .json).records? (history calls))[3]? = some (some record) ∧
        record.Displaces (ping 5) (double 5 6)) ∧
      (after .json calls).size = 2 ∧ ((new .json).journal calls).length = 2 := by
  intro ping double calls
  obtain ⟨hjournal, -, hrecords, -, hcount⟩ := journal_displaced .json calls
  have hping : (history calls)[3]? = some (ping 5) := rfl
  obtain ⟨hdue, hdisplaces⟩ := hrecords 3 (ping 5) hping
  obtain ⟨record, hrecord⟩ := hdue.mpr ⟨double 5 6, List.mem_cons_of_mem _ List.mem_cons_self, rfl⟩
  obtain ⟨previous, hprevious, hrecord'⟩ := hdisplaces record hrecord
  obtain rfl : double 5 6 = previous := Option.some.inj hprevious
  have hlength : ((new .json).journal calls).length = 2 := by
    rw [hjournal]
    rfl
  have hall : (history calls).length = 4 := rfl
  exact ⟨hping, ⟨record, hrecord, hrecord'⟩, by omega, hlength⟩

end Registry
end PacketBus
