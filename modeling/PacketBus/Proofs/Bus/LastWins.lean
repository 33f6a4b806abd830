import PacketBus.Catalog.Handlers
import PacketBus.Proofs.Bus.Dispatch

/-! # Buses are told by their histories

Of the registrations with one id the last counts, for what a bus lists and for what it does with a
packet. So a bus is told by its history, and not by how registrations with different ids follow one
another.
-/
namespace PacketBus
variable {σ : Type}

/-- How a registration is listed: with its ids and with the names of its types. -/
inductive Registration.Lists : Registration σ → Route → Prop
  | silent {id request run} :
    Lists (.silent id request run)
      { requestId := id, responseId := none, requestType := request.name, responseType := none }
  | unawaited {id request response run} :
    Lists (.reply id Header.reservedId request response run)
      { requestId := id, responseId := none, requestType := request.name
        responseType := some response.name }
  | reply {id responseId request response run} (hid : responseId ≠ Header.reservedId) :
    Lists (.reply id responseId request response run)
      { requestId := id, responseId := some responseId, requestType := request.name
        responseType := some response.name }

theorem Registration.lists_iff {r : Registration σ} {route : Route} :
    r.Lists route ↔ route = r.route := by
  constructor
  · rintro (_ | _ | hid)
    · rfl
    · rfl
    · simp only [Registration.route, Registration.responseId, Registration.responseName,
        Registration.reply, if_neg hid]
  · rintro rfl
    obtain ⟨id, request, reaction⟩ := r
    cases reaction with
    | silent run => exact .silent
    | reply responseId response run =>
      by_cases hid : responseId = Header.reservedId
      · subst hid
        exact .unawaited
      · have hlists : Lists (.reply id responseId request response run) _ := .reply hid
        simpa only [Registration.route, Registration.responseId, Registration.responseName,
          Registration.reply, if_neg hid] using hlists

namespace Bus
open Registry

/-- A bus that is told by a history of registrations. -/
structure LastWins (codec : Codec) (history : List (Registration σ)) (bus : Bus σ) : Prop where
  contains_iff : ∀ id, bus.contains id = true ↔ id ∈ ids history
  size_eq : bus.size = (ids history).card
  isEmpty_iff : bus.isEmpty = true ↔ ids history = ∅
  responseId_iff : ∀ id response, bus.responseId id = some response ↔
    response ≠ Header.reservedId ∧
      ∃ request shape run, last? history id = some (.reply id response request shape run)
  dispatch_eq_iff : ∀ p state step,
    bus.dispatch p state = step ↔ Answers codec history p state step
  routes_increasing : bus.routes.Pairwise (fun a b => a.requestId < b.requestId)
  mem_routes_iff : ∀ route, route ∈ bus.routes ↔
    ∃ r, last? history route.requestId = some r ∧ r.Lists route

namespace Reflects
variable {codec : Codec} {rs : List (Registration σ)} {bus : Bus σ} (h : bus.Reflects codec rs)
include h

theorem routes_increasing : bus.routes.Pairwise (fun a b => a.requestId < b.requestId) := by
  refine List.pairwise_map.mpr (bus.table.increasing.imp_of_mem ?_)
  intro a b ha hb hab
  have hlt : a.1 < b.1 := Std.compare_eq_lt.mp hab
  simpa only [Registration.route, h.fst_of_mem ha, h.fst_of_mem hb] using hlt

theorem mem_routes_iff {route : Route} :
    route ∈ bus.routes ↔ ∃ r, last? rs route.requestId = some r ∧ r.Lists route := by
  simp only [routes, List.mem_map, Registration.lists_iff]
  constructor
  · rintro ⟨e, he, rfl⟩
    refine ⟨e.2, ?_, rfl⟩
    rw [← h.mem_entries_iff.mp he]
    exact congrArg (last? rs) (h.fst_of_mem he)
  · rintro ⟨r, hr, hroute⟩
    exact ⟨(route.requestId, r), h.mem_entries_iff.mpr hr, hroute.symm⟩

theorem responseId_iff {id response : UInt16} :
    bus.responseId id = some response ↔ response ≠ Header.reservedId ∧
      ∃ request shape run, last? rs id = some (.reply id response request shape run) := by
  have hid : bus.responseId id = (last? rs id) >>= (·.responseId) := by rw [responseId, h.get?_eq]
  rw [hid]
  cases hr : last? rs id with
  | none => simp
  | some r =>
    have hsome : (some r >>= (·.responseId)) = r.responseId := rfl
    rw [hsome, Registration.responseId_eq_some_iff, id_of_last? hr]
    simp only [Option.some.injEq]

theorem lastWins : bus.LastWins codec rs where
  contains_iff id := by
    rw [← not_iff_not, ← last?_eq_none_iff, contains, SortedMap.contains, h.get?_eq]
    simp
  size_eq := h.size_eq
  isEmpty_iff := by
    rw [← Finset.card_eq_zero, ← h.size_eq]
    exact List.isEmpty_iff_length_eq_zero
  responseId_iff _ _ := h.responseId_iff
  dispatch_eq_iff _ _ _ := h.dispatch_eq_iff
  routes_increasing := h.routes_increasing
  mem_routes_iff _ := h.mem_routes_iff

/-- Tables with the same last registrations list the same routes. -/
theorem routes_eq {ss : List (Registration σ)} {other : Bus σ} (h' : other.Reflects codec ss)
    (hlast : last? ss = last? rs) : other.routes = bus.routes := by
  have hnodup {l : List Route} (hl : l.Pairwise (fun a b => a.requestId < b.requestId)) :
      l.Nodup := by
    refine hl.imp ?_
    intro a b hab heq
    exact UInt16.lt_irrefl _ (heq ▸ hab)
  refine List.Perm.eq_of_pairwise ?_ h'.routes_increasing h.routes_increasing ?_
  · intro a b _ _ hab hba
    exact absurd hab (UInt16.not_lt.mpr (UInt16.le_of_lt hba))
  · rw [List.perm_ext_iff_of_nodup (hnodup h'.routes_increasing) (hnodup h.routes_increasing)]
    intro route
    rw [h.mem_routes_iff, h'.mem_routes_iff, hlast]

end Reflects
end Bus

namespace Registry

/-- A bus is told by the registrations of which it was made, and its registry tells the same before
it is built. Calls that keep the order of the registrations of each id make the same bus. -/
theorem build_lastWins (codec : Codec) (calls : List (Call σ)) :
    let b := after codec calls
    b.build.LastWins codec (history calls) ∧
      (∀ id, b.contains id = true ↔ id ∈ ids (history calls)) ∧
      b.size = (ids (history calls)).card ∧ (b.isEmpty = true ↔ ids (history calls) = ∅) ∧
      ∀ others : List (Call σ),
        (∀ id, (history others).filter (·.id == id) = (history calls).filter (·.id == id)) →
        (after codec others).build.routes = b.build.routes ∧
          ∀ p state, (after codec others).build.dispatch p state = b.build.dispatch p state := by
  intro b
  have h : b.build.Reflects codec (history calls) := reflects_after codec calls
  have hbus := h.lastWins
  refine ⟨hbus, hbus.contains_iff, hbus.size_eq, hbus.isEmpty_iff, ?_⟩
  intro others hothers
  have h' := reflects_after codec others
  have hlast : last? (history others) = last? (history calls) := by
    funext id
    simp only [last?, hothers]
  refine ⟨h.routes_eq h' hlast, ?_⟩
  intro p state
  rw [h.dispatch_eq, h'.dispatch_eq, hlast]

/-- Calls in another order, with ids that are used twice and a reply that nobody waits for. A packet
is answered by the later of two registrations, which was made with a group. -/
theorem build_lastWins_interleaved :
    let ping := Catalog.SilentHandler.ping.register
    let double := Catalog.ReplyHandler.double.register
    let calls := [Call.register (ping 5), .install [double 5 6, ping 9], .register (double 7 0)]
    let others := [Call.install [double 7 0, ping 5], .register (ping 9), .register (double 5 6)]
    let bus := (after .json calls).build
    (∀ id, (history others).filter (·.id == id) = (history calls).filter (·.id == id)) ∧
      (after .json others).build.routes = bus.routes ∧
      bus.responseId 5 = some 6 ∧ bus.size = 3 ∧
      ⟨5, some 6, "i32", some "i32"⟩ ∈ bus.routes ∧ ⟨7, none, "i32", some "i32"⟩ ∈ bus.routes ∧
      ⟨9, none, "()", none⟩ ∈ bus.routes ∧
      bus.dispatch ⟨5, [0x32, 0x31]⟩ {} =
        { value := .ok (.reply ⟨6, [0x34, 0x32]⟩), state := {} } := by
  intro ping double calls others bus
  have hids : (ping 5).id = 5 ∧ (ping 9).id = 9 ∧ (double 5 6).id = 5 ∧ (double 7 0).id = 7 :=
    ⟨rfl, rfl, rfl, rfl⟩
  have hfilter (id : UInt16) :
      (history others).filter (·.id == id) = (history calls).filter (·.id == id) := by
    by_cases h5 : 5 = id
    · subst h5
      rfl
    · by_cases h7 : 7 = id
      · subst h7
        rfl
      · simp [history, others, calls, Call.registrations, List.filter_cons, hids, h5, h7]
  obtain ⟨hbus, -, -, -, hothers⟩ := build_lastWins .json calls
  refine ⟨hfilter, (hothers others hfilter).1, ?_, ?_, ?_, ?_, ?_, ?_⟩
  · exact (hbus.responseId_iff 5 6).mpr ⟨by decide, _, _, _, rfl⟩
  · rw [hbus.size_eq]
    decide +kernel
  · exact (hbus.mem_routes_iff _).mpr ⟨double 5 6, rfl, .reply (by decide)⟩
  · exact (hbus.mem_routes_iff _).mpr ⟨double 7 0, rfl, .unawaited⟩
  · exact (hbus.mem_routes_iff _).mpr ⟨ping 9, rfl, .silent⟩
  · have hlast : last? (history calls) 5 = some (double 5 6) := rfl
    have hdecode : Codec.json.decode (double 5 6).request.schema [0x32, 0x31] =
        .ok (FixedInt.wrap 21 : FixedInt .i32) := by rfl
    have hencode : Codec.json.encode (Catalog.Kind.int .i32).response.shape
        (FixedInt.wrap 42 : FixedInt .i32) = .ok [0x34, 0x32] := by rfl
    have hresponse : (6 : UInt16) ≠ Header.reservedId := by decide
    have hanswers : Bus.Answers .json (history calls) ⟨5, [0x32, 0x31]⟩ {} _ :=
      .reply hlast hdecode rfl hresponse hencode
    exact (hbus.dispatch_eq_iff _ _ _).mpr hanswers

end Registry
end PacketBus
