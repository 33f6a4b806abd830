import PacketBus.Proofs.Bus.History
import PacketBus.Proofs.Json.RoundTrip
import PacketBus.Proofs.MsgPack.RoundTrip

/-! # Buses apart from their codecs

What a bus does with a request can be told by values alone: a handler gets a value and may return
one. All that a codec does is to carry these values. So buses with the same registrations go through
the same states with any two codecs that carry the same values and refuse the same values.
-/
namespace PacketBus
open Registry
variable {σ : Type}

/-- What has been done with a request, told by the value of the reply. -/
inductive Handling
  | unhandled
  | silent
  | reply (id : UInt16) (response : Response) (value : response.Value)

/-- What comes of a request when the value of the reply has been encoded. -/
def Handling.outcome (codec : Codec) : Handling → Except DispatchFault Outcome
  | unhandled => .ok .noHandler
  | silent => .ok .silent
  | reply id response value =>
    match codec.encode response value with
    | .ok payload => .ok (.reply ⟨id, payload⟩)
    | .error cause => .error (.encode id cause)

def Step.encoded (codec : Codec) (step : Step σ Handling) :
    Step σ (Except DispatchFault Outcome) :=
  { step with value := step.value.outcome codec }

/-- Runs the handler on the value of a request. -/
def Registration.handle (r : Registration σ) (v : r.request.schema.Value) (state : σ) :
    Step σ Handling :=
  match r.reaction with
  | .silent run => { run v state with value := .silent }
  | .reply id response run =>
    let step := run v state
    let value : Handling :=
      match step.value with
      | none => .silent
      | some value => if id = Header.reservedId then .silent else .reply id response.shape value
    { step with value }

theorem Registration.respond_eq (codec : Codec) (r : Registration σ)
    (v : r.request.schema.Value) (state : σ) :
    r.respond codec v state = (r.handle v state).encoded codec := by
  unfold respond handle
  cases r.reaction with
  | silent run => rfl
  | reply id response run =>
    cases hv : (run v state).value with
    | none => simp [hv, Step.encoded, Handling.outcome]
    | some value =>
      by_cases hid : id = Header.reservedId
      · simp [hv, hid, Step.encoded, Handling.outcome]
      · cases he : codec.encode response.shape value with
        | ok payload => simp only [hv, hid, he, if_false, Step.encoded, Handling.outcome]
        | error cause => simp only [hv, hid, he, if_false, Step.encoded, Handling.outcome]

/-- A request to a bus with a history: a value of the type that counts for its id, or any value if
nothing is registered for the id. -/
inductive Request (history : List (Registration σ))
  | known (r : Registration σ) (hr : last? history r.id = some r) (v : r.request.schema.Value)
  | unknown (id : UInt16) (hid : last? history id = none) (s : Schema) (v : s.Value)

namespace Request
variable {rs : List (Registration σ)}

def id : Request rs → UInt16
  | known r _ _ => r.id
  | unknown id _ _ _ => id

def schema : Request rs → Schema
  | known r _ _ => r.request.schema
  | unknown _ _ s _ => s

def value : (q : Request rs) → q.schema.Value
  | known _ _ v | unknown _ _ _ v => v

def packet (codec : Codec) (q : Request rs) : Except CodecFault Packet :=
  (codec.encode (.schema q.schema) q.value).map fun payload => ⟨q.id, payload⟩

def handle : Request rs → σ → Step σ Handling
  | known r _ v, state => r.handle v state
  | unknown _ _ _ _, state => { value := .unhandled, state }

/-- What is done with requests in order. -/
def handleAll : List (Request rs) → σ → List (Step σ Handling)
  | [], _ => []
  | q :: qs, state => q.handle state :: handleAll qs (q.handle state).state

end Request

/-- The codec encodes the value, and decodes what it encoded to the same value. -/
def Codec.Carries (codec : Codec) (s : Schema) (v : s.Value) : Prop :=
  ∃ payload, codec.encode (.schema s) v = .ok payload ∧ codec.decode s payload = .ok v

/-- A value that nobody waits for needs only be encoded. -/
def Request.Carried (codec : Codec) {rs : List (Registration σ)} : Request rs → Prop
  | .known r _ v => codec.Carries r.request.schema v
  | .unknown _ _ s v => ∃ payload, codec.encode (.schema s) v = .ok payload

section
variable {codec : Codec} {rs : List (Registration σ)} {bus : Bus σ}

/-- A request that is carried to a bus is handled, and the value of the reply is encoded. -/
theorem Request.dispatch_eq (hbus : bus.Reflects codec rs) {q : Request rs}
    (hq : q.Carried codec) :
    ∃ p, q.packet codec = .ok p ∧
      ∀ state, bus.dispatch p state = (q.handle state).encoded codec := by
  cases q with
  | known r hr v =>
    obtain ⟨payload, hencode, hdecode⟩ := hq
    refine ⟨⟨r.id, payload⟩, ?_, ?_⟩
    · simp only [packet, schema, value, id, hencode]
      rfl
    · intro state
      rw [hbus.dispatch_eq]
      simp only [hr, Registration.serve, hdecode]
      exact r.respond_eq codec v state
  | unknown id hid s v =>
    obtain ⟨payload, hencode⟩ := hq
    refine ⟨⟨id, payload⟩, ?_, ?_⟩
    · simp only [packet, schema, value, Request.id, hencode]
      rfl
    · intro state
      rw [hbus.dispatch_eq]
      simp only [hid]
      rfl

/-- A bus handles requests in order as they are told by values. -/
theorem Request.steps_eq (hbus : bus.Reflects codec rs) {qs : List (Request rs)}
    (hqs : ∀ q ∈ qs, q.Carried codec) :
    ∃ ps, List.Forall₂ (fun q p => q.packet codec = .ok p) qs ps ∧
      ∀ start, (bus.steps ps start).map Prod.snd =
        (handleAll qs start).map (Step.encoded codec) := by
  induction qs with
  | nil => exact ⟨[], .nil, fun _ => rfl⟩
  | cons q qs ih =>
    obtain ⟨p, hp, hdispatch⟩ := dispatch_eq hbus (hqs q List.mem_cons_self)
    obtain ⟨ps, hps, hsteps⟩ := ih fun r hr => hqs r (List.mem_cons_of_mem _ hr)
    refine ⟨p :: ps, .cons hp hps, ?_⟩
    intro start
    rw [Bus.steps, List.map_cons, handleAll, List.map_cons, hdispatch, hsteps]
    rfl

end

/-! ## Two codecs -/

/-- The outcomes of one handling with two codecs: of the same kind, with the same ids, and with
payloads that both decode to the value of the reply. -/
inductive Alike (codec other : Codec) :
    Handling → (o o' : Except DispatchFault Outcome) → Prop
  | noHandler : Alike codec other .unhandled (.ok .noHandler) (.ok .noHandler)
  | silent : Alike codec other .silent (.ok .silent) (.ok .silent)
  | reply {id : UInt16} {s : Schema} {v : s.Value} {payload payload' : Octets}
      (h : codec.decode s payload = .ok v) (h' : other.decode s payload' = .ok v) :
      Alike codec other (.reply id (.schema s) v) (.ok (.reply ⟨id, payload⟩))
        (.ok (.reply ⟨id, payload'⟩))
  | refused {id : UInt16} {response : Response} {v : response.Value} {cause cause' : CodecFault}
      (h : codec.encode response v = .error cause) (h' : other.encode response v = .error cause') :
      Alike codec other (.reply id response v) (.error (.encode id cause))
        (.error (.encode id cause'))

namespace Codec
variable {s : Schema} {v : s.Value}

theorem msgPack_carries (hfaithful : s.isFaithful = true) (hnesting : s.nesting < MsgPack.maxDepth)
    (hshort : s.Short v) : msgPack.Carries s v :=
  ⟨MsgPack.write s v, rfl, (msgPack_decode_write hfaithful hnesting hshort).2⟩

theorem json_carries (hfaithful : s.isFaithful = true) (hnesting : s.nesting < Json.maxDepth)
    (v : s.Value) : json.Carries s v :=
  ⟨Json.write s v, rfl, (json_decode_write hfaithful hnesting v).2⟩

end Codec

/-- Values of the schema can be read back from both formats, if they are not too long. -/
def Schema.IsPortable (s : Schema) : Prop := s.isFaithful = true ∧ s.nesting < Json.maxDepth

/-- Values of the response type of a reply can be read back, or both formats refuse the value. -/
inductive Handling.Portable : Handling → Prop
  | unhandled : Portable .unhandled
  | silent : Portable .silent
  | reply {id : UInt16} {s : Schema} {v : s.Value} (hs : s.IsPortable) :
    Portable (.reply id (.schema s) v)
  | refused {id : UInt16} {response : Response} {v : response.Value} {cause cause' : CodecFault}
      (h : Codec.msgPack.encode response v = .error cause)
      (h' : Codec.json.encode response v = .error cause') : Portable (.reply id response v)

/-- No string or sequence of the reply is too long. -/
def Handling.Short : Handling → Prop
  | reply _ (.schema s) v => s.Short v
  | _ => True

def Request.Short {rs : List (Registration σ)} (q : Request rs) : Prop := q.schema.Short q.value

theorem Schema.IsPortable.carries {s : Schema} (hs : s.IsPortable) {v : s.Value}
    (hv : s.Short v) : Codec.msgPack.Carries s v ∧ Codec.json.Carries s v := by
  have hdepth : s.nesting < MsgPack.maxDepth := hs.2.trans (by decide)
  exact ⟨Codec.msgPack_carries hs.1 hdepth hv, Codec.json_carries hs.1 hs.2 v⟩

theorem Handling.Portable.alike {a : Handling} (ha : a.Portable) (hshort : a.Short) :
    Alike .msgPack .json a (a.outcome .msgPack) (a.outcome .json) := by
  cases ha with
  | unhandled => exact .noHandler
  | silent => exact .silent
  | reply hs =>
    obtain ⟨⟨payload, hencode, hdecode⟩, ⟨payload', hencode', hdecode'⟩⟩ := hs.carries hshort
    simp only [outcome, hencode, hencode']
    exact .reply hdecode hdecode'
  | refused h h' =>
    simp only [outcome, h, h']
    exact .refused h h'

/-- A registration whose requests and replies travel alike in both formats. -/
structure Registration.Portable (r : Registration σ) : Prop where
  request : r.request.schema.IsPortable
  handle : ∀ v state, (r.handle v state).value.Portable

namespace Registration
variable {id responseId : UInt16} {request : RequestType} {response : ResponseType}

theorem portable_silent {run : request.schema.Value → σ → Step σ Unit}
    (hrequest : request.schema.IsPortable) : (silent id request run).Portable :=
  ⟨hrequest, fun _ _ => .silent⟩

theorem portable_reply {run : request.schema.Value → σ → Step σ (Option response.shape.Value)}
    (hrequest : request.schema.IsPortable)
    (hvalue : ∀ v state w, (run v state).value = some w →
      (Handling.reply responseId response.shape w).Portable) :
    (reply id responseId request response run).Portable := by
  refine ⟨hrequest, ?_⟩
  intro v state
  simp only [handle, reply]
  cases hv : (run v state).value with
  | none => exact .silent
  | some w =>
    by_cases hid : responseId = Header.reservedId
    · simp only [hid, if_true]
      exact .silent
    · simp only [hid, if_false]
      exact hvalue v state w hv

/-- Nothing is asked of the values of a reply if its type is one of schemas. -/
theorem portable_typed {name : String} {s : Schema}
    {run : request.schema.Value → σ → Step σ (Option s.Value)}
    (hrequest : request.schema.IsPortable) (hs : s.IsPortable) :
    (reply id responseId request ⟨name, .schema s⟩ run).Portable :=
  portable_reply hrequest fun _ _ _ _ => .reply hs

end Registration

section
variable {rs : List (Registration σ)}

theorem mem_of_last? {id : UInt16} {r : Registration σ} (h : last? rs id = some r) : r ∈ rs :=
  (List.mem_filter.mp (List.mem_of_getLast? h)).1

theorem Request.carried_of_short (hrs : ∀ r ∈ rs, r.Portable) {q : Request rs} (hq : q.Short) :
    q.Carried .msgPack ∧ q.Carried .json := by
  cases q with
  | known r hr v => exact (hrs r (mem_of_last? hr)).request.carries hq
  | unknown id hid s v => exact ⟨⟨_, rfl⟩, ⟨_, rfl⟩⟩

theorem Request.portable_of_mem_handleAll (hrs : ∀ r ∈ rs, r.Portable) {qs : List (Request rs)}
    {start : σ} {a : Step σ Handling} (ha : a ∈ handleAll qs start) : a.value.Portable := by
  induction qs generalizing start with
  | nil => simp [handleAll] at ha
  | cons q qs ih =>
    rcases List.mem_cons.mp ha with rfl | ha
    · cases q with
      | known r hr v => exact (hrs r (mem_of_last? hr)).handle v start
      | unknown id hid s v => exact .unhandled
    · exact ih ha

end

/-- Buses with the same registrations and different codecs handle the same requests alike. -/
theorem Request.alike_of_portable {calls : List (Call σ)}
    (hportable : ∀ r ∈ history calls, r.Portable) {qs : List (Request (history calls))} {start : σ}
    (hqs : ∀ q ∈ qs, q.Short) (hreplies : ∀ a ∈ handleAll qs start, a.value.Short) :
    ∃ ps ps' : List Packet,
      List.Forall₂ (fun q p => q.packet .msgPack = .ok p) qs ps ∧
      List.Forall₂ (fun q p => q.packet .json = .ok p) qs ps' ∧
      ((after .msgPack calls).build.steps ps start).map Prod.snd =
        (handleAll qs start).map (Step.encoded .msgPack) ∧
      ((after .json calls).build.steps ps' start).map Prod.snd =
        (handleAll qs start).map (Step.encoded .json) ∧
      ∀ a ∈ handleAll qs start,
        Alike .msgPack .json a.value (a.value.outcome .msgPack) (a.value.outcome .json) := by
  obtain ⟨ps, hps, hsteps⟩ := steps_eq (reflects_after .msgPack calls)
    fun q hq => (carried_of_short hportable (hqs q hq)).1
  obtain ⟨ps', hps', hsteps'⟩ := steps_eq (reflects_after .json calls)
    fun q hq => (carried_of_short hportable (hqs q hq)).2
  refine ⟨ps, ps', hps, hps', hsteps start, hsteps' start, ?_⟩
  intro a ha
  exact (portable_of_mem_handleAll hportable ha).alike (hreplies a ha)

end PacketBus
