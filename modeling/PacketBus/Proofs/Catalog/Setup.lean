import PacketBus.Catalog.Handlers
import PacketBus.Proofs.Bus.Portable

/-! # Setups of the game and their codecs

A bus of the game is set up with handlers and groups in some order. Unless values would have to
travel that JSON loses or cannot write, it does not matter which codec it gets.
-/
namespace PacketBus.Catalog
open Registry

/-- One step of a setup. -/
inductive Entry
  | silent (id : UInt16) (handler : SilentHandler)
  | reply (id responseId : UInt16) (handler : ReplyHandler)
  | install (group : Group)

/-- What a setup does to a registry. Groups are numbered as they are installed. -/
def calls (installed : Nat) : List Entry → List (Call World)
  | [] => []
  | .silent id handler :: rest => .register (handler.register id) :: calls installed rest
  | .reply id responseId handler :: rest =>
    .register (handler.register id responseId) :: calls installed rest
  | .install group :: rest => .install (group.register installed) :: calls (installed + 1) rest

def SilentHandler.isPortable : SilentHandler → Bool
  | sink k => k.isLossless
  | ping | add | move => true

/-- JSON has no maps with octet strings for keys. -/
def ReplyHandler.isPortable : ReplyHandler → Bool
  | echo k => k.isLossless
  | bytesKey => false
  | _ => true

def Entry.isPortable : Entry → Bool
  | silent _ handler => handler.isPortable
  | reply _ _ handler => handler.isPortable
  | install _ => true

theorem Kind.isPortable_of_isLossless {k : Kind} (h : k.isLossless = true) :
    k.schema.IsPortable := by
  obtain ⟨hfaithful, hnesting⟩ := isFaithful_of_isLossless h
  exact ⟨hfaithful, Nat.lt_of_le_of_lt hnesting (by decide)⟩

theorem SilentHandler.portable {handler : SilentHandler} (h : handler.isPortable = true)
    (id : UInt16) : (handler.register id).Portable := by
  cases handler with
  | ping => exact Registration.portable_silent (Kind.isPortable_of_isLossless (k := .unit) rfl)
  | add => exact Registration.portable_silent (Kind.isPortable_of_isLossless (k := .int .i32) rfl)
  | move => exact Registration.portable_silent (Kind.isPortable_of_isLossless (k := .move) rfl)
  | sink k => exact Registration.portable_silent (Kind.isPortable_of_isLossless h)

theorem ReplyHandler.portable {handler : ReplyHandler} (h : handler.isPortable = true)
    (id responseId : UInt16) : (handler.register id responseId).Portable := by
  have hunit : Kind.unit.schema.IsPortable := Kind.isPortable_of_isLossless rfl
  have hping : Kind.ping.schema.IsPortable := Kind.isPortable_of_isLossless rfl
  have hint (k : IntKind) : (Kind.int k).schema.IsPortable := Kind.isPortable_of_isLossless rfl
  have hstring : Kind.string.schema.IsPortable := Kind.isPortable_of_isLossless rfl
  have hvecU8 : Kind.vecU8.schema.IsPortable := Kind.isPortable_of_isLossless rfl
  have hmove : Kind.move.schema.IsPortable := Kind.isPortable_of_isLossless rfl
  cases handler with
  | double => exact Registration.portable_typed (hint .i32) (hint .i32)
  | half => exact Registration.portable_typed (hint .i32) (hint .i32)
  | total => exact Registration.portable_typed (hint .i64) (hint .i64)
  | count => exact Registration.portable_typed hstring (hint .u32)
  | greet => exact Registration.portable_typed hstring hstring
  | push9 => exact Registration.portable_typed hvecU8 (hint .u64)
  | zeros => exact Registration.portable_typed (hint .u32) hvecU8
  | position => exact Registration.portable_typed hunit hmove
  | bytesKey => simp [isPortable] at h
  | refuse =>
    refine Registration.portable_reply (hint .i32) ?_
    intro v state w hw
    exact .refused rfl rfl
  | refuseLater =>
    refine Registration.portable_reply (hint .i32) ?_
    intro v state w hw
    obtain rfl := Option.some.inj hw
    exact .refused rfl rfl
  | none =>
    refine Registration.portable_reply hping ?_
    intro v state w hw
    simp [noting] at hw
  | echo k =>
    have hk := Kind.isPortable_of_isLossless h
    exact Registration.portable_typed hk hk

theorem Group.portable (group : Group) (service : Nat) :
    ∀ r ∈ group.register service, r.Portable := by
  have hping : Kind.ping.schema.IsPortable := Kind.isPortable_of_isLossless rfl
  have hint (k : IntKind) : (Kind.int k).schema.IsPortable := Kind.isPortable_of_isLossless rfl
  have hstring : Kind.string.schema.IsPortable := Kind.isPortable_of_isLossless rfl
  cases group with
  | shop price =>
    intro r hr
    obtain rfl := List.mem_singleton.mp hr
    exact Registration.portable_typed (hint .u32) (hint .u32)
  | greeter greeting =>
    intro r hr
    rcases List.mem_pair.mp hr with rfl | rfl
    · exact Registration.portable_silent hstring
    · exact Registration.portable_typed hstring hstring
  | counted =>
    intro r hr
    rcases List.mem_pair.mp hr with rfl | rfl
    · exact Registration.portable_silent hping
    · exact Registration.portable_typed (hint .i32) (hint .i32)

theorem portable_of_mem_history {entries : List Entry} (h : ∀ e ∈ entries, e.isPortable = true)
    (installed : Nat) : ∀ r ∈ history (calls installed entries), r.Portable := by
  induction entries generalizing installed with
  | nil => simp [calls, history]
  | cons e entries ih =>
    have he := h e List.mem_cons_self
    have hrest := ih fun e he => h e (List.mem_cons_of_mem _ he)
    intro r hr
    cases e with
    | silent id handler =>
      rcases List.mem_cons.mp hr with rfl | hr
      · exact SilentHandler.portable he id
      · exact hrest installed r hr
    | reply id responseId handler =>
      rcases List.mem_cons.mp hr with rfl | hr
      · exact ReplyHandler.portable he id responseId
      · exact hrest installed r hr
    | install group =>
      rcases List.mem_append.mp hr with hr | hr
      · exact Group.portable group installed r hr
      · exact hrest (installed + 1) r hr

/-- Buses with one setup and the two codecs handle the same requests alike: each does what the
values tell, with the same notes and states, and encodes the values of its replies. Replies have the
same ids and payloads that both decode to what the handler returned, and where one bus cannot encode
a value neither can the other. -/
theorem buses_alike {entries : List Entry} (hentries : ∀ e ∈ entries, e.isPortable = true)
    (start : World) {qs : List (Request (history (calls 0 entries)))} (hqs : ∀ q ∈ qs, q.Short)
    (hreplies : ∀ a ∈ Request.handleAll qs start, a.value.Short) :
    let bus (codec : Codec) := (after codec (calls 0 entries)).build
    ∃ ps ps' : List Packet,
      List.Forall₂ (fun q p => q.packet .msgPack = .ok p) qs ps ∧
      List.Forall₂ (fun q p => q.packet .json = .ok p) qs ps' ∧
      ((bus .msgPack).steps ps start).map Prod.snd =
        (Request.handleAll qs start).map (Step.encoded .msgPack) ∧
      ((bus .json).steps ps' start).map Prod.snd =
        (Request.handleAll qs start).map (Step.encoded .json) ∧
      ∀ a ∈ Request.handleAll qs start,
        Alike .msgPack .json a.value (a.value.outcome .msgPack) (a.value.outcome .json) := by
  intro bus
  exact Request.alike_of_portable (portable_of_mem_history hentries 0) hqs hreplies

/-- A reply, a value that is refused, and a request that nobody waits for. -/
theorem buses_alike_refused :
    let double := ReplyHandler.double.register 5 6
    let refuse := ReplyHandler.refuse.register 7 8
    let entries := [Entry.reply 5 6 .double, .install .counted, .reply 7 8 .refuse]
    let qs : List (Request (history (calls 0 entries))) :=
      [.known double rfl (.wrap 21 : FixedInt .i32), .known refuse rfl (.wrap 3 : FixedInt .i32),
        .unknown 99 rfl (.scalar .bool) true]
    let bus (codec : Codec) := (after codec (calls 0 entries)).build
    (∀ e ∈ entries, e.isPortable = true) ∧ (∀ q ∈ qs, q.Short) ∧
      (∀ a ∈ Request.handleAll qs {}, a.value.Short) ∧
      ∃ ps ps' : List Packet,
        List.Forall₂ (fun q p => q.packet .msgPack = .ok p) qs ps ∧
        List.Forall₂ (fun q p => q.packet .json = .ok p) qs ps' ∧
        (bus .msgPack).outcomes ps {} = [.ok (.reply ⟨6, [42]⟩),
          .error (.encode 8 (.msgPackWrite (.reason "refused"))), .ok .noHandler] ∧
        (bus .json).outcomes ps' {} = [.ok (.reply ⟨6, [0x34, 0x32]⟩),
          .error (.encode 8 (.jsonWrite (.reason "refused"))), .ok .noHandler] := by
  intro double refuse entries qs bus
  have hentries : ∀ e ∈ entries, e.isPortable = true := by
    simp [entries, Entry.isPortable, ReplyHandler.isPortable]
  have hqs : ∀ q ∈ qs, q.Short := by
    intro q hq
    simp only [qs, List.mem_cons, List.not_mem_nil, or_false] at hq
    rcases hq with rfl | rfl | rfl <;> trivial
  have hreplies : ∀ a ∈ Request.handleAll qs {}, a.value.Short := by
    intro a ha
    simp only [qs, Request.handleAll, List.mem_cons, List.not_mem_nil, or_false] at ha
    rcases ha with rfl | rfl | rfl <;> trivial
  obtain ⟨ps, ps', hps, hps', hsteps, hsteps', -⟩ := buses_alike hentries {} hqs hreplies
  refine ⟨hentries, hqs, hreplies, ps, ps', hps, hps', ?_, ?_⟩
  · have houtcomes := congrArg (List.map Step.value) hsteps
    rw [List.map_map] at houtcomes
    exact houtcomes
  · have houtcomes := congrArg (List.map Step.value) hsteps'
    rw [List.map_map] at houtcomes
    exact houtcomes

end PacketBus.Catalog
