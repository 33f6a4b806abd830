import PacketBus.MsgPack.Reader

/-! # How far readers look

A reader looks no further than at what it takes. If it does not lack octets then whatever comes
behind them changes nothing, neither the value nor the fault, and is left for what reads next. This
goes over from the readers of markers and fields to those of all schemas.
-/
namespace PacketBus.MsgPack
variable {α β γ : Type}

/-- The input ended before the item did. -/
def Fault.isCut : Fault → Bool
  | .noMarker | .noData | .cutBody => true
  | _ => false

/-- Either the input is cut, or more octets behind it are left and change nothing else. -/
def SettlesWith (leave : Octets → γ → γ) (read : Octets → Except Fault γ) : Prop :=
  ∀ bs more, (∃ fault, fault.isCut = true ∧ read bs = .error fault) ∨
    read (bs ++ more) = (read bs).map (leave more)

abbrev Settles (read : Reader α) : Prop :=
  SettlesWith (fun more x => (x.1, x.2 ++ more)) read

abbrev SkipSettles (skip : Octets → Except Fault Octets) : Prop :=
  SettlesWith (fun more bs => bs ++ more) skip

section
variable {leave : Octets → γ → γ}

theorem settles_ok (a : α) : Settles (fun bs => .ok (a, bs)) := fun _ _ => .inr rfl

theorem skipSettles_ok : SkipSettles (fun bs => .ok bs) := fun _ _ => .inr rfl

theorem settles_error (fault : Fault) : SettlesWith leave (fun _ => .error fault) :=
  fun _ _ => .inr rfl

/-- A decision may go before that reads nothing. -/
theorem settles_of {decision : Except Fault α} {next : α → Octets → Except Fault γ}
    (h : ∀ a, SettlesWith leave (next a)) :
    SettlesWith leave fun bs => decision >>= fun a => next a bs := by
  cases decision with
  | error fault => exact settles_error fault
  | ok a => exact h a

theorem SettlesWith.andThen {leave' : Octets → β → β} {read : Octets → Except Fault β}
    {next : β → Except Fault γ} (h : SettlesWith leave' read)
    (hnext : ∀ x more, (∃ fault, fault.isCut = true ∧ next x = .error fault) ∨
      next (leave' more x) = (next x).map (leave more)) :
    SettlesWith leave fun bs => read bs >>= next := by
  intro bs more
  obtain ⟨fault, hcut, hread⟩ | hread := h bs more
  · refine .inl ⟨fault, hcut, ?_⟩
    simp only [hread]
    rfl
  · simp only [hread]
    cases read bs with
    | error fault => exact .inr rfl
    | ok x => exact hnext x more

theorem Settles.bind {read : Reader α} {next : α × Octets → Except Fault γ} (h : Settles read)
    (hnext : ∀ a, SettlesWith leave fun bs => next (a, bs)) :
    SettlesWith leave fun bs => read bs >>= next :=
  h.andThen fun x more => hnext x.1 x.2 more

theorem SkipSettles.bind {skip : Octets → Except Fault Octets} {next : Octets → Except Fault γ}
    (h : SkipSettles skip) (hnext : SettlesWith leave next) :
    SettlesWith leave fun bs => skip bs >>= next :=
  h.andThen hnext

end

/-! ## Items -/

theorem settles_readMarker : Settles readMarker := by
  intro bs more
  cases bs with
  | nil => exact .inl ⟨.noMarker, rfl, rfl⟩
  | cons b bs => exact .inr rfl

theorem settles_readNat (width : Nat) : Settles (readNat width) := by
  intro bs more
  unfold readNat
  cases h : bs.split? width with
  | none => exact .inl ⟨.noData, rfl, rfl⟩
  | some field =>
    rw [Octets.split?_append_of_some h]
    exact .inr rfl

theorem settles_readBody (n : Nat) : Settles (readBody n) := by
  intro bs more
  unfold readBody
  cases h : bs.split? n with
  | none => exact .inl ⟨.cutBody, rfl, rfl⟩
  | some body =>
    rw [Octets.split?_append_of_some h]
    exact .inr rfl

theorem settles_readItem (m : Marker) : Settles (readItem m) := by
  cases m with
  | reserved => exact settles_error _
  | fixStr n => exact (settles_readBody n).bind fun body => settles_ok _
  | bin w | str w =>
    exact (settles_readNat w).bind fun n => (settles_readBody n).bind fun body => settles_ok _
  | ext w | unsigned w | signed w | array w | map w =>
    exact (settles_readNat w).bind fun n => settles_ok _
  | float f => exact (settles_readNat f.octets).bind fun n => settles_ok _
  | _ => exact settles_ok _

theorem settles_marked {read : Marker → Reader α} (h : ∀ m, Settles (read m)) :
    Settles (marked read) :=
  settles_readMarker.bind h

theorem settles_readOffer (accept : Offer → Except Mismatch α) (depth : Nat) (m : Marker) :
    Settles (readOffer accept depth m) :=
  (settles_readItem m).bind fun _ => settles_of fun v => settles_ok v

/-! ## Items one after another -/

section
variable {read : Reader α} {skip : Octets → Except Fault Octets}

theorem settles_readMany (h : Settles read) (n : Nat) (acc : List α) :
    Settles (readMany read n acc) := by
  induction n generalizing acc with
  | zero => exact settles_ok _
  | succ n ih =>
    have heq : readMany read (n + 1) acc =
        fun bs => read bs >>= fun x => readMany read n (x.1 :: acc) x.2 := by
      funext bs
      rw [readMany]
      cases read bs <;> rfl
    rw [heq]
    exact h.bind fun a => ih (a :: acc)

theorem skipSettles_skipMany (h : SkipSettles skip) (n : Nat) : SkipSettles (skipMany skip n) := by
  induction n with
  | zero => exact skipSettles_ok
  | succ n ih =>
    have heq : skipMany skip (n + 1) = fun bs => skip bs >>= skipMany skip n := by
      funext bs
      rw [skipMany]
      cases skip bs <;> rfl
    rw [heq]
    exact h.bind ih

theorem skipSettles_skip (depth : Nat) : SkipSettles (MsgPack.skip depth) := by
  induction depth with
  | zero => exact settles_error _
  | succ depth ih =>
    refine settles_readMarker.bind fun m => (settles_readItem m).bind fun item => ?_
    cases item with
    | array n => exact settles_of fun _ => skipSettles_skipMany ih n
    | map n => exact settles_of fun _ => skipSettles_skipMany ih (2 * n)
    | ext n =>
      exact settles_of fun _ => (settles_readNat 1).bind fun _ =>
        (settles_readBody n).bind fun _ => skipSettles_ok
    | _ => exact skipSettles_ok

theorem settles_readFields {name : Reader (Option Nat)} {fill : Nat → α → Reader α}
    (hname : Settles name) (hfill : ∀ i slots, Settles (fill i slots)) (hskip : SkipSettles skip)
    (n : Nat) (slots : α) : Settles (readFields name fill skip n slots) := by
  induction n generalizing slots with
  | zero => exact settles_ok slots
  | succ n ih =>
    have heq : readFields name fill skip (n + 1) slots = fun bs => name bs >>= fun x =>
        x.1.elim (skip x.2 >>= readFields name fill skip n slots)
          fun i => fill i slots x.2 >>= fun y => readFields name fill skip n y.1 y.2 := by
      funext bs
      rw [readFields]
      cases name bs with
      | error fault => rfl
      | ok x =>
        obtain ⟨i, rest⟩ := x
        cases i with
        | none => dsimp only [bind, Except.bind, Option.elim]; cases skip rest <;> rfl
        | some i => dsimp only [bind, Except.bind, Option.elim]; cases fill i slots rest <;> rfl
    rw [heq]
    refine hname.bind fun i => ?_
    cases i with
    | none => exact hskip.bind (ih slots)
    | some i => exact (hfill i slots).bind ih

theorem settles_readEntries {κ : Type} [Ord κ] [Std.TransOrd κ] {key : Reader κ}
    {value : Reader α} (hkey : Settles key) (hvalue : Settles value) (n : Nat)
    (m : SortedMap κ α) : Settles (readEntries key value n m) := by
  induction n generalizing m with
  | zero => exact settles_ok m
  | succ n ih =>
    have heq : readEntries key value (n + 1) m = fun bs => key bs >>= fun x =>
        value x.2 >>= fun y => readEntries key value n (m.insert x.1 y.1) y.2 := by
      funext bs
      rw [readEntries]
      cases key bs with
      | error fault => rfl
      | ok x => dsimp only [bind, Except.bind]; cases value x.2 <;> rfl
    rw [heq]
    refine hkey.bind fun k => ?_
    dsimp only
    exact hvalue.bind fun v => ih (m.insert k v)

end

/-! ## Scalars -/

theorem settles_readPlain (s : Scalar) (m : Marker) : Settles (readPlain s m) := by
  unfold readPlain
  split
  · exact settles_readOffer s.accept maxDepth m
  · exact settles_error _

theorem settles_readOctet : Settles readOctet :=
  (settles_marked (settles_readPlain _)).bind fun _ => settles_ok _

theorem settles_readOctets (depth : Nat) (m : Marker) : Settles (readOctets depth m) := by
  refine (settles_readItem m).bind fun item => ?_
  cases item with
  | array n => exact settles_of fun _ => settles_readMany settles_readOctet n []
  | _ => exact settles_of fun v => settles_ok v

theorem settles_readScalar (depth : Nat) (s : Scalar) (m : Marker) :
    Settles (readScalar depth s m) := by
  cases s with
  | marker name =>
    -- an empty array is taken without a look at what follows
    cases m with
    | fixArray n =>
      cases n with
      | zero => exact settles_ok ()
      | succ n => exact settles_readOffer _ depth _
    | _ => exact settles_readOffer _ depth _
  | bool | int k | float f => exact settles_readPlain _ m
  | unit | char | string => exact settles_readOffer _ depth m
  | octets => exact settles_readOctets depth m

theorem settles_readKey (depth : Nat) (k : KeyKind) : Settles (readKey depth k) := by
  cases k with
  | string => exact settles_marked (settles_readScalar depth .string)
  | int k => exact settles_marked (settles_readScalar depth (.int k))

theorem settles_readIdent (expected : String) (resolve : Ident → Except Mismatch α) (depth : Nat) :
    Settles (readIdent expected resolve depth) :=
  settles_marked (settles_readOffer _ depth)

/-! ## Values and their parts -/

section
variable {read : Reader α}

theorem settles_readOption {read : Marker → Reader α} (h : ∀ m, Settles (read m)) (m : Marker) :
    Settles (readOption read m) := by
  cases m with
  | nil => exact settles_ok none
  | _ => exact (h _).bind fun v => settles_ok (some v)

theorem settles_nextItem {missing : Except Fault α} (h : Settles read) (left : Nat) :
    Settles (nextItem missing read left) := by
  cases left with
  | zero => exact settles_of fun v => settles_ok (v, 0)
  | succ left => exact h.bind fun v => settles_ok (v, left)

theorem settles_fillSlot (h : Settles read) (field : String) (slot : Option α) :
    Settles (fillSlot field read slot) := by
  cases slot with
  | none => exact h.bind fun v => settles_ok (some v)
  | some v => exact settles_error _

theorem settles_exhausted {read : Reader (α × Nat)} (h : Settles read) (n : Nat) :
    Settles fun bs => read bs >>= exhausted n := by
  refine h.bind fun x => ?_
  obtain ⟨values, left⟩ := x
  cases left with
  | zero => exact settles_ok values
  | succ left => exact settles_error _

end

mutual

theorem settles_readAt : (s : Schema) → (depth : Nat) → (m : Marker) → Settles (readAt s depth m)
  | .scalar s, depth, m => by
    show Settles fun bs => readAt (.scalar s) depth m bs
    simp only [readAt]
    exact settles_readScalar depth s m
  | .option s, depth, m => by
    show Settles fun bs => readAt (.option s) depth m bs
    simp only [readAt]
    exact settles_readOption (settles_readAt s depth) m
  | .seq s, depth, m => by
    show Settles fun bs => readAt (.seq s) depth m bs
    simp only [readAt]
    refine (settles_readItem m).bind fun item => ?_
    cases item with
    | array n =>
      exact settles_of fun depth => settles_readMany (settles_marked (settles_readAt s depth)) n []
    | _ => exact settles_of fun v => settles_ok v
  | .tuple name items, depth, m => by
    show Settles fun bs => readAt (.tuple name items) depth m bs
    simp only [readAt]
    refine (settles_readItem m).bind fun item => ?_
    cases item with
    | array n =>
      exact settles_of fun depth => settles_exhausted (settles_readItems items depth _ 0 n) n
    | _ => exact settles_of fun v => settles_ok v
  | .record title strict fields, depth, m => by
    show Settles fun bs => readAt (.record title strict fields) depth m bs
    simp only [readAt]
    refine (settles_readItem m).bind fun item => ?_
    cases item with
    | array n =>
      exact settles_of fun depth => settles_exhausted (settles_readItems fields depth _ 0 n) n
    | map n =>
      refine settles_of fun depth => ?_
      have hname := settles_readIdent "field identifier" (fields.resolve strict) depth
      have hfill := fun i slots => settles_readField fields depth i slots
      refine (settles_readFields hname hfill (skipSettles_skip depth) n
        fields.emptySlots).bind fun slots => ?_
      dsimp only
      exact settles_of fun v => settles_ok v
    | _ => exact settles_of fun v => settles_ok v
  | .map k s, depth, m => by
    show Settles fun bs => readAt (.map k s) depth m bs
    simp only [readAt]
    refine (settles_readItem m).bind fun item => ?_
    cases item with
    | map n =>
      exact settles_of fun depth => settles_readEntries (settles_readKey depth k)
        (settles_marked (settles_readAt s depth)) n .empty
    | _ => exact settles_of fun v => settles_ok v
  | .choice name variants, depth, m => by
    show Settles fun bs => readAt (.choice name variants) depth m bs
    simp only [readAt]
    refine (settles_readItem m).bind fun item => ?_
    cases item with
    | map n =>
      by_cases hn : n = 1
      · simp only [hn, if_true]
        exact (settles_readIdent _ _ depth).bind fun i => settles_readContent variants depth i
      · simp only [hn, if_false]
        exact settles_error _
    | _ => exact settles_of fun i => settles_of fun v => settles_ok v

theorem settles_readItems : (r : Row) → (depth : Nat) → (expected : String) →
    (index left : Nat) → Settles (readItems r depth expected index left)
  | .nil, _, _, _, left => by
    show Settles fun bs => readItems .nil _ _ _ left bs
    simp only [readItems]
    exact settles_ok ((), left)
  | .required field s rest, depth, expected, index, left => by
    show Settles fun bs => readItems (.required field s rest) depth expected index left bs
    simp only [readItems]
    refine (settles_nextItem (settles_marked (settles_readAt s depth)) left).bind fun x => ?_
    dsimp only
    exact (settles_readItems rest depth expected (index + 1) x.2).bind fun y =>
      settles_ok ((x.1, y.1), y.2)
  | .orZero field k rest, depth, expected, index, left => by
    show Settles fun bs => readItems (.orZero field k rest) depth expected index left bs
    simp only [readItems]
    refine (settles_nextItem (settles_marked (settles_readScalar depth _)) left).bind fun x => ?_
    dsimp only
    exact (settles_readItems rest depth expected (index + 1) x.2).bind fun y =>
      settles_ok ((x.1, y.1), y.2)
  | .orNone field s rest, depth, expected, index, left => by
    show Settles fun bs => readItems (.orNone field s rest) depth expected index left bs
    simp only [readItems]
    refine (settles_nextItem (settles_marked (settles_readOption (settles_readAt s depth)))
      left).bind fun x => ?_
    dsimp only
    exact (settles_readItems rest depth expected (index + 1) x.2).bind fun y =>
      settles_ok ((x.1, y.1), y.2)

theorem settles_readField : (r : Row) → (depth index : Nat) → (slots : r.Slots) →
    Settles (readField r depth index slots)
  | .nil, depth, index, slots => by
    show Settles fun bs => readField .nil depth index slots bs
    simp only [readField]
    exact settles_ok slots
  | .required field s rest, depth, 0, (slot, slots) => by
    show Settles fun bs => readField (.required field s rest) depth 0 (slot, slots) bs
    simp only [readField]
    exact (settles_fillSlot (settles_marked (settles_readAt s depth)) field slot).bind fun slot =>
      settles_ok (slot, slots)
  | .orZero field k rest, depth, 0, (slot, slots) => by
    show Settles fun bs => readField (.orZero field k rest) depth 0 (slot, slots) bs
    simp only [readField]
    exact (settles_fillSlot (settles_marked (settles_readScalar depth (.int k))) field slot).bind
      fun slot => settles_ok (slot, slots)
  | .orNone field s rest, depth, 0, (slot, slots) => by
    show Settles fun bs => readField (.orNone field s rest) depth 0 (slot, slots) bs
    simp only [readField]
    exact (settles_fillSlot (settles_marked (settles_readOption (settles_readAt s depth))) field
      slot).bind fun slot => settles_ok (slot, slots)
  | .required field s rest, depth, index + 1, (slot, slots) => by
    show Settles fun bs => readField (.required field s rest) depth (index + 1) (slot, slots) bs
    simp only [readField]
    exact (settles_readField rest depth index slots).bind fun slots =>
      settles_ok (slot, slots)
  | .orZero field k rest, depth, index + 1, (slot, slots) => by
    show Settles fun bs => readField (.orZero field k rest) depth (index + 1) (slot, slots) bs
    simp only [readField]
    exact (settles_readField rest depth index slots).bind fun slots =>
      settles_ok (slot, slots)
  | .orNone field s rest, depth, index + 1, (slot, slots) => by
    show Settles fun bs => readField (.orNone field s rest) depth (index + 1) (slot, slots) bs
    simp only [readField]
    exact (settles_readField rest depth index slots).bind fun slots =>
      settles_ok (slot, slots)

theorem settles_readContent : (v : Variants) → (depth index : Nat) →
    Settles (readContent v depth index)
  | .nil, depth, index => by
    show Settles fun bs => readContent .nil depth index bs
    simp only [readContent]
    exact settles_error _
  | .bare variant rest, depth, 0 => by
    show Settles fun bs => readContent (.bare variant rest) depth 0 bs
    simp only [readContent]
    refine settles_readMarker.bind fun m => ?_
    dsimp only
    cases m with
    | nil => exact settles_ok _
    | _ => exact settles_error _
  | .carrying variant form s rest, depth, 0 => by
    show Settles fun bs => readContent (.carrying variant form s rest) depth 0 bs
    simp only [readContent]
    exact (settles_marked (settles_readAt s depth)).bind fun v => settles_ok (Sum.inl v)
  | .bare variant rest, depth, index + 1 => by
    show Settles fun bs => readContent (.bare variant rest) depth (index + 1) bs
    simp only [readContent]
    exact (settles_readContent rest depth index).bind fun v => settles_ok (Sum.inr v)
  | .carrying variant form s rest, depth, index + 1 => by
    show Settles fun bs => readContent (.carrying variant form s rest) depth (index + 1) bs
    simp only [readContent]
    exact (settles_readContent rest depth index).bind fun v => settles_ok (Sum.inr v)

end

/-! ## Payloads -/

/-- What comes behind a payload is not looked at, unless octets of the payload itself are missing.
It is not even an error that it is there. -/
theorem settles_read (s : Schema) : SettlesWith (fun _ v => v) (read s) :=
  (settles_marked (settles_readAt s maxDepth)).bind fun _ _ _ => .inr rfl

end PacketBus.MsgPack
