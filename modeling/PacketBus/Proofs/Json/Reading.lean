import PacketBus.Proofs.Json.Lookahead

/-! # How far the readers of values look

Lists and objects are read to their closing bracket and strings to their closing quote, so what
comes behind them changes nothing. A number within them has one of these behind it. What is left is
a value that is a number itself.
-/
namespace PacketBus

/-- Whether it shows where a value ends. The end of a number does not, as more digits may come. -/
def Schema.isDelimited : Schema → Bool
  | .scalar (.int _) | .scalar (.float _) => false
  | .option s => s.isDelimited
  | _ => true

def Offer.isNumber : Offer → Bool
  | .unsigned _ | .signed _ | .float _ _ => true
  | _ => false

theorem Scalar.isNumber_of_accept {s : Scalar} (hs : (Schema.scalar s).isDelimited = true)
    {offer : Offer} {v : s.Value} (hv : s.accept offer = .ok v) : offer.isNumber = false := by
  cases s with
  | int k => simp [Schema.isDelimited] at hs
  | float f => simp [Schema.isDelimited] at hs
  | _ => cases offer <;> first | rfl | simp [Scalar.accept] at hv

namespace Json
variable {α γ : Type} {p : Prop} {bs : Octets}

/-! ## Items -/

theorem refuse_ne_ok (expected : String) (bs : Octets) (x : γ) : refuse expected bs ≠ .ok x := by
  intro hx
  unfold refuse at hx
  cases ho : readOffer bs with
  | error fault =>
    rw [ho] at hx
    cases hx
  | ok o =>
    rw [ho] at hx
    cases hx

theorem Number.isNumber_offer (n : Number) : n.offer.isNumber = true := by
  cases n <;> rfl

/-- An item that is no number shows where it ends. -/
theorem settles_readAs {accept : Offer → Except Mismatch α}
    (haccept : p ∨ ∀ offer v, accept offer = .ok v → offer.isNumber = false) :
    Settles p (readAs accept) := by
  have hitem {read : Reader Offer} (h : Settles p read) : Settles p fun bs => read bs >>= fun x =>
      (accept x.1).mapError Fault.mismatch >>= fun v => .ok (v, x.2) := by
    refine h.bindOpen fun offer => ?_
    dsimp only
    exact steady_of fun v => steady_ok v
  refine settles_front (fun bs => by simp only [readAs, readOffer, skipBlank_skipBlank]) nofun
    fun b hb => ?_
  simp only [readAs, readOffer, skipBlank_cons hb]
  split
  · exact hitem ((skipSettles_literal nullTail).bindOpen (steady_ok Offer.unit))
  split
  · exact hitem ((skipSettles_literal trueTail).bindOpen (steady_ok (Offer.bool true)))
  split
  · exact hitem ((skipSettles_literal falseTail).bindOpen (steady_ok (Offer.bool false)))
  split
  · obtain hp | hnone := haccept
    · have hnumber : Settles True fun bs =>
          readNumber (b :: bs) >>= fun x => .ok (x.1.offer, x.2) :=
        Settles.bindOpen (settles_readNumber.cons b) fun n => steady_ok n.offer
      exact hitem (hnumber.mono fun _ => hp)
    · refine settles_never fun bs x hx => ?_
      cases hn : readNumber (b :: bs) with
      | error fault =>
        rw [hn] at hx
        cases hx
      | ok y =>
        obtain ⟨n, rest⟩ := y
        rw [hn] at hx
        cases hv : accept n.offer with
        | error mismatch =>
          change (accept n.offer).mapError Fault.mismatch >>= _ = _ at hx
          rw [hv] at hx
          cases hx
        | ok v =>
          have hfalse := hnone n.offer v hv
          rw [n.isNumber_offer] at hfalse
          cases hfalse
  split
  · exact hitem (settles_readText.bindOpen fun s => steady_ok (Offer.string s))
  split
  · exact hitem (settles_ok Offer.sequence)
  split
  · exact hitem (settles_ok Offer.map)
  · exact settles_error _

/-! ## Items one after another -/

section
variable {read : Reader α}

theorem refuses_readMany (fuel : Nat) (first : Bool) (acc : List α) :
    Refuses (readMany read fuel first acc) := by
  cases fuel with
  | zero => nofun
  | succ fuel => nofun

theorem settles_readMany (h : Settles True read) (fuel : Nat) (first : Bool) (acc : List α) :
    Settles p (readMany read fuel first acc) := by
  induction fuel generalizing first acc with
  | zero => exact settles_error _
  | succ fuel ih =>
    have hnext : Settles p fun bs => read bs >>= fun x =>
        readMany read fuel false (x.1 :: acc) x.2 :=
      h.close (fun _ => refuses_readMany _ _ _) fun a => ih false (a :: acc)
    refine settles_ask (settles_nextItem? first) (settles_ok acc.reverse) hnext fun bs => ?_
    rw [readMany]
    cases nextItem? first bs with
    | error fault => rfl
    | ok o =>
      cases o with
      | none => rfl
      | some cs => dsimp only [bind, Except.bind, Option.elim]; cases read cs <;> rfl

theorem readMany_succ {fuel : Nat} {first : Bool} {acc : List α} {x : List α × Octets}
    (hx : readMany read fuel first acc bs = .ok x) :
    readMany read (fuel + 1) first acc bs = .ok x := by
  induction fuel generalizing first acc bs with
  | zero => cases hx
  | succ fuel ih =>
    rw [readMany] at hx ⊢
    revert hx
    cases nextItem? first bs with
    | error fault => exact id
    | ok o =>
      cases o with
      | none => exact id
      | some cs =>
        dsimp only
        cases read cs with
        | error fault => exact id
        | ok y => exact ih

/-- A list has its closing bracket behind its last item. -/
theorem settles_listed (h : Settles True read) :
    Settles p fun bs => read bs >>= fun x => endList x.2 >>= fun rest => .ok (x.1, rest) :=
  h.close (fun _ => nofun) fun a => skipSettles_endList.bindOpen (steady_ok a)

theorem settles_readList (h : Settles True read) : Settles p (readList read) :=
  settles_listed (settles_fuel (fun fuel => settles_readMany h fuel true [])
    readMany_succ)

end

/-! ## Scalars -/

theorem settles_readOctet : Settles True readOctet :=
  Settles.bindOpen (settles_readAs (.inl trivial)) fun _ => steady_ok _

theorem settles_readOctetString (depth : Nat) : Settles p (readOctetString depth) := by
  refine settles_front (fun bs => by simp only [readOctetString, skipBlank_skipBlank]) nofun
    fun b hb => ?_
  simp only [readOctetString, skipBlank_cons hb]
  split
  · exact settles_readOctets .octets .plain []
  split
  · exact settles_of fun _ => settles_readList settles_readOctet
  · exact settles_never fun _ _ => refuse_ne_ok _ _ _

theorem settles_readScalar (depth : Nat) (s : Scalar) :
    Settles ((Schema.scalar s).isDelimited = false) (readScalar depth s) := by
  have haccept : (Schema.scalar s).isDelimited = false ∨
      ∀ offer v, s.accept offer = .ok v → offer.isNumber = false := by
    cases hs : (Schema.scalar s).isDelimited with
    | false => exact .inl rfl
    | true => exact .inr fun offer v => Scalar.isNumber_of_accept hs
  cases s with
  | octets => exact settles_readOctetString depth
  | _ => exact settles_readAs haccept

theorem refuses_readScalar (depth : Nat) (s : Scalar) : Refuses (readScalar depth s) := by
  cases s <;> nofun

/-! ## Parts of values -/

section
variable {read : Reader α}

theorem refuses_readOption (hrefuses : Refuses read) : Refuses (readOption read) := by
  intro x hx
  change read [] >>= _ = _ at hx
  cases hread : read [] with
  | error fault =>
    rw [hread] at hx
    cases hx
  | ok y => exact hrefuses y hread

theorem settles_readOption (hrefuses : Refuses read) (h : Settles p read) :
    Settles p (readOption read) := by
  refine settles_front (fun bs => by simp only [readOption, skipBlank_skipBlank])
    (refuses_readOption hrefuses) fun b hb => ?_
  by_cases hnull : b = 0x6E
  · subst hnull
    exact (skipSettles_literal nullTail).bindOpen (steady_ok none)
  · have heq (bs : Octets) : readOption read (b :: bs) =
        read (b :: bs) >>= fun x => .ok (some x.1, x.2) := by
      unfold readOption
      rw [skipBlank_cons hb]
      split
      · rename_i heq
        exact absurd (List.cons.inj heq).1 hnull
      · rfl
    simp only [heq]
    exact Settles.bindOpen (h.cons b) fun v => steady_ok (some v)

theorem settles_readIntKey (k : IntKind) : Settles p (readIntKey k) := by
  refine settles_cons nofun fun b => ?_
  cases hb : startsNumber b with
  | false =>
    have hfront (bs : Octets) : ((b :: bs).head?.map startsNumber).getD false = false := hb
    simp only [readIntKey, hfront]
    exact settles_error _
  | true =>
    have hfront (bs : Octets) : ((b :: bs).head?.map startsNumber).getD false = true := hb
    simp only [readIntKey, hfront, if_true]
    have hread : Settles True fun bs => readAs (Scalar.int k).accept (b :: bs) :=
      SettlesWith.cons (settles_readAs (.inl trivial)) b
    refine hread.close (fun _ => nofun) fun i => settles_cons nofun fun c => ?_
    by_cases hquote : c = 0x22
    · subst hquote
      exact settles_ok i
    · refine settles_never fun bs x hx => ?_
      dsimp only at hx
      split at hx
      · rename_i heq
        exact hquote (List.cons.inj heq).1
      · cases hx

theorem settles_readKey (k : KeyKind) : Settles p (readKey k) := by
  cases k with
  | string => exact settles_readText
  | int k => exact settles_readIntKey k

theorem settles_readIdent (resolve : Ident → Except Mismatch α) : Settles p (readIdent resolve) :=
  settles_readText.bindOpen fun _ => steady_of fun i => steady_ok i

theorem settles_fillSlot (h : Settles True read) (field : String) (slot : Option α) :
    Settles True (fillSlot field read slot) := by
  cases slot with
  | none => exact Settles.bindOpen (skipSettles_colon.bind h) fun v => steady_ok (some v)
  | some v => exact settles_error _

theorem settles_readNext {missing : Except Fault α} (h : Settles p read) (first : Bool) :
    Settles p (readNext missing read first) := by
  have hstop : Settles p fun bs => missing >>= fun v => .ok (v, bs) :=
    settles_of fun v => settles_ok v
  refine settles_ask (settles_nextItem? first) hstop h fun bs => ?_
  rw [readNext]
  cases nextItem? first bs with
  | error fault => rfl
  | ok o => cases o <;> rfl

/-! ## Entries -/

theorem refuses_readFields {name : Reader (Option Nat)} {fill : Nat → α → Reader α} (fuel : Nat)
    (first : Bool) (slots : α) : Refuses (readFields name fill fuel first slots) := by
  cases fuel with
  | zero => nofun
  | succ fuel => nofun

theorem settles_readFields {name : Reader (Option Nat)} {fill : Nat → α → Reader α}
    (hname : Settles False name) (hfill : ∀ i slots, Settles True (fill i slots)) (fuel : Nat)
    (first : Bool) (slots : α) : Settles p (readFields name fill fuel first slots) := by
  induction fuel generalizing first slots with
  | zero => exact settles_error _
  | succ fuel ih =>
    have hnext : Settles p fun bs => name bs >>= fun x =>
        x.1.elim ((colon x.2 >>= skip) >>= readFields name fill fuel false slots)
          fun i => fill i slots x.2 >>= fun y => readFields name fill fuel false y.1 y.2 := by
      refine hname.bind fun i => ?_
      cases i with
      | none =>
        exact SkipSettles.close (skipSettles_colon.bind skipSettles_skip)
          (refuses_readFields _ _ _) (ih false slots)
      | some i =>
        exact (hfill i slots).close (fun _ => refuses_readFields _ _ _) fun slots => ih false slots
    refine settles_ask (settles_nextKey? first) (settles_ok slots) hnext fun bs => ?_
    rw [readFields]
    cases nextKey? first bs with
    | error fault => rfl
    | ok o =>
      cases o with
      | none => rfl
      | some cs =>
        dsimp only [bind, Except.bind, Option.elim]
        cases name cs with
        | error fault => rfl
        | ok x =>
          obtain ⟨i, rest⟩ := x
          cases i with
          | none =>
            dsimp only
            cases colon rest with
            | error fault => rfl
            | ok rest => dsimp only; cases skip rest <;> rfl
          | some i => dsimp only; cases fill i slots rest <;> rfl

theorem readFields_succ {name : Reader (Option Nat)} {fill : Nat → α → Reader α} {fuel : Nat}
    {first : Bool} {slots : α} {x : α × Octets}
    (hx : readFields name fill fuel first slots bs = .ok x) :
    readFields name fill (fuel + 1) first slots bs = .ok x := by
  induction fuel generalizing first slots bs with
  | zero => cases hx
  | succ fuel ih =>
    rw [readFields] at hx ⊢
    revert hx
    cases nextKey? first bs with
    | error fault => exact id
    | ok o =>
      cases o with
      | none => exact id
      | some cs =>
        dsimp only
        cases name cs with
        | error fault => exact id
        | ok y =>
          obtain ⟨i, rest⟩ := y
          cases i with
          | none =>
            dsimp only
            cases colon rest >>= skip with
            | error fault => exact id
            | ok rest => exact ih
          | some i =>
            dsimp only
            cases fill i slots rest with
            | error fault => exact id
            | ok y => exact ih

section
variable {κ : Type} [Ord κ] [Std.TransOrd κ] {key : Reader κ}

theorem refuses_readEntries (fuel : Nat) (first : Bool) (m : SortedMap κ α) :
    Refuses (readEntries key read fuel first m) := by
  cases fuel with
  | zero => nofun
  | succ fuel => nofun

theorem settles_readEntries (hkey : Settles False key) (h : Settles True read) (fuel : Nat)
    (first : Bool) (m : SortedMap κ α) : Settles p (readEntries key read fuel first m) := by
  induction fuel generalizing first m with
  | zero => exact settles_error _
  | succ fuel ih =>
    have hnext : Settles p fun bs => key bs >>= fun x => (colon x.2 >>= read) >>= fun y =>
        readEntries key read fuel false (m.insert x.1 y.1) y.2 := by
      refine hkey.bind fun k => ?_
      have hvalue : Settles True fun bs => colon bs >>= read := skipSettles_colon.bind h
      dsimp only
      exact hvalue.close (fun _ => refuses_readEntries _ _ _) fun v => ih false (m.insert k v)
    refine settles_ask (settles_nextKey? first) (settles_ok m) hnext fun bs => ?_
    rw [readEntries]
    cases nextKey? first bs with
    | error fault => rfl
    | ok o =>
      cases o with
      | none => rfl
      | some cs =>
        dsimp only [bind, Except.bind, Option.elim]
        cases key cs with
        | error fault => rfl
        | ok x =>
          dsimp only
          cases colon x.2 with
          | error fault => rfl
          | ok rest => dsimp only; cases read rest <;> rfl

theorem readEntries_succ {fuel : Nat} {first : Bool} {m : SortedMap κ α}
    {x : SortedMap κ α × Octets} (hx : readEntries key read fuel first m bs = .ok x) :
    readEntries key read (fuel + 1) first m bs = .ok x := by
  induction fuel generalizing first m bs with
  | zero => cases hx
  | succ fuel ih =>
    rw [readEntries] at hx ⊢
    revert hx
    cases nextKey? first bs with
    | error fault => exact id
    | ok o =>
      cases o with
      | none => exact id
      | some cs =>
        dsimp only
        cases key cs with
        | error fault => exact id
        | ok y =>
          dsimp only
          cases colon y.2 >>= read with
          | error fault => exact id
          | ok z => exact ih

end

end

/-! ## Values -/

theorem refuses_readAt : (s : Schema) → (depth : Nat) → Refuses (readAt s depth)
  | .scalar s, depth => refuses_readScalar depth s
  | .option s, depth => refuses_readOption (refuses_readAt s depth)
  | .seq _, _ | .tuple _ _, _ | .record _ _ _, _ | .map _ _, _ | .choice _ _, _ => nofun

/-- A step that succeeds behind one octet only. -/
theorem settles_only {tail : Tail γ} {step : Octets → Except Fault γ} (c : UInt8)
    (hblank : ∀ bs, step (skipBlank bs) = step bs) (hrefuses : Refuses step)
    (hopen : SettlesWith tail p fun bs => step (c :: bs))
    (hother : ∀ b bs x, isBlank b = false → b ≠ c → step (b :: bs) ≠ .ok x) :
    SettlesWith tail p step := by
  refine settles_front hblank hrefuses fun b hb => ?_
  by_cases heq : b = c
  · exact heq ▸ hopen
  · exact settles_never fun bs x => hother b bs x hb heq

/-- The brace behind the content of a variant. -/
theorem settles_closing (v : α) : Settles p fun bs =>
    match skipBlank bs with
    | [] => .error .endInObject
    | 0x7D :: rest => .ok (v, rest)
    | _ => .error .expectedValue := by
  refine settles_only 0x7D (fun bs => by simp only [skipBlank_skipBlank]) nofun (settles_ok v) ?_
  intro b bs x hb hne hx
  simp only [skipBlank_cons hb] at hx
  split at hx
  · cases hx
  · rename_i heq
    exact hne (List.cons.inj heq).1
  · cases hx

mutual

theorem settles_readAt : (s : Schema) → (depth : Nat) →
    Settles (s.isDelimited = false) (readAt s depth)
  | .scalar s, depth => settles_readScalar depth s
  | .option s, depth => settles_readOption (refuses_readAt s depth) (settles_readAt s depth)
  | .seq s, depth => by
    refine settles_only 0x5B (fun bs => by simp only [readAt, skipBlank_skipBlank])
      (refuses_readAt _ depth) ?_ fun b bs x hb hne hx => ?_
    · change Settles _ fun bs => enter depth >>= fun depth => readList (readAt s depth) bs
      exact settles_of fun depth => settles_readList (settles_readAt s depth).bare
    · simp only [readAt, skipBlank_cons hb] at hx
      split at hx
      · rename_i heq
        exact hne (List.cons.inj heq).1
      · exact refuse_ne_ok _ _ x hx
  | .tuple name items, depth => by
    refine settles_only 0x5B (fun bs => by simp only [readAt, skipBlank_skipBlank])
      (refuses_readAt _ depth) ?_ fun b bs x hb hne hx => ?_
    · change Settles _ fun bs => enter depth >>= fun depth =>
        readItems items depth (name.counted items.length) 0 bs >>= fun x =>
          endList x.2 >>= fun rest => .ok (x.1, rest)
      exact settles_of fun depth => settles_listed (steady_readItems items depth _ 0).settles
    · simp only [readAt, skipBlank_cons hb] at hx
      split at hx
      · rename_i heq
        exact hne (List.cons.inj heq).1
      · exact refuse_ne_ok _ _ x hx
  | .record title strict fields, depth => by
    refine settles_front (fun bs => by simp only [readAt, skipBlank_skipBlank])
      (refuses_readAt _ depth) fun b hb => ?_
    by_cases hlist : b = 0x5B
    · subst hlist
      change Settles _ fun bs => enter depth >>= fun depth =>
        readItems fields depth (elements title fields.length) 0 bs >>= fun x =>
          endList x.2 >>= fun rest => .ok (x.1, rest)
      exact settles_of fun depth => settles_listed (steady_readItems fields depth _ 0).settles
    · by_cases hobject : b = 0x7B
      · subst hobject
        change Settles _ fun bs => enter depth >>= fun depth =>
          readFields (readIdent (fields.resolve strict))
              (fun i slots bs => readField fields depth i slots bs) (bs.length + 1) true
              fields.emptySlots bs >>= fun x =>
            (fields.finish x.1).mapError .mismatch >>= fun v =>
              endObject x.2 >>= fun rest => .ok (v, rest)
        refine settles_of fun depth => ?_
        have hfields := settles_fuel (fun fuel => settles_readFields (p := False)
          (settles_readIdent (fields.resolve strict))
          (fun i slots => settles_readField fields depth i slots) fuel true fields.emptySlots)
          readFields_succ
        refine Settles.bind hfields fun slots => ?_
        dsimp only
        exact settles_of fun v => skipSettles_endObject.bindOpen (steady_ok v)
      · refine settles_never fun bs x hx => ?_
        simp only [readAt, skipBlank_cons hb] at hx
        split at hx
        · rename_i heq
          exact hlist (List.cons.inj heq).1
        · rename_i heq
          exact hobject (List.cons.inj heq).1
        · exact refuse_ne_ok _ _ x hx
  | .map k s, depth => by
    refine settles_only 0x7B (fun bs => by simp only [readAt, skipBlank_skipBlank])
      (refuses_readAt _ depth) ?_ fun b bs x hb hne hx => ?_
    · change Settles _ fun bs => enter depth >>= fun depth =>
        readEntries (readKey k) (readAt s depth) (bs.length + 1) true .empty bs >>= fun x =>
          endObject x.2 >>= fun rest => .ok (x.1, rest)
      refine settles_of fun depth => ?_
      have hvalue := (settles_readAt s depth).bare
      have hentries := settles_fuel (fun fuel =>
        settles_readEntries (p := False) (settles_readKey k) hvalue fuel true .empty)
        readEntries_succ
      exact Settles.bind hentries fun m => skipSettles_endObject.bindOpen (steady_ok m)
    · simp only [readAt, skipBlank_cons hb] at hx
      split at hx
      · rename_i heq
        exact hne (List.cons.inj heq).1
      · exact refuse_ne_ok _ _ x hx
  | .choice name variants, depth => by
    refine settles_front (fun bs => by simp only [readAt, skipBlank_skipBlank])
      (refuses_readAt _ depth) fun b hb => ?_
    by_cases hquote : b = 0x22
    · subst hquote
      change Settles _ fun bs => readIdent variants.resolve bs >>= fun x =>
        (variants.bareAt x.1).mapError .mismatch >>= fun v => .ok (v, x.2)
      refine (settles_readIdent variants.resolve).bind fun i => ?_
      dsimp only
      exact settles_of fun v => settles_ok v
    · by_cases hobject : b = 0x7B
      · subst hobject
        change Settles _ fun bs => enter depth >>= _
        refine settles_of fun depth => settles_only 0x22
          (fun bs => by simp only [skipBlank_skipBlank]) nofun ?_ fun c bs x hc hne hx => ?_
        · change Settles _ fun bs => readIdent variants.resolve bs >>= _
          refine (settles_readIdent variants.resolve).bind fun i => ?_
          change Settles _ fun bs => colon bs >>= _
          refine skipSettles_colon.bind ?_
          change Settles _ fun bs => readContent variants depth i bs >>= _
          exact (settles_readContent variants depth i).close (fun _ => nofun) settles_closing
        · simp only [skipBlank_cons hc] at hx
          split at hx
          · cases hx
          · cases hx
          · rename_i heq
            exact hne (List.cons.inj heq).1
          · cases hx
      · refine settles_never fun bs x hx => ?_
        simp only [readAt, skipBlank_cons hb] at hx
        split at hx
        · rename_i heq
          exact List.cons_ne_nil _ _ heq
        · rename_i heq
          exact hquote (List.cons.inj heq).1
        · rename_i heq
          exact hobject (List.cons.inj heq).1
        · cases hx

theorem steady_readItems : (r : Row) → (depth : Nat) → (expected : String) → (index : Nat) →
    Steady .item True (readItems r depth expected index)
  | .nil, _, _, _ => steady_ok ()
  | .required field s rest, depth, expected, index => by
    have hread := (settles_readAt s depth).bare
    refine SettlesWith.steady ?_ nofun
    exact (settles_readNext hread _).bindOpen fun v =>
      (steady_readItems rest depth expected (index + 1)).bind fun vs => steady_ok (v, vs)
  | .orZero field k rest, depth, expected, index => by
    have hread := (settles_readScalar depth (.int k)).bare
    refine SettlesWith.steady ?_ nofun
    exact (settles_readNext hread _).bindOpen fun v =>
      (steady_readItems rest depth expected (index + 1)).bind fun vs => steady_ok (v, vs)
  | .orNone field s rest, depth, expected, index => by
    have hread := settles_readOption (refuses_readAt s depth)
      (settles_readAt s depth).bare
    refine SettlesWith.steady ?_ nofun
    exact (settles_readNext hread _).bindOpen fun v =>
      (steady_readItems rest depth expected (index + 1)).bind fun vs => steady_ok (v, vs)

theorem settles_readField : (r : Row) → (depth index : Nat) → (slots : r.Slots) →
    Settles True (readField r depth index slots)
  | .nil, depth, index, slots => settles_ok slots
  | .required field s rest, depth, 0, (slot, slots) => by
    have hread := (settles_readAt s depth).bare
    exact (settles_fillSlot hread field slot).bindOpen fun slot => steady_ok (slot, slots)
  | .orZero field k rest, depth, 0, (slot, slots) => by
    have hread := (settles_readScalar depth (.int k)).bare
    exact (settles_fillSlot hread field slot).bindOpen fun slot => steady_ok (slot, slots)
  | .orNone field s rest, depth, 0, (slot, slots) => by
    have hread := settles_readOption (refuses_readAt s depth)
      (settles_readAt s depth).bare
    exact (settles_fillSlot hread field slot).bindOpen fun slot => steady_ok (slot, slots)
  | .required field s rest, depth, index + 1, (slot, slots)
  | .orZero field k rest, depth, index + 1, (slot, slots)
  | .orNone field s rest, depth, index + 1, (slot, slots) =>
    (settles_readField rest depth index slots).bindOpen fun slots => steady_ok (slot, slots)

theorem settles_readContent : (v : Variants) → (depth index : Nat) →
    Settles True (readContent v depth index)
  | .nil, depth, index => settles_error _
  | .bare variant rest, depth, 0 => by
    have hread := (settles_readScalar depth .unit).bare
    exact Settles.bindOpen hread fun v => steady_ok (Sum.inl ())
  | .carrying variant form s rest, depth, 0 => by
    have hread := (settles_readAt s depth).bare
    exact Settles.bindOpen hread fun v => steady_ok (Sum.inl v)
  | .bare variant rest, depth, index + 1 | .carrying variant form s rest, depth, index + 1 =>
    (settles_readContent rest depth index).bindOpen fun v => steady_ok (Sum.inr v)

end

end Json
end PacketBus
