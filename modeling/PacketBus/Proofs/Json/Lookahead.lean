import PacketBus.Proofs.Json.Settling

/-! # How far the parts of values look

Punctuation and strings show where they end, and a number goes on as long as the octets let it. So
it is with values that are passed over.
-/
namespace PacketBus.Json
variable {α β γ : Type} {p : Prop} {bs : Octets}

/-! ## Blanks and punctuation -/

theorem skipBlank_cons {b : UInt8} (hb : isBlank b = false) (bs : Octets) :
    skipBlank (b :: bs) = b :: bs := by
  simp [skipBlank, hb]

theorem isBlank_of_skipBlank {b : UInt8} {rest : Octets} (h : skipBlank bs = b :: rest) :
    isBlank b = false := by
  have hhead := List.head?_dropWhile_not isBlank bs
  rw [show bs.dropWhile isBlank = b :: rest from h] at hhead
  simpa using hhead

@[simp] theorem skipBlank_skipBlank (bs : Octets) : skipBlank (skipBlank bs) = skipBlank bs := by
  cases h : skipBlank bs with
  | nil => rfl
  | cons b rest => exact skipBlank_cons (isBlank_of_skipBlank h) rest

theorem skipBlank_append {b : UInt8} {rest : Octets} (h : skipBlank bs = b :: rest)
    (more : Octets) : skipBlank (bs ++ more) = b :: (rest ++ more) := by
  have hne : (bs.dropWhile isBlank).isEmpty = false := by
    rw [show bs.dropWhile isBlank = b :: rest from h]
    rfl
  rw [skipBlank, List.dropWhile_append, hne, show bs.dropWhile isBlank = b :: rest from h]
  rfl

section
variable {tail : Tail γ} {step : Octets → Except Fault γ}

/-- A step that passes over blanks and needs an octet after them is told of that octet. -/
theorem settles_front (hblank : ∀ bs, step (skipBlank bs) = step bs) (hrefuses : Refuses step)
    (h : ∀ b, isBlank b = false → SettlesWith tail p fun bs => step (b :: bs)) :
    SettlesWith tail p step := by
  intro bs x hx more hmore
  cases hs : skipBlank bs with
  | nil =>
    rw [← hblank, hs] at hx
    exact absurd hx (hrefuses x)
  | cons b rest =>
    rw [← hblank, hs] at hx
    rw [← hblank, skipBlank_append hs]
    exact h b (isBlank_of_skipBlank hs) hx more hmore

end

theorem skipSettles_literal (expected : Octets) : SkipSettles p (literal expected) := by
  intro bs rest hx more hmore
  induction expected generalizing bs with
  | nil =>
    obtain rfl := Except.ok.inj hx
    rfl
  | cons e es ih =>
    cases bs with
    | nil => cases hx
    | cons b bs =>
      rw [List.cons_append]
      rw [literal] at hx ⊢
      split at hx
      · rename_i hb
        rw [if_pos hb]
        exact ih hx
      · cases hx

theorem settles_nextItem? (first : Bool) : SettlesWith .asked p (nextItem? first) := by
  refine settles_front (fun bs => by simp only [nextItem?, skipBlank_skipBlank]) nofun ?_
  intro b hb
  simp only [nextItem?, skipBlank_cons hb]
  split
  · exact settles_pure fun _ _ => rfl
  · split
    · exact settles_pure fun _ _ => rfl
    · split
      · refine settles_front (fun bs => by simp only [skipBlank_skipBlank]) nofun ?_
        intro c hc
        simp only [skipBlank_cons hc]
        split
        · exact settles_error _
        · exact settles_pure fun _ _ => rfl
      · exact settles_error _

theorem settles_nextKey? (first : Bool) : SettlesWith .asked p (nextKey? first) := by
  refine settles_front (fun bs => by simp only [nextKey?, skipBlank_skipBlank]) nofun ?_
  intro b hb
  simp only [nextKey?, skipBlank_cons hb]
  split
  · exact settles_pure fun _ _ => rfl
  · split
    · split
      · exact settles_pure fun _ _ => rfl
      · exact settles_error _
    · split
      · refine settles_front (fun bs => by simp only [skipBlank_skipBlank]) nofun ?_
        intro c hc
        simp only [skipBlank_cons hc]
        split
        · exact settles_pure fun _ _ => rfl
        · split
          · exact settles_error _
          · exact settles_error _
      · exact settles_error _

theorem skipSettles_colon : SkipSettles p colon := by
  refine settles_front (fun bs => by simp only [colon, skipBlank_skipBlank]) nofun ?_
  intro b hb
  simp only [colon, skipBlank_cons hb]
  split
  · exact settles_pure fun _ _ => rfl
  · exact settles_error _

theorem skipSettles_endList : SkipSettles p endList := by
  refine settles_front (fun bs => by simp only [endList, skipBlank_skipBlank]) nofun ?_
  intro b hb
  simp only [endList, skipBlank_cons hb]
  split
  · exact settles_pure fun _ _ => rfl
  · refine settles_never fun bs x hx => ?_
    split at hx <;> cases hx

theorem skipSettles_endObject : SkipSettles p endObject := by
  refine settles_front (fun bs => by simp only [endObject, skipBlank_skipBlank]) nofun ?_
  intro b hb
  simp only [endObject, skipBlank_cons hb]
  split
  · exact settles_pure fun _ _ => rfl
  · split
    · exact settles_error _
    · exact settles_error _

/-! ## Strings -/

theorem settles_readOctets (rules : TextRules) (state : TextState) (acc : Octets) :
    Settles p (readOctets rules state acc) := by
  intro bs x hx more _
  induction bs generalizing state acc with
  | nil => cases hx
  | cons b bs ih =>
    rw [List.cons_append]
    rw [readOctets] at hx ⊢
    cases hstep : state.step rules b with
    | error fault =>
      rw [hstep] at hx
      cases hx
    | ok next =>
      rw [hstep] at hx
      cases next with
      | closed added =>
        obtain rfl := Except.ok.inj hx
        rfl
      | more added state => exact ih state _ hx

theorem settles_readText : Settles p readText := by
  refine (settles_readOctets .text .plain []).bind fun octets => ?_
  dsimp only
  cases Utf8.decode octets with
  | ok s => exact settles_ok s
  | error fault => exact settles_error _

/-! ## Numbers -/

theorem spanDigits_of_stops (h : Stops bs) : spanDigits bs = ([], bs) := by
  cases bs with
  | nil => rfl
  | cons b bs =>
    obtain ⟨hb, -, -⟩ := h b rfl
    simp [spanDigits, hb]

theorem settles_spanDigits : Settles True fun bs => .ok (spanDigits bs) := by
  intro bs x hx more hmore
  obtain rfl := Except.ok.inj hx
  refine congrArg Except.ok ?_
  clear hx
  induction bs with
  | nil => exact spanDigits_of_stops (hmore trivial rfl)
  | cons b bs ih =>
    cases hb : isDigit b with
    | false => simp [spanDigits, Tail.item, hb]
    | true =>
      have hrest : (spanDigits (b :: bs)).2 = (spanDigits bs).2 := by simp [spanDigits, hb]
      have hspan := ih fun _ hnil => hmore trivial (hrest.trans hnil)
      simp only [spanDigits, Tail.item, Prod.mk.injEq] at hspan
      simp [spanDigits, Tail.item, hb, hspan]

theorem append_of_spanDigits {digits rest : Octets} (h : spanDigits bs = (digits, rest)) :
    digits ++ rest = bs := by
  obtain ⟨rfl, rfl⟩ := Prod.mk.inj h
  exact List.takeWhile_append_dropWhile

section
variable {tail : Tail γ} {step : Octets → Except Fault γ}

/-- A step over digits, of which some may be there already. -/
theorem settles_digits (front : Octets) {next : Octets → Octets → Except Fault γ}
    (heq : ∀ bs digits rest, spanDigits (front ++ bs) = (digits, rest) → step bs = next digits rest)
    (hnext : ∀ digits, Steady tail True (next digits)) : SettlesWith tail True step := by
  have hspan : Settles True fun bs => .ok (spanDigits (front ++ bs)) := by
    intro bs x hx more hmore
    have hfront := settles_spanDigits hx more hmore
    rwa [List.append_assoc] at hfront
  have hstep : step = fun bs => Except.ok (spanDigits (front ++ bs)) >>= fun x => next x.1 x.2 :=
    funext fun bs => heq bs _ _ rfl
  rw [hstep]
  exact hspan.bindOpen hnext

/-- Where nothing goes on with a number the digits are all of it. -/
theorem steady_ends {finish : Octets → Except Fault γ} (hfinish : Steady tail True finish)
    (hstops : ∀ bs, Stops bs → step bs = finish bs)
    (hcons : ∀ b, SettlesWith tail True fun bs => step (b :: bs)) : Steady tail True step := by
  have hnil : step [] = finish [] := hstops [] stops_nil
  refine ⟨?_, fun x hx => hfinish.nil x (hnil.symm.trans hx)⟩
  intro bs x hx more hmore
  cases bs with
  | cons b bs => exact hcons b hx more hmore
  | nil =>
    rw [hnil] at hx
    rw [List.nil_append, hstops more (hmore trivial (hfinish.nil x hx))]
    exact hfinish.settles hx more hmore

theorem steady_marked {mark finish : Octets → Except Fault γ} (hmark : SettlesWith tail True mark)
    (hfinish : Steady tail True finish) :
    Steady tail True fun rest =>
      match rest with
      | b :: bs => if isExponentMark b then mark bs else finish rest
      | [] => finish rest := by
  refine steady_ends hfinish (fun bs hstops => ?_) fun b => ?_
  · cases bs with
    | nil => rfl
    | cons b bs =>
      obtain ⟨-, -, hb⟩ := hstops b rfl
      simp [hb]
  · dsimp only
    split
    · exact hmark
    · exact hfinish.settles.cons b

theorem steady_pointed {point mark finish : Octets → Except Fault γ}
    (hpoint : SettlesWith tail True point) (hmark : SettlesWith tail True mark)
    (hfinish : Steady tail True finish) :
    Steady tail True fun rest =>
      match rest with
      | b :: bs =>
        if b = 0x2E then point bs else if isExponentMark b then mark bs else finish rest
      | [] => finish rest := by
  refine steady_ends hfinish (fun bs hstops => ?_) fun b => ?_
  · cases bs with
    | nil => rfl
    | cons b bs =>
      obtain ⟨-, hpoint, hb⟩ := hstops b rfl
      simp [hpoint, hb]
  · dsimp only
    split
    · exact hpoint
    · split
      · exact hmark
      · exact hfinish.settles.cons b

theorem spanSign_append (hne : bs ≠ []) (more : Octets) :
    spanSign (bs ++ more) = ((spanSign bs).1, (spanSign bs).2 ++ more) := by
  obtain ⟨b, bs, rfl⟩ := List.exists_cons_of_ne_nil hne
  rw [List.cons_append]
  by_cases hplus : b = 0x2B
  · rw [hplus]
    rfl
  · by_cases hminus : b = 0x2D
    · rw [hminus]
      rfl
    · have hself (bs : Octets) : spanSign (b :: bs) = (false, b :: bs) := by
        simp [spanSign, hplus, hminus]
      rw [hself, hself]
      rfl

theorem settles_sign {next : Bool → Octets → Except Fault γ}
    (heq : ∀ bs minus rest, spanSign bs = (minus, rest) → step bs = next minus rest)
    (hrefuses : Refuses (next false)) (hnext : ∀ minus, SettlesWith tail p (next minus)) :
    SettlesWith tail p step := by
  intro bs x hx more hmore
  by_cases hne : bs = []
  · subst hne
    rw [heq [] false [] rfl] at hx
    exact absurd hx (hrefuses x)
  · rw [heq bs _ _ rfl] at hx
    rw [heq _ _ _ (spanSign_append hne more)]
    exact hnext _ hx more hmore

end

theorem settles_readExponent (negative : Bool) (significand : Nat) (exponent : Int) :
    Settles True (readExponent negative significand exponent) := by
  apply settles_sign
  case heq =>
    intro bs minus rest hsign
    simp only [readExponent, hsign]
    rfl
  case hrefuses => nofun
  case hnext =>
    intro minus
    refine settles_cons nofun fun d => ?_
    dsimp only
    split
    · exact settles_error _
    · apply settles_digits [d]
      case heq =>
        intro bs digits rest hspan
        simp only [List.cons_append, List.nil_append] at hspan
        rw [hspan]
      case hnext =>
        intro digits
        dsimp only
        split
        · exact steady_of fun v => steady_ok v
        · split
          · exact steady_error _
          · exact steady_ok _

theorem settles_readFraction (negative : Bool) (significand : Nat) (exponent : Int) :
    Settles True (readFraction negative significand exponent) := by
  apply settles_digits []
  case heq =>
    intro bs digits rest hspan
    rw [List.nil_append] at hspan
    rw [readFraction, hspan]
  case hnext =>
    intro digits
    dsimp only
    by_cases hdigits : digits.isEmpty = true
    · simp only [if_pos hdigits]
      exact ⟨settles_never fun _ _ => nofun, nofun⟩
    · simp only [if_neg hdigits]
      exact steady_marked (settles_readExponent _ _ _) (steady_of fun v => steady_ok v)

theorem settles_readUnsigned (negative : Bool) : Settles True (readUnsigned negative) := by
  apply settles_digits []
  case heq =>
    intro bs digits rest hspan
    rw [List.nil_append] at hspan
    rw [readUnsigned, hspan, ← append_of_spanDigits hspan]
  case hnext =>
    intro digits
    dsimp only
    cases digits with
    | nil => exact ⟨settles_never fun _ _ => nofun, nofun⟩
    | cons first more =>
      dsimp only
      split
      · exact steady_error _
      · refine steady_pointed (settles_readFraction _ _ _) (settles_readExponent _ _ _) ?_
        split
        · exact steady_ok _
        · exact steady_of fun v => steady_ok v

theorem settles_readNumber : Settles True readNumber := by
  refine settles_cons nofun fun b => ?_
  by_cases hb : b = 0x2D
  · subst hb
    exact settles_readUnsigned true
  · have heq (bs : Octets) : readNumber (b :: bs) = readUnsigned false (b :: bs) := by
      simp [readNumber, hb]
    simp only [heq]
    exact (settles_readUnsigned false).cons b

/-! ## Values that are passed over -/

theorem skipSettles_skipExponent : SkipSettles True skipExponent := by
  apply settles_sign
  case heq =>
    intro bs minus rest hsign
    simp only [skipExponent, hsign]
    rfl
  case hrefuses => nofun
  case hnext =>
    intro minus
    apply settles_digits []
    case heq =>
      intro bs digits rest hspan
      rw [List.nil_append] at hspan
      rw [hspan]
    case hnext =>
      intro digits
      dsimp only
      split
      · exact steady_error _
      · exact steady_rest

theorem skipSettles_skipFraction : SkipSettles True skipFraction := by
  apply settles_digits []
  case heq =>
    intro bs digits rest hspan
    rw [List.nil_append] at hspan
    rw [skipFraction, hspan]
  case hnext =>
    intro digits
    dsimp only
    split
    · exact steady_error _
    · exact steady_marked skipSettles_skipExponent steady_rest

theorem skipSettles_skipNumber : SkipSettles True skipNumber := by
  refine settles_cons nofun fun b => ?_
  -- a minus is passed over, all else counts among the digits
  apply settles_digits (if b = 0x2D then [] else [b])
  case heq =>
    intro bs digits rest hspan
    by_cases hb : b = 0x2D
    · rw [if_pos hb, List.nil_append] at hspan
      rw [hb, skipNumber, hspan]
    · rw [if_neg hb, List.singleton_append] at hspan
      rw [skipNumber, hspan]
      exact fun rest h => hb (List.cons.inj h).1
  case hnext =>
    intro digits
    cases digits with
    | nil => exact steady_error _
    | cons first more =>
      dsimp only
      split
      · exact steady_error _
      · exact steady_pointed skipSettles_skipFraction skipSettles_skipExponent steady_rest

theorem settles_skipFront : Settles True skipFront := by
  refine settles_front (fun bs => by simp only [skipFront, skipBlank_skipBlank]) nofun ?_
  intro b hb
  simp only [skipFront, skipBlank_cons hb]
  split
  · exact (skipSettles_literal nullTail).bindOpen (steady_ok none)
  split
  · exact (skipSettles_literal trueTail).bindOpen (steady_ok none)
  split
  · exact (skipSettles_literal falseTail).bindOpen (steady_ok none)
  split
  · exact SkipSettles.bindOpen (skipSettles_skipNumber.cons b) (steady_ok none)
  split
  · exact (settles_readOctets .skipped .plain []).bindOpen fun _ => steady_ok none
  split
  · exact settles_ok _
  split
  · exact settles_ok _
  · exact settles_error _

theorem steady_settle (behind : Bool) (opened : List Bracket) :
    Steady .item p (settle behind opened) := by
  induction opened generalizing behind with
  | nil => exact steady_ok []
  | cons bracket outer ih =>
    refine SettlesWith.steady (settles_front (fun bs => ?_) nofun fun b hb => ?_) nofun
    · simp only [settle, skipBlank_skipBlank]
    · simp only [settle, skipBlank_cons hb]
      split
      · exact settles_ok _
      split
      · exact (ih true).settles
      split
      · exact settles_error _
      · exact settles_pure fun _ _ => rfl

theorem skipSettles_skipKey : SkipSettles p skipKey := by
  refine settles_front (fun bs => by simp only [skipKey, skipBlank_skipBlank]) nofun fun b hb => ?_
  simp only [skipKey, skipBlank_cons hb]
  split
  · exact (settles_readOctets .skipped .plain []).bind fun _ => skipSettles_colon
  · exact settles_error _

theorem refuses_skipOpen (fuel : Nat) (opened : List Bracket) :
    Refuses (skipOpen fuel opened) := by
  cases fuel with
  | zero => nofun
  | succ fuel => nofun

/-- A bracket that is open is closed by an octet, so only a number that stands alone can be at the
end. -/
theorem skipSettles_skipOpen (fuel : Nat) (opened : List Bracket) :
    SkipSettles True (skipOpen fuel opened) := by
  induction fuel generalizing opened with
  | zero => exact settles_error _
  | succ fuel ih =>
    have heq : skipOpen (fuel + 1) opened = fun bs => skipFront bs >>= fun x =>
        settle x.1.isNone (x.1.toList ++ opened) x.2 >>= fun y =>
          match y.1 with
          | [] => .ok y.2
          | .list :: outer => skipOpen fuel (.list :: outer) y.2
          | .object :: outer => skipKey y.2 >>= skipOpen fuel (.object :: outer) := by
      funext bs
      rw [skipOpen]
      cases skipFront bs with
      | error fault => rfl
      | ok x =>
        dsimp only [bind, Except.bind]
        cases settle x.1.isNone (x.1.toList ++ opened) x.2 with
        | error fault => rfl
        | ok y =>
          obtain ⟨opened, bs⟩ := y
          cases opened with
          | nil => rfl
          | cons bracket outer =>
            cases bracket with
            | list => rfl
            | object => dsimp only; cases skipKey bs <;> rfl
    rw [heq]
    refine settles_skipFront.bindOpen fun bracket => ?_
    dsimp only
    refine (steady_settle _ _).bind fun opened => ?_
    cases opened with
    | nil => exact steady_rest
    | cons bracket outer =>
      cases bracket with
      | list => exact (ih _).steady (refuses_skipOpen _ _)
      | object => exact (skipSettles_skipKey.bind (ih _)).steady nofun

/-- More fuel changes nothing. -/
theorem skipOpen_succ {fuel : Nat} {opened : List Bracket} {rest : Octets}
    (hx : skipOpen fuel opened bs = .ok rest) :
    skipOpen (fuel + 1) opened bs = .ok rest := by
  induction fuel generalizing opened bs with
  | zero => cases hx
  | succ fuel ih =>
    rw [skipOpen] at hx ⊢
    revert hx
    cases skipFront bs with
    | error fault => exact id
    | ok x =>
      dsimp only
      cases settle x.1.isNone (x.1.toList ++ opened) x.2 with
      | error fault => exact id
      | ok y =>
        obtain ⟨opened, bs⟩ := y
        cases opened with
        | nil => exact id
        | cons bracket outer =>
          cases bracket with
          | list => exact ih
          | object =>
            dsimp only
            cases skipKey bs with
            | error fault => exact id
            | ok bs => exact ih

theorem skipSettles_skip : SkipSettles True skip := by
  change SkipSettles True fun bs => skipOpen (bs.length + 1) [] bs
  exact settles_fuel (fun fuel => skipSettles_skipOpen fuel []) skipOpen_succ

end PacketBus.Json
