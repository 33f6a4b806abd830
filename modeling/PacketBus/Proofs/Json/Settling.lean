import PacketBus.Json.Reader
import PacketBus.Proofs.Json.Number

/-! # Steps that settle

What a reader takes is not taken otherwise when more octets come behind it, and they are left for
what reads next. Only a number at the end of the input could go on, so the octets have to stop it.
What is made of readers is like them, and it asks nothing more of the octets if its last part is no
number or if one part needs octets where the one before may leave none.
-/
namespace PacketBus.Json
variable {α β γ : Type} {p q : Prop}

/-- Where the octets that are left stand in what a step gives. -/
structure Tail (γ : Type) where
  get : γ → Octets
  append : γ → Octets → γ

namespace Tail

def item : Tail (α × Octets) := ⟨Prod.snd, fun x more => (x.1, x.2 ++ more)⟩

def rest : Tail Octets := ⟨id, fun bs more => bs ++ more⟩

def asked : Tail (Option Octets) := ⟨fun o => o.getD [], fun o more => o.map fun bs => bs ++ more⟩

end Tail

/-- A step that succeeds does the same with more octets, which are left. If it may end in a bare
number and nothing is left, then they must not go on with it. -/
def SettlesWith (tail : Tail γ) (bare : Prop) (step : Octets → Except Fault γ) : Prop :=
  ∀ ⦃bs x⦄, step bs = .ok x → ∀ more, (bare → tail.get x = [] → Stops more) →
    step (bs ++ more) = .ok (tail.append x more)

abbrev Settles (bare : Prop) (read : Reader α) : Prop := SettlesWith .item bare read

abbrev SkipSettles (bare : Prop) (skip : Octets → Except Fault Octets) : Prop :=
  SettlesWith .rest bare skip

/-- A step that does not succeed without octets. -/
def Refuses (step : Octets → Except Fault γ) : Prop := ∀ x, step [] ≠ .ok x

section
variable {tail : Tail γ} {step : Octets → Except Fault γ}

theorem SettlesWith.mono (h : SettlesWith tail p step) (hpq : p → q) : SettlesWith tail q step :=
  fun _ _ hx more hmore => h hx more fun hp => hmore (hpq hp)

theorem SettlesWith.bare (h : SettlesWith tail p step) : SettlesWith tail True step :=
  h.mono fun _ => trivial

theorem SettlesWith.cons (h : SettlesWith tail p step) (b : UInt8) :
    SettlesWith tail p fun bs => step (b :: bs) :=
  fun _ _ hx more hmore => h hx more hmore

/-- A step that needs an octet is told of that octet. -/
theorem settles_cons (hrefuses : Refuses step)
    (h : ∀ b, SettlesWith tail p fun bs => step (b :: bs)) : SettlesWith tail p step := by
  intro bs x hx more hmore
  cases bs with
  | nil => exact absurd hx (hrefuses x)
  | cons b bs => exact h b hx more hmore

theorem settles_pure {f : Octets → γ} (h : ∀ bs more, f (bs ++ more) = tail.append (f bs) more) :
    SettlesWith tail p fun bs => .ok (f bs) := by
  intro bs x hx more _
  obtain rfl := Except.ok.inj hx
  exact congrArg Except.ok (h bs more)

theorem settles_ok (a : α) : Settles p fun bs => .ok (a, bs) := settles_pure fun _ _ => rfl

theorem settles_never (h : ∀ bs x, step bs ≠ .ok x) : SettlesWith tail p step :=
  fun bs x hx => absurd hx (h bs x)

theorem settles_error (fault : Fault) : SettlesWith tail p fun _ => .error fault :=
  settles_never fun _ _ => nofun

/-- A decision may go before that reads nothing. -/
theorem settles_of {decision : Except Fault α} {next : α → Octets → Except Fault γ}
    (h : ∀ a, SettlesWith tail p (next a)) :
    SettlesWith tail p fun bs => decision >>= fun a => next a bs := by
  cases decision with
  | error fault => exact settles_error fault
  | ok a => exact h a

/-- What comes next is told of the octets that are left. A number at the end is ended by what comes
next, unless that succeeds with no octets and leaves none. -/
theorem SettlesWith.andThen {first : Tail β} {read : Octets → Except Fault β}
    {next : β → Except Fault γ} (h : SettlesWith first p read)
    (hnext : ∀ {x y more}, next x = .ok y → (q → tail.get y = [] → Stops more) →
      next (first.append x more) = .ok (tail.append y more))
    (hend : p → ∀ {x y}, first.get x = [] → next x = .ok y → q ∧ tail.get y = []) :
    SettlesWith tail q fun bs => read bs >>= next := by
  intro bs y hy more hmore
  cases hx : read bs with
  | error fault =>
    simp only [hx] at hy
    cases hy
  | ok x =>
    simp only [hx] at hy
    have hstops : p → first.get x = [] → Stops more := by
      intro hp hnil
      obtain ⟨hq, hleft⟩ := hend hp hnil hy
      exact hmore hq hleft
    simp only [h hx more hstops]
    exact hnext hy hmore

/-- What comes next ends a number, as it needs octets. -/
theorem Settles.close {read : Reader α} {next : α × Octets → Except Fault γ} (h : Settles p read)
    (hrefuses : ∀ a, Refuses fun bs => next (a, bs))
    (hnext : ∀ a, SettlesWith tail q fun bs => next (a, bs)) :
    SettlesWith tail q fun bs => read bs >>= next := by
  refine h.andThen (fun {x _ more} hy hmore => hnext x.1 hy more hmore) ?_
  rintro - ⟨a, rest⟩ y hnil hy
  obtain rfl : rest = [] := hnil
  exact absurd hy (hrefuses a y)

theorem Settles.bind {read : Reader α} {next : α × Octets → Except Fault γ}
    (h : Settles False read) (hnext : ∀ a, SettlesWith tail q fun bs => next (a, bs)) :
    SettlesWith tail q fun bs => read bs >>= next :=
  h.andThen (fun {x _ more} hy hmore => hnext x.1 hy more hmore) False.elim

theorem SkipSettles.close {skip next} (h : SkipSettles p skip) (hrefuses : Refuses next)
    (hnext : SettlesWith tail q next) : SettlesWith tail q fun bs => skip bs >>= next := by
  refine h.andThen (fun {_ _ more} hy hmore => hnext hy more hmore) ?_
  rintro - rest y rfl hy
  exact absurd hy (hrefuses y)

theorem SkipSettles.bind {skip next} (h : SkipSettles False skip)
    (hnext : SettlesWith tail q next) : SettlesWith tail q fun bs => skip bs >>= next :=
  h.andThen (fun {_ _ more} hy hmore => hnext hy more hmore) False.elim

/-- A step that settles and leaves no octets if it is given none. -/
structure Steady (tail : Tail γ) (bare : Prop) (step : Octets → Except Fault γ) : Prop where
  settles : SettlesWith tail bare step
  nil : ∀ x, step [] = .ok x → tail.get x = []

theorem SettlesWith.steady (h : SettlesWith tail p step) (hrefuses : Refuses step) :
    Steady tail p step :=
  ⟨h, fun x hx => absurd hx (hrefuses x)⟩

theorem steady_ok (a : α) : Steady .item p fun bs => .ok (a, bs) := by
  refine ⟨settles_ok a, fun x hx => ?_⟩
  obtain rfl := Except.ok.inj hx
  rfl

theorem steady_rest : Steady .rest p fun bs => .ok bs := by
  refine ⟨settles_pure fun _ _ => rfl, fun x hx => ?_⟩
  obtain rfl := Except.ok.inj hx
  rfl

theorem steady_error (fault : Fault) : Steady tail p fun _ => .error fault :=
  ⟨settles_error fault, nofun⟩

theorem steady_of {decision : Except Fault α} {next : α → Octets → Except Fault γ}
    (h : ∀ a, Steady tail p (next a)) :
    Steady tail p fun bs => decision >>= fun a => next a bs := by
  cases decision with
  | error fault => exact steady_error fault
  | ok a => exact h a

/-- What comes next may succeed with no octets, if it leaves none then. -/
theorem Settles.bindOpen {read : Reader α} {next : α × Octets → Except Fault γ} (h : Settles p read)
    (hnext : ∀ a, Steady tail p fun bs => next (a, bs)) :
    SettlesWith tail p fun bs => read bs >>= next := by
  refine h.andThen (fun {x _ more} hy hmore => (hnext x.1).settles hy more hmore) ?_
  rintro hp ⟨a, rest⟩ y hnil hy
  obtain rfl : rest = [] := hnil
  exact ⟨hp, (hnext a).nil y hy⟩

theorem Steady.bind {read : Reader α} {next : α × Octets → Except Fault γ}
    (h : Steady .item p read) (hnext : ∀ a, Steady tail p fun bs => next (a, bs)) :
    Steady tail p fun bs => read bs >>= next := by
  refine ⟨Settles.bindOpen h.settles hnext, fun y hy => ?_⟩
  cases hx : read [] with
  | error fault =>
    rw [hx] at hy
    cases hy
  | ok x =>
    obtain ⟨a, rest⟩ := x
    obtain rfl : rest = [] := h.nil _ hx
    rw [hx] at hy
    exact (hnext a).nil y hy

theorem SkipSettles.bindOpen {skip next} (h : SkipSettles p skip) (hnext : Steady tail p next) :
    SettlesWith tail p fun bs => skip bs >>= next := by
  refine h.andThen (fun {_ _ more} hy hmore => hnext.settles hy more hmore) ?_
  rintro hp rest y rfl hy
  exact ⟨hp, hnext.nil y hy⟩

/-- A loop over items or entries: it asks for the next one, or stops in front of the closing
bracket. -/
theorem settles_ask {ask : Octets → Except Fault (Option Octets)}
    {stop next : Octets → Except Fault γ} (hask : SettlesWith .asked False ask)
    (hstop : SettlesWith tail p stop) (hnext : SettlesWith tail p next)
    (heq : ∀ bs, step bs = ask bs >>= fun o => o.elim (stop bs) next) :
    SettlesWith tail p step := by
  intro bs x hx more hmore
  rw [heq] at hx ⊢
  cases ho : ask bs with
  | error fault =>
    rw [ho] at hx
    cases hx
  | ok o =>
    rw [ho] at hx
    rw [hask ho more False.elim]
    cases o with
    | none => exact hstop hx more hmore
    | some cs => exact hnext hx more hmore

/-- Fuel by the length of the input is enough with more octets, if one more changes nothing. -/
theorem settles_fuel {step : Nat → Octets → Except Fault γ}
    (h : ∀ fuel, SettlesWith tail p (step fuel))
    (hsucc : ∀ {fuel bs x}, step fuel bs = .ok x → step (fuel + 1) bs = .ok x) :
    SettlesWith tail p fun bs => step (bs.length + 1) bs := by
  intro bs x hx more hmore
  have hle : ∀ {fuel fuel'}, fuel ≤ fuel' → step fuel (bs ++ more) = .ok (tail.append x more) →
      step fuel' (bs ++ more) = .ok (tail.append x more) := by
    intro fuel fuel' hle hstep
    induction hle with
    | refl => exact hstep
    | step _ ih => exact hsucc ih
  have hfuel : bs.length + 1 ≤ (bs ++ more).length + 1 := by simp
  exact hle hfuel (h _ hx more hmore)

end

end PacketBus.Json
