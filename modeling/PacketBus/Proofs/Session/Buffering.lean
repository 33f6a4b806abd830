import PacketBus.Catalog.Handlers
import PacketBus.Proofs.Frame.Refusal
import PacketBus.Proofs.Session.Reads

/-! # How much is buffered

A deframer that has no packet to give lacks octets of what it waits for, a header or the payload of
one that it has accepted. So what a session holds when it reads again is less than a header or a
payload within its limit, whatever its peer sends, and a read adds no more than its size.
-/
namespace PacketBus

namespace Deframer
variable {limit : UInt32} {d e : Deframer}

/-- The octets that a deframer takes next: a header, or the payload of the pending one. -/
def wanted (d : Deframer) : Nat := d.pending.elim Header.size fun h => h.length.toNat

/-- The most that a deframer with a limit keeps when it has no packet to give: all but the last
octet of a header or of the longest payload. -/
def mostKept (limit : UInt32) : Nat := max (Header.size - 1) (limit.toNat - 1)

/-! ## Deframers -/

theorem takePayload_none {h : Header} {bs : Octets} (ht : d.takePayload h bs = (none, e)) :
    e.length < e.wanted := by
  unfold takePayload at ht
  cases hs : Octets.split? h.length.toNat bs with
  | some s => simp [hs] at ht
  | none =>
    rw [hs] at ht
    obtain ⟨-, rfl⟩ := Prod.mk.inj ht
    exact Octets.split?_eq_none_iff.mp hs

theorem length_takePayload_le (d : Deframer) (h : Header) (bs : Octets) :
    (d.takePayload h bs).2.length ≤ bs.length := by
  unfold takePayload
  cases hs : Octets.split? h.length.toNat bs with
  | none => exact Nat.le_refl _
  | some s =>
    obtain ⟨rfl, -⟩ := Octets.append_of_split? hs
    simp [length]

/-- There is no packet to give as long as octets are missing. -/
theorem length_lt_wanted_of_next (hn : d.next = (.ok none, e)) : e.length < e.wanted := by
  unfold next at hn
  cases hp : d.pending with
  | some h =>
    simp only [hp, Prod.mk.injEq, Except.ok.injEq] at hn
    exact takePayload_none (Prod.ext hn.1 hn.2)
  | none =>
    cases hd : Header.decode? d.buffered with
    | none =>
      simp only [hp, hd, Prod.mk.injEq, true_and] at hn
      subst hn
      have hlt : d.length < Header.size := Header.decode?_eq_none_iff.mp hd
      simpa only [wanted, hp, Option.elim_none] using hlt
    | some h =>
      cases hv : h.validate d.limit with
      | error fault => simp [hp, hd, hv] at hn
      | ok u =>
        simp only [hp, hd, hv, Prod.mk.injEq, Except.ok.injEq] at hn
        exact takePayload_none (Prod.ext hn.1 hn.2)

theorem length_next_le (d : Deframer) : d.next.2.length ≤ d.length := by
  unfold next
  cases hp : d.pending with
  | some h => exact d.length_takePayload_le h d.buffered
  | none =>
    cases hd : Header.decode? d.buffered with
    | none => exact Nat.le_refl _
    | some h =>
      cases hv : h.validate d.limit with
      | error fault => simp only [hv, Nat.le_refl]
      | ok u =>
        have htake := d.length_takePayload_le h (d.buffered.drop Header.size)
        have hdrop : (d.buffered.drop Header.size).length ≤ d.length := by
          rw [List.length_drop]
          exact Nat.sub_le _ _
        simp only [hv]
        exact Nat.le_trans htake hdrop

/-- Draining is asking for packets until none is given. -/
theorem drain_induction {P : Deframer → Prop} (hnext : ∀ d, P d → P d.next.2) (hd : P d) :
    P d.drain.2.2 := by
  fun_induction drain d with
  | case1 d p e hn packets fault last hlast ih =>
    have he := hnext d hd
    rw [hn] at he
    simpa only [hlast] using ih he
  | case2 d e hn => simpa only [hn] using hnext d hd
  | case3 d fault e hn => simpa only [hn] using hnext d hd

theorem length_lt_wanted_of_drain (hd : d.drain.2.1 = none) :
    d.drain.2.2.length < d.drain.2.2.wanted := by
  fun_induction drain d with
  | case1 d p e hn packets fault last hlast ih =>
    simp only [hlast] at ih hd
    exact ih hd
  | case2 d e hn => exact length_lt_wanted_of_next hn
  | case3 d fault e hn => simp at hd

/-- Some operations lead from a new deframer to this one. -/
def Reached (limit : UInt32) (d : Deframer) : Prop :=
  ∃ ops, (performAll ops (new limit)).2 = d

theorem performAll_concat (ops : List Operation) (op : Operation) (d : Deframer) :
    (performAll (ops ++ [op]) d).2 = ((performAll ops d).2.perform op).2 := by
  induction ops generalizing d with
  | nil => rfl
  | cons first ops ih => exact ih (d.perform first).2

theorem reached_new (limit : UInt32) : Reached limit (new limit) := ⟨[], rfl⟩

theorem Reached.perform (hd : Reached limit d) (op : Operation) :
    Reached limit (d.perform op).2 := by
  obtain ⟨ops, rfl⟩ := hd
  exact ⟨ops ++ [op], performAll_concat ops op _⟩

theorem Reached.drain (hd : Reached limit d) : Reached limit d.drain.2.2 :=
  drain_induction (fun _ he => he.perform .next) hd

/-- A header is pending only when it has been accepted and announces a payload. -/
theorem Reached.pending_ok (hd : Reached limit d) {h : Header} (hp : d.pending = some h) :
    h.id ≠ Header.reservedId ∧ 0 < h.length.toNat ∧ h.length ≤ limit := by
  obtain ⟨ops, rfl⟩ := hd
  obtain ⟨bs, hholds⟩ := (holds_new limit).performAll ops
  obtain ⟨hvalid, hpos⟩ := hholds.pending_ok h hp
  obtain ⟨hid, hle⟩ := Header.validate_eq_ok_iff.mp hvalid
  exact ⟨hid, hpos, hle⟩

theorem Reached.length_le (hd : Reached limit d) (hlt : d.length < d.wanted) :
    d.length ≤ mostKept limit := by
  unfold mostKept
  cases hp : d.pending with
  | none =>
    simp only [wanted, hp, Option.elim_none] at hlt
    omega
  | some h =>
    have hle := UInt32.le_iff_toNat_le.mp (hd.pending_ok hp).2.2
    simp only [wanted, hp, Option.elim_some] at hlt
    omega

end Deframer

/-! ## Sessions -/

namespace Pump
open Deframer
variable {σ : Type} {config : SessionConfig} {bus : Bus σ} {sink : Sink}

/-- A round without a fault has asked for packets until none was given. -/
theorem drain_of_round {chunk : Octets} {p q : Pump σ}
    (hround : p.round config bus sink chunk = (q, none)) :
    (p.deframer.extend chunk).drain.2.1 = none := by
  have hfault : (p.receive config bus chunk).2.2 = none := by
    unfold round at hround
    cases hsend : (p.receive config bus chunk).1.send sink (p.receive config bus chunk).2.1 with
    | mk r broken =>
      cases broken with
      | some broken => simp [hsend] at hround
      | none => simpa [hsend] using congrArg Prod.snd hround
  simp only [receive, Option.or_eq_none_iff, Option.map_eq_none_iff] at hfault
  exact hfault.2

theorem AtRead.deframer {chunks₀ chunks : List Octets} {p₀ p : Pump σ}
    (h : AtRead config bus sink chunks₀ p₀ chunks p) {limit : UInt32}
    (hnew : p₀.deframer = .new limit) :
    Reached limit p.deframer ∧ p.deframer.length < p.deframer.wanted := by
  induction h with
  | first =>
    have hlt : (new limit).length < (new limit).wanted := Nat.zero_lt_succ _
    rw [hnew]
    exact ⟨reached_new limit, hlt⟩
  | @again chunk chunks p q h hround ih =>
    have hdeframer := round_deframer config bus sink chunk p
    rw [hround] at hdeframer
    rw [hdeframer]
    exact ⟨(ih.1.perform (.extend chunk)).drain, length_lt_wanted_of_drain (drain_of_round hround)⟩

/-- The deframers that a session has in turn: at a read call, with what a read has given, and after
each request for a packet. -/
inductive Buffers (config : SessionConfig) (bus : Bus σ) (sink : Sink) (chunks₀ : List Octets)
    (p₀ : Pump σ) : Deframer → Prop
  | atRead {chunks : List Octets} {p : Pump σ}
      (h : AtRead config bus sink chunks₀ p₀ chunks p) :
      Buffers config bus sink chunks₀ p₀ p.deframer
  | received {chunk : Octets} {chunks : List Octets} {p : Pump σ}
      (h : AtRead config bus sink chunks₀ p₀ (chunk :: chunks) p) :
      Buffers config bus sink chunks₀ p₀ (p.deframer.extend chunk)
  | asked {d : Deframer} (h : Buffers config bus sink chunks₀ p₀ d) :
      Buffers config bus sink chunks₀ p₀ d.next.2

theorem Buffers.length_le {chunks₀ : List Octets} {p₀ : Pump σ} {d : Deframer}
    (h : Buffers config bus sink chunks₀ p₀ d) {limit : UInt32} {size : Nat}
    (hnew : p₀.deframer = .new limit) (hchunks : ∀ chunk ∈ chunks₀, chunk.length ≤ size) :
    d.length ≤ mostKept limit + size := by
  induction h with
  | atRead h =>
    obtain ⟨hreached, hlt⟩ := h.deframer hnew
    exact Nat.le_add_right_of_le (hreached.length_le hlt)
  | @received chunk chunks p h =>
    obtain ⟨hreached, hlt⟩ := h.deframer hnew
    have hkept := hreached.length_le hlt
    have hchunk := hchunks chunk (h.suffix.subset List.mem_cons_self)
    simp only [Deframer.length, extend, List.length_append] at hkept ⊢
    omega
  | @asked d h ih => exact Nat.le_trans d.length_next_le ih

theorem Buffers.round {chunks₀ chunks : List Octets} {p₀ p : Pump σ} {chunk : Octets}
    (h : AtRead config bus sink chunks₀ p₀ (chunk :: chunks) p) :
    Buffers config bus sink chunks₀ p₀ (p.round config bus sink chunk).1.deframer := by
  rw [round_deframer]
  exact drain_induction (fun _ hd => hd.asked) (.received h)

end Pump

open Deframer
variable {σ : Type}

/-- Whatever is done with a deframer, a pending header is one that it accepts, and when it has no
packet to give it lacks octets of what it takes next. So a session holds less than a header or the
longest payload at each read call, and at no time more than a read adds to that, whatever its peer
sends and however its own writes end. -/
theorem runSession_buffered (config : SessionConfig) (bus : Bus σ) (start : σ) (source : Source)
    (sink : Sink) :
    let chunks := (source.chunks (max 1 config.readSize)).1
    let first : Pump σ := { deframer := .new config.limit, state := start }
    let r := runSession config bus start source sink
    (∀ ops, let d := (performAll ops (new config.limit)).2
      (∀ h, d.pending = some h →
        h.id ≠ Header.reservedId ∧ 0 < h.length.toNat ∧ h.length ≤ config.limit) ∧
      ∀ e, d.next = (.ok none, e) →
        e.length < (e.pending.elim Header.size fun h => h.length.toNat) ∧
          e.length ≤ max 5 (config.limit.toNat - 1)) ∧
    (∀ before e later, r.trace.toList = before ++ e :: later → e.isRead = true →
      ∃ (cs : List Octets) (p : Pump σ), Pump.AtRead config bus sink chunks first cs p ∧
        Pump.run config bus sink source.ending cs p = r ∧ p.trace.toList = before ∧
        p.deframer.length ≤ max 5 (config.limit.toNat - 1)) ∧
    (∀ d, Pump.Buffers config bus sink chunks first d →
      d.length ≤ max 5 (config.limit.toNat - 1) + max 1 config.readSize) ∧
    ∀ chunk cs p, Pump.AtRead config bus sink chunks first (chunk :: cs) p →
      Pump.Buffers config bus sink chunks first (p.round config bus sink chunk).1.deframer := by
  intro chunks first r
  have hrun : Pump.run config bus sink source.ending chunks first = r := by
    rw [← Source.chunks_ending (max 1 config.readSize)]
    rfl
  refine ⟨?_, ?_, ?_, fun _ _ _ => Pump.Buffers.round⟩
  · intro ops d
    have hd : Reached config.limit d := ⟨ops, rfl⟩
    refine ⟨fun h hp => hd.pending_ok hp, ?_⟩
    intro e hn
    have hlt : e.length < e.wanted := length_lt_wanted_of_next hn
    have he : Reached config.limit e := by
      have hnext := hd.perform .next
      rwa [Deframer.perform, hn] at hnext
    exact ⟨hlt, he.length_le hlt⟩
  · intro before e later htrace he
    rw [← hrun] at htrace
    obtain ⟨cs, p, hp, hbefore⟩ := Pump.AtRead.first.exists_of_isRead htrace he (by simp [first])
    obtain ⟨hreached, hlt⟩ := hp.deframer rfl
    exact ⟨cs, p, hp, hp.run_eq.trans hrun, hbefore, hreached.length_le hlt⟩
  · intro d hd
    exact hd.length_le rfl fun chunk hchunk => (Source.length_chunks _ source chunk hchunk).2

/-- A payload of the longest length that lacks its last octet when the stream ends. -/
theorem runSession_buffered_cut :
    let config : SessionConfig := { limit := 9, readSize := 14 }
    let bus := ((Registry.new .msgPack).install [Catalog.SilentHandler.ping.register 7]).1.build
    let bs : Octets := [0, 7, 0, 0, 0, 9] ++ List.replicate 8 1
    let source : Source := [.octets bs]
    let d := (performAll [.extend bs, .next] (new 9)).2
    let r := runSession config bus {} source {}
    d = ⟨9, some ⟨7, 9⟩, List.replicate 8 1⟩ ∧ d.next = (.ok none, d) ∧ d.length ≤ 8 ∧
      r.trace.toList.take 3 = [.read 14, .read 0, .log (.cutStream 8)] ∧
      ∃ p : Pump Catalog.World, p.trace.toList = [.read 14] ∧ p.deframer.length ≤ 8 := by
  intro config bus bs source d r
  have hd : d = ⟨9, some ⟨7, 9⟩, List.replicate 8 1⟩ := by
    dsimp only [d, bs]
    decide +kernel
  have hn : d.next = (.ok none, d) := by
    rw [hd]
    decide
  have htrace : r.trace.toList.take 3 = [.read 14, .read 0, .log (.cutStream 8)] := by
    dsimp only [r, source, bs, bus, config]
    decide +kernel
  have hsplit : r.trace.toList =
      [.read 14] ++ .read 0 :: (.log (.cutStream 8) :: r.trace.toList.drop 3) := by
    conv => lhs; rw [← List.take_append_drop 3 r.trace.toList, htrace]
    rfl
  obtain ⟨hdeframer, hread, -, -⟩ := runSession_buffered config bus {} source {}
  obtain ⟨-, p, -, -, hbefore, hle⟩ := hread _ _ _ hsplit rfl
  exact ⟨hd, hn, ((hdeframer [.extend bs, .next]).2 d hn).2, htrace, p, hbefore, hle⟩

end PacketBus
