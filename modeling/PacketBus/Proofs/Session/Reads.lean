import PacketBus.Proofs.Session.Writes

/-! # The read calls of a session

A session makes one read call at the start of each round and none within one. So a read call in a
trace was made by a pump whose own trace is all that stands before the call.
-/
namespace PacketBus.Pump
variable {σ : Type} {config : SessionConfig} {bus : Bus σ} {sink : Sink} {last : SourceEnd}

/-- The pumps that make the read calls of a session, each with the chunks that are still to come. -/
inductive AtRead (config : SessionConfig) (bus : Bus σ) (sink : Sink) (chunks₀ : List Octets)
    (p₀ : Pump σ) : List Octets → Pump σ → Prop
  | first : AtRead config bus sink chunks₀ p₀ chunks₀ p₀
  | again {chunk : Octets} {chunks : List Octets} {p q : Pump σ}
      (h : AtRead config bus sink chunks₀ p₀ (chunk :: chunks) p)
      (hround : p.round config bus sink chunk = (q, none)) :
      AtRead config bus sink chunks₀ p₀ chunks q

/-- The run of a session is the run from any of its read calls. -/
theorem AtRead.run_eq {chunks₀ chunks : List Octets} {p₀ p : Pump σ}
    (h : AtRead config bus sink chunks₀ p₀ chunks p) :
    run config bus sink last chunks p = run config bus sink last chunks₀ p₀ := by
  induction h with
  | first => rfl
  | again h hround ih =>
    rw [← ih, run, hround]

theorem AtRead.suffix {chunks₀ chunks : List Octets} {p₀ p : Pump σ}
    (h : AtRead config bus sink chunks₀ p₀ chunks p) : chunks <:+ chunks₀ := by
  induction h with
  | first => exact List.suffix_refl chunks₀
  | again h hround ih => exact (List.suffix_cons _ _).trans ih

/-- What each round keeps to with the octets received so far is so at each read call. -/
theorem AtRead.keeps {chunks₀ chunks : List Octets} {p₀ p : Pump σ} {bs : Octets}
    (h : AtRead config bus sink chunks₀ p₀ chunks p) (keeps : Octets → Pump σ → Prop)
    (hp : keeps bs p₀)
    (hstep : ∀ {received chunk : Octets} {p q : Pump σ}, chunk ∈ chunks₀ → keeps received p →
      p.round config bus sink chunk = (q, none) → keeps (received ++ chunk) q) :
    ∃ received, received ++ chunks.flatten = bs ++ chunks₀.flatten ∧ keeps received p := by
  induction h with
  | first => exact ⟨bs, rfl, hp⟩
  | @again chunk chunks p q h hround ih =>
    obtain ⟨received, hall, hkeeps⟩ := ih
    have hchunk := h.suffix.subset List.mem_cons_self
    refine ⟨received ++ chunk, ?_, hstep hchunk hkeeps hround⟩
    rw [← hall, List.flatten_cons, List.append_assoc]

/-- What a round does after serving is to send. -/
theorem round_adds (config : SessionConfig) (bus : Bus σ) (sink : Sink) (chunk : Octets)
    (p : Pump σ) :
    ∃ es, Adds es (p.receive config bus chunk).1 (p.round config bus sink chunk).1 ∧
      ∀ e ∈ es, e.isSending = true := by
  unfold round
  obtain ⟨q, es, hadds, ⟨hq, hsends⟩ | ⟨fault, hq, -, hbreaks⟩⟩ :=
    send_cases sink (p.receive config bus chunk).2.1 (p.receive config bus chunk).1
  · simp only [hq]
    exact ⟨es, hadds, hsends.isSending⟩
  · simp only [hq]
    exact ⟨es, hadds, hbreaks.isSending⟩

theorem round_deframer (config : SessionConfig) (bus : Bus σ) (sink : Sink) (chunk : Octets)
    (p : Pump σ) :
    (p.round config bus sink chunk).1.deframer = (p.deframer.extend chunk).drain.2.2 := by
  obtain ⟨es, hadds, -⟩ := round_adds config bus sink chunk p
  exact hadds.deframer_eq

/-- A round makes one read call, at its start. -/
theorem trace_round (config : SessionConfig) (bus : Bus σ) (sink : Sink) (chunk : Octets)
    (p : Pump σ) :
    ∃ es, (p.round config bus sink chunk).1.trace.toList =
        p.trace.toList ++ .read chunk.length :: es ∧ ∀ e ∈ es, e.isRead = false := by
  obtain ⟨served, hserved⟩ : ∃ served : List Served,
      (p.receive config bus chunk).1.trace.toList =
        p.trace.toList ++ .read chunk.length :: served.flatMap Served.events :=
    ⟨_, emit_trace _ _⟩
  obtain ⟨es, hadds, hes⟩ := round_adds config bus sink chunk p
  refine ⟨served.flatMap Served.events ++ es, ?_, ?_⟩
  · rw [hadds.trace_eq, hserved, List.append_assoc, List.cons_append]
  · refine List.forall_mem_append.mpr ⟨Event.isRead_of_local Served.isLocal_events, ?_⟩
    intro e he
    exact Event.not_isRead_of_isSending (hes e he)

theorem trace_run_nil (config : SessionConfig) (bus : Bus σ) (sink : Sink) (last : SourceEnd)
    (p : Pump σ) :
    ∃ r es, (run config bus sink last [] p).trace.toList = p.trace.toList ++ r :: es ∧
      ∀ e ∈ es, e.isRead = false := by
  cases last with
  | failed fault => exact ⟨.readFailed, [], by simp [run, stop], by simp⟩
  | closed =>
    have hcut := Event.isRead_of_local (isLocal_cutWarning (p := p))
    rw [run]
    cases hshut : sink.shutdown.at? p.calls with
    | none =>
      rw [close_of_none hshut]
      refine ⟨.read 0, _, emit_trace _ _, List.forall_mem_append.mpr ⟨hcut, ?_⟩⟩
      simp [Event.isRead]
    | some fault =>
      rw [close_of_some hshut]
      refine ⟨.read 0, _, emit_trace _ _, List.forall_mem_append.mpr ⟨hcut, ?_⟩⟩
      simp [Event.isRead]

theorem trace_prefix_run (config : SessionConfig) (bus : Bus σ) (sink : Sink) (last : SourceEnd)
    (chunks : List Octets) (p : Pump σ) :
    p.trace.toList <+: (run config bus sink last chunks p).trace.toList := by
  induction chunks generalizing p with
  | nil =>
    obtain ⟨r, es, htrace, -⟩ := trace_run_nil config bus sink last p
    exact htrace ▸ List.prefix_append _ _
  | cons chunk chunks ih =>
    obtain ⟨es, htrace, -⟩ := trace_round config bus sink chunk p
    have hp : p.trace.toList <+: (p.round config bus sink chunk).1.trace.toList :=
      htrace ▸ List.prefix_append _ _
    rw [run]
    split
    · rename_i q fault hq
      rwa [hq] at hp
    · rename_i q hq
      rw [hq] at hp
      exact hp.trans (ih q)

/-- A read call that is not among the events after another one stands at that one or beyond. -/
theorem eq_of_isRead {pre es more before later : List Event} {r e : Event}
    (h : pre ++ r :: (es ++ more) = before ++ e :: later) (he : e.isRead = true)
    (hes : ∀ e ∈ es, e.isRead = false) (hle : pre.length ≤ before.length)
    (hlt : before.length ≤ pre.length + es.length) : before = pre := by
  rcases List.append_eq_append_iff.mp h with ⟨middle, rfl, hm⟩ | ⟨middle, rfl, hm⟩
  · cases middle with
    | nil => rw [List.append_nil]
    | cons s middle =>
      obtain ⟨-, hm⟩ := List.cons.inj hm
      rw [List.length_append, List.length_cons] at hlt
      rcases List.append_eq_append_iff.mp hm with ⟨tail, rfl, ht⟩ | ⟨tail, rfl, ht⟩
      · rw [List.length_append] at hlt
        omega
      · cases tail with
        | nil =>
          rw [List.append_nil] at hlt
          omega
        | cons t tail =>
          obtain ⟨rfl, -⟩ := List.cons.inj ht
          simp [hes e (by simp)] at he
  · cases middle with
    | nil => rw [List.append_nil]
    | cons s middle =>
      rw [List.length_append, List.length_cons] at hle
      omega

/-- Each read call of a trace is made by one of those pumps. -/
theorem AtRead.exists_of_isRead {chunks₀ chunks : List Octets} {p₀ p : Pump σ}
    (h : AtRead config bus sink chunks₀ p₀ chunks p) {before later : List Event} {e : Event}
    (htrace : (run config bus sink last chunks p).trace.toList = before ++ e :: later)
    (he : e.isRead = true) (hle : p.trace.toList.length ≤ before.length) :
    ∃ cs q, AtRead config bus sink chunks₀ p₀ cs q ∧ q.trace.toList = before := by
  induction chunks generalizing p with
  | nil =>
    obtain ⟨r, es, hrun, hes⟩ := trace_run_nil config bus sink last p
    have hsplit : p.trace.toList ++ r :: (es ++ []) = before ++ e :: later := by
      rw [List.append_nil, ← hrun, htrace]
    have hlen := congrArg List.length hsplit
    simp only [List.length_append, List.length_cons, List.append_nil] at hlen
    exact ⟨[], p, h, (eq_of_isRead hsplit he hes hle (by omega)).symm⟩
  | cons chunk chunks ih =>
    obtain ⟨es, hround, hes⟩ := trace_round config bus sink chunk p
    rw [run] at htrace
    cases hq : p.round config bus sink chunk with
    | mk q fault =>
      rw [hq] at hround
      cases fault with
      | some fault =>
        rw [hq] at htrace
        have hsplit : p.trace.toList ++ .read chunk.length :: (es ++ []) =
            before ++ e :: later := by
          rw [List.append_nil, ← hround]
          exact htrace
        have hlen := congrArg List.length hsplit
        simp only [List.length_append, List.length_cons, List.append_nil] at hlen
        exact ⟨_, p, h, (eq_of_isRead hsplit he hes hle (by omega)).symm⟩
      | none =>
        rw [hq] at htrace
        -- the call is made in a later round, or it is the one that this round starts with
        by_cases hlater : q.trace.toList.length ≤ before.length
        · exact ih (h.again hq) htrace hlater
        · obtain ⟨more, hmore⟩ := trace_prefix_run config bus sink last chunks q
          dsimp only at hround
          have hsplit : p.trace.toList ++ .read chunk.length :: (es ++ more) =
              before ++ e :: later := by
            rw [← htrace, ← hmore, hround, List.append_assoc, List.cons_append]
          rw [hround, List.length_append, List.length_cons] at hlater
          exact ⟨_, p, h, (eq_of_isRead hsplit he hes hle (by omega)).symm⟩

end PacketBus.Pump
