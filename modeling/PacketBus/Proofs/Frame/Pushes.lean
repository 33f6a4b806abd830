import PacketBus.Proofs.Frame.Refusal
import PacketBus.Proofs.Frame.RoundTrip

/-! # Pushes up to a refused header

One pass over what the first chunks give tells what their pushes answer. As long as it meets no
refused header they give its packets. The push whose chunk completes such a header fails, and with
it the packets are lost that the chunk completes before the header. All later pushes fail too.
-/
namespace PacketBus.Deframer
open PacketBus.Stream
variable {limit : UInt32} {bs : Octets} {d : Deframer} {fault : HeaderFault}

abbrev Answers := List (Except HeaderFault (List Packet))

/-- All packets that answers give. -/
def results (answers : Answers) : List Packet :=
  answers.flatMap fun
    | .ok packets => packets
    | .error _ => []

/-- The first of these answers that is a fault stands behind `j` others. -/
structure FailsFirst (answers : Answers) (j : Nat) (fault : HeaderFault) : Prop where
  ok : ∀ i < j, ∃ packets, answers[i]? = some (.ok packets)
  fault_eq : answers[j]? = some (.error fault)

theorem results_append (as bs : Answers) : results (as ++ bs) = results as ++ results bs :=
  List.flatMap_append

theorem results_map_ok (batches : List (List Packet)) :
    results (batches.map .ok) = batches.flatten := by
  rw [results, List.flatMap_map]
  exact List.flatMap_id'

theorem results_replicate_error (n : Nat) : results (List.replicate n (.error fault)) = [] := by
  rw [results, List.flatMap_eq_nil_iff]
  intro answer hanswer
  rw [List.eq_of_mem_replicate hanswer]

theorem pushAll_cons (chunk : Octets) (chunks : List Octets) (d : Deframer) :
    pushAll (chunk :: chunks) d =
      ((d.push chunk).1 :: (pushAll chunks (d.push chunk).2).1,
        (pushAll chunks (d.push chunk).2).2) := rfl

theorem pushAll_append (cs ds : List Octets) (d : Deframer) :
    pushAll (cs ++ ds) d =
      ((pushAll cs d).1 ++ (pushAll ds (pushAll cs d).2).1, (pushAll ds (pushAll cs d).2).2) := by
  induction cs generalizing d with
  | nil => rfl
  | cons c cs ih => simp only [List.cons_append, pushAll_cons, ih]

theorem length_pushAll (chunks : List Octets) (d : Deframer) :
    (pushAll chunks d).1.length = chunks.length := by
  induction chunks generalizing d with
  | nil => rfl
  | cons chunk chunks ih => simp only [pushAll_cons, List.length_cons, ih]

theorem take_pushAll (n : Nat) (chunks : List Octets) (d : Deframer) :
    (pushAll chunks d).1.take n = (pushAll (chunks.take n) d).1 := by
  induction chunks generalizing n d with
  | nil => simp [pushAll]
  | cons chunk chunks ih =>
    cases n with
    | zero => rfl
    | succ n => simp only [pushAll_cons, List.take_succ_cons, ih]

theorem pushAll_of_refused (hf : front limit bs = .refused fault) (chunks : List Octets) :
    pushAll chunks ⟨limit, none, bs⟩ =
      (List.replicate chunks.length (.error fault), ⟨limit, none, bs ++ chunks.flatten⟩) := by
  induction chunks generalizing bs with
  | nil => simp [pushAll]
  | cons chunk chunks ih =>
    simp only [pushAll_cons, push_of_refused hf, ih (front_refused_append hf chunk),
      List.length_cons, List.replicate_succ, List.flatten_cons, List.append_assoc]

/-- A push of a chunk fails after other pushes. It has taken all packets that the chunk completes
before the refused header, they are lost, and the octets from the header on are left. -/
structure Loses (limit : UInt32) (before : List Octets) (chunk : Octets) (fault : HeaderFault)
    (lost : List Packet) (rest : Octets) : Prop where
  parse_eq : parse limit (before.flatten ++ chunk) =
    ⟨(parse limit before.flatten).packets ++ lost, some fault, rest⟩
  drain_eq : ((pushAll before (new limit)).2.extend chunk).drain =
    (lost, some fault, ⟨limit, none, rest⟩)
  left_eq : (pushAll (before ++ [chunk]) (new limit)).2 = ⟨limit, none, rest⟩
  octets_eq : before.flatten ++ chunk =
    wires (parse limit before.flatten).packets ++ (wires lost ++ rest)
  refused : ∃ h tail, rest = Header.encode h ++ tail ∧ h.validate limit = .error fault

/-- Pushes that meet no refused header give all packets of one pass. -/
theorem pushAll_new_of_none {chunks : List Octets}
    (hf : (parse limit chunks.flatten).fault = none) :
    ∃ (batches : List (List Packet)) (d : Deframer),
      pushAll chunks (new limit) = (batches.map .ok, d) ∧
      batches.flatten = (parse limit chunks.flatten).packets ∧
      Holds limit (parse limit chunks.flatten).rest d :=
  (holds_new limit).pushAll front_nil hf

/-- The push of a chunk that completes a refused header, after others that do not, is the first that
fails, and all later ones fail. -/
theorem pushAll_new_of_some {before : List Octets} {chunk : Octets}
    (hnone : (parse limit before.flatten).fault = none)
    (hsome : (parse limit (before.flatten ++ chunk)).fault = some fault)
    (later : List Octets) :
    ∃ (batches : List (List Packet)) (lost : List Packet) (rest : Octets),
      (pushAll (before ++ chunk :: later) (new limit)).1 =
        batches.map .ok ++ List.replicate (later.length + 1) (.error fault) ∧
      batches.length = before.length ∧
      batches.flatten = (parse limit before.flatten).packets ∧
      Loses limit before chunk fault lost rest := by
  obtain ⟨batches, d, hbefore, hflat, hd⟩ := pushAll_new_of_none hnone
  have hlength := length_pushAll before (new limit)
  rw [hbefore, List.length_map] at hlength
  have hoctets := (parse_splits limit before.flatten).octets
  have hwhole := parse_append limit before.flatten chunk
  rw [hwhole, Parse.prepend_fault] at hsome
  -- what is left of the first chunks goes on with the chunk as the whole stream does
  have hdrain := (hd.extend chunk).drain_eq
  have hpush := hd.push_of_some hsome
  have hsplits := parse_splits limit ((parse limit before.flatten).rest ++ chunk)
  generalize parse limit ((parse limit before.flatten).rest ++ chunk) = r at *
  obtain ⟨lost, other, rest⟩ := r
  obtain rfl : other = some fault := hsome
  rw [left_of_fault rfl] at hdrain
  refine ⟨batches, lost, rest, ?_, hlength, hflat, ⟨hwhole, ?_, ?_, ?_, ?_⟩⟩
  · have hlater := pushAll_of_refused hsplits.stuck later
    simp only [pushAll_append, hbefore, pushAll_cons, hpush, hlater, List.replicate_succ]
  · rw [hbefore]
    exact hdrain
  · simp only [pushAll_append, hbefore, pushAll_cons, hpush]
    rfl
  · rw [← hsplits.octets, ← List.append_assoc, ← hoctets]
  · obtain ⟨h, hdecode, hv⟩ := front_eq_refused_iff.mp hsplits.stuck
    obtain ⟨tail, htail⟩ := Header.decode?_eq_some_iff.mp hdecode
    exact ⟨h, tail, htail, hv⟩

section
variable {chunks : List Octets} {j n : Nat}

/-- The first pushes give the packets of one pass if it meets no refused header. -/
theorem take_answers_of_none (hf : (parse limit (chunks.take n).flatten).fault = none) :
    ∃ batches : List (List Packet),
      (pushAll chunks (new limit)).1.take n = batches.map .ok ∧
      batches.flatten = (parse limit (chunks.take n).flatten).packets := by
  obtain ⟨batches, d, hpush, hflat, -⟩ := pushAll_new_of_none hf
  exact ⟨batches, by rw [take_pushAll, hpush], hflat⟩

/-- Where one pass first meets a refused header, there the pushes first fail. -/
theorem failsFirst_of_some (hj : j < chunks.length)
    (hnone : (parse limit (chunks.take j).flatten).fault = none)
    (hsome : (parse limit (chunks.take (j + 1)).flatten).fault = some fault) :
    FailsFirst (pushAll chunks (new limit)).1 j fault ∧
      results (pushAll chunks (new limit)).1 = (parse limit (chunks.take j).flatten).packets ∧
      ∃ lost rest, Loses limit (chunks.take j) chunks[j] fault lost rest := by
  rw [List.take_succ_eq_append_getElem hj, List.flatten_append, List.flatten_singleton] at hsome
  obtain ⟨batches, lost, rest, hall, hlength, hflat, hloses⟩ :=
    pushAll_new_of_some hnone hsome (chunks.drop (j + 1))
  rw [← List.drop_eq_getElem_cons hj, List.take_append_drop] at hall
  rw [List.length_take, Nat.min_eq_left (Nat.le_of_lt hj)] at hlength
  rw [hall]
  refine ⟨⟨?_, ?_⟩, ?_, lost, rest, hloses⟩
  · intro i hi
    refine ⟨batches[i], ?_⟩
    rw [List.getElem?_append_left (by rw [List.length_map]; omega), List.getElem?_map,
      List.getElem?_eq_getElem]
    rfl
  · rw [List.getElem?_append_right (by rw [List.length_map]; omega), List.length_map, hlength,
      Nat.sub_self]
    rfl
  · rw [results_append, results_map_ok, results_replicate_error, List.append_nil, hflat]

/-- One pass has met no refused header as long as no push has failed. -/
theorem fault_eq_none_of_ok
    (hok : ∀ i < n, ∃ packets, (pushAll chunks (new limit)).1[i]? = some (.ok packets)) :
    (parse limit (chunks.take n).flatten).fault = none := by
  induction n with
  | zero => rw [List.take_zero, List.flatten_nil, parse_nil]
  | succ n ih =>
    have hnone := ih fun i hi => hok i (by omega)
    obtain ⟨packets, hn⟩ := hok n (by omega)
    have hlt : n < chunks.length := by
      rw [← length_pushAll chunks (new limit)]
      exact (List.getElem?_eq_some_iff.mp hn).1
    cases hfault : (parse limit (chunks.take (n + 1)).flatten).fault with
    | none => rfl
    | some fault =>
      have hfails := (failsFirst_of_some hlt hnone hfault).1.fault_eq
      simp [hn] at hfails

/-- Where the pushes first fail, there one pass first meets a refused header. -/
theorem FailsFirst.fault_of_answers (h : FailsFirst (pushAll chunks (new limit)).1 j fault) :
    j < chunks.length ∧ (parse limit (chunks.take (j + 1)).flatten).fault = some fault ∧
      ∀ i ≤ j, (parse limit (chunks.take i).flatten).fault = none := by
  have hnone : ∀ i ≤ j, (parse limit (chunks.take i).flatten).fault = none :=
    fun i hi => fault_eq_none_of_ok fun k hk => h.ok k (by omega)
  have hlt : j < chunks.length := by
    rw [← length_pushAll chunks (new limit)]
    exact (List.getElem?_eq_some_iff.mp h.fault_eq).1
  refine ⟨hlt, ?_, hnone⟩
  cases hfault : (parse limit (chunks.take (j + 1)).flatten).fault with
  | some other =>
    have hfails := (failsFirst_of_some hlt (hnone j (Nat.le_refl j)) hfault).1.fault_eq
    simpa using hfails.symm.trans h.fault_eq
  | none =>
    obtain ⟨batches, hanswers, -⟩ := take_answers_of_none hfault
    have hj : ((pushAll chunks (new limit)).1.take (j + 1))[j]? = some (.error fault) := by
      rw [List.getElem?_take_of_lt (Nat.lt_succ_self j), h.fault_eq]
    have hmem := List.mem_of_getElem? hj
    simp [hanswers] at hmem

end

/-- The first push that fails is that of the chunk with which one pass over what was given so far
meets a refused header, and it fails for this header. Up to there the pushes give the packets of
that pass. The failing push loses those that its chunk completes, which no later push gives either,
and leaves the octets from the header on. -/
theorem pushAll_until_refused (limit : UInt32) (chunks : List Octets) :
    let answers := (pushAll chunks (new limit)).1
    let whole n := parse limit (chunks.take n).flatten
    (∀ j fault, FailsFirst answers j fault ↔
      j < chunks.length ∧ (whole (j + 1)).fault = some fault ∧ ∀ i ≤ j, (whole i).fault = none) ∧
    (∀ n, (∀ i < n, ∃ packets, answers[i]? = some (.ok packets)) →
      results (answers.take n) = (whole n).packets) ∧
    ∀ j fault, FailsFirst answers j fault →
      results answers = (whole j).packets ∧
      ∃ chunk lost rest, chunks[j]? = some chunk ∧
        Loses limit (chunks.take j) chunk fault lost rest := by
  intro answers whole
  refine ⟨?_, ?_, ?_⟩
  · intro j fault
    refine ⟨FailsFirst.fault_of_answers, ?_⟩
    rintro ⟨hj, hsome, hnone⟩
    exact (failsFirst_of_some hj (hnone j (Nat.le_refl j)) hsome).1
  · intro n hok
    obtain ⟨batches, hanswers, hflat⟩ := take_answers_of_none (fault_eq_none_of_ok hok)
    rw [hanswers, results_map_ok, hflat]
  · intro j fault h
    obtain ⟨hj, hsome, hnone⟩ := h.fault_of_answers
    obtain ⟨-, hresults, lost, rest, hloses⟩ :=
      failsFirst_of_some hj (hnone j (Nat.le_refl j)) hsome
    exact ⟨hresults, chunks[j], lost, rest, List.getElem?_eq_getElem hj, hloses⟩

/-- The second chunk completes a packet and then a header with the reserved id. -/
theorem pushAll_until_refused_second :
    let chunks : List Octets :=
      [[0, 7, 0, 0, 0, 0, 0, 8], [0, 0, 0, 1, 5, 0, 0, 0, 0, 0, 0, 9], [0, 7, 0, 0, 0, 0]]
    let answers := (pushAll chunks (new 3)).1
    FailsFirst answers 1 .reservedId ∧ results answers = [⟨7, []⟩] ∧
      Loses 3 [[0, 7, 0, 0, 0, 0, 0, 8]] [0, 0, 0, 1, 5, 0, 0, 0, 0, 0, 0, 9] .reservedId
        [⟨8, [5]⟩] [0, 0, 0, 0, 0, 0, 9] := by
  intro chunks answers
  obtain ⟨hiff, -, hfirst⟩ := pushAll_until_refused 3 chunks
  have hfails : FailsFirst answers 1 .reservedId := by
    refine (hiff 1 .reservedId).mpr ⟨by decide, by decide +kernel, ?_⟩
    decide +kernel
  obtain ⟨hresults, chunk, lost, rest, hchunk, hloses⟩ := hfirst 1 .reservedId hfails
  obtain rfl : [0, 0, 0, 1, 5, 0, 0, 0, 0, 0, 0, 9] = chunk := Option.some.inj hchunk
  have hfront : (parse 3 (chunks.take 1).flatten).packets = [⟨7, []⟩] := by decide +kernel
  have hwhole : parse 3 ((chunks.take 1).flatten ++ [0, 0, 0, 1, 5, 0, 0, 0, 0, 0, 0, 9]) =
      ⟨[⟨7, []⟩, ⟨8, [5]⟩], some .reservedId, [0, 0, 0, 0, 0, 0, 9]⟩ := by decide +kernel
  have hsame := hwhole.symm.trans hloses.parse_eq
  rw [hfront, Parse.mk.injEq] at hsame
  obtain ⟨hpackets, -, rfl⟩ := hsame
  obtain rfl : [⟨8, [5]⟩] = lost := (List.cons.inj hpackets).2
  exact ⟨hfails, hresults.trans hfront, hloses⟩

end PacketBus.Deframer
