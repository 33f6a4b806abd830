import PacketBus.Session.Transport

/-! # Scripts of transports

What a source delivers in all, whatever the size of the reads, and sinks that never fail.
-/
namespace PacketBus

namespace Source

/-- All octets that come before the end. -/
def delivered : Source → Octets
  | [] | .octets [] :: _ | .fault _ :: _ => []
  | .octets bs :: rest => bs ++ delivered rest

def ending : Source → SourceEnd
  | [] | .octets [] :: _ => .closed
  | .fault f :: _ => .failed f
  | .octets _ :: rest => ending rest

theorem flatten_chunks {size : Nat} (hsize : size ≠ 0) (source : Source) :
    (chunks size source).1.flatten = source.delivered := by
  fun_induction chunks size source with
  | case1 => rfl
  | case2 => rfl
  | case3 => rfl
  | case4 bs rest hbs more last hrest ih =>
    rw [List.flatten_append, flatten_pieces hsize, delivered]
    · rw [hrest] at ih
      rw [← ih]
      rfl
    · exact hbs

theorem chunks_ending (size : Nat) (source : Source) :
    (chunks size source).2 = source.ending := by
  fun_induction chunks size source with
  | case1 => rfl
  | case2 => rfl
  | case3 => rfl
  | case4 bs rest hbs more last hrest ih =>
    rw [hrest] at ih
    rw [ending, ← ih]
    exact hbs

/-- Each read takes something, and no more than its size. -/
theorem length_chunks (size : Nat) (source : Source) :
    ∀ chunk ∈ (chunks size source).1, chunk ≠ [] ∧ chunk.length ≤ size := by
  fun_induction chunks size source with
  | case1 => simp
  | case2 => simp
  | case3 => simp
  | case4 bs rest hbs more last hrest ih =>
    rw [hrest] at ih
    intro chunk hchunk
    rcases List.mem_append.mp hchunk with hchunk | hchunk
    · exact length_pieces (by simp) chunk hchunk
    · exact ih chunk hchunk

end Source

namespace Sink

/-- A sink that has no faults and of which each call takes something. -/
structure Reliable (sink : Sink) : Prop where
  write : ∀ call, sink.write.at? call = none
  flush : ∀ calls, sink.flush.at? calls = none
  shutdown : ∀ calls, sink.shutdown.at? calls = none
  takes : ∀ call, sink.limit call ≠ some 0

theorem reliable_limit {limit : WriteLimit} (h : ∀ call, limit call ≠ some 0) :
    ({ limit } : Sink).Reliable :=
  ⟨fun _ => rfl, fun _ => rfl, fun _ => rfl, h⟩

theorem reliable_default : ({} : Sink).Reliable := reliable_limit (by simp)

variable {sink : Sink}

/-- A call takes nothing of some octets only at a limit of zero. -/
theorem limit_of_taken_eq_nil {call : Nat} {out : Octets} (ho : out ≠ [])
    (ht : sink.taken call out = []) : sink.limit call = some 0 := by
  unfold taken at ht
  cases hl : sink.limit call with
  | none => exact absurd (by simpa [hl] using ht) ho
  | some n =>
    rw [hl] at ht
    rw [(List.take_eq_nil_iff.mp ht).resolve_right ho]

theorem taken_append_drop (sink : Sink) (call : Nat) (out : Octets) :
    sink.taken call out ++ out.drop (sink.taken call out).length = out := by
  unfold taken
  cases sink.limit call with
  | none => simp
  | some n =>
    simp only [List.length_take]
    by_cases h : n ≤ out.length
    · rw [Nat.min_eq_left h, List.take_append_drop]
    · rw [Nat.min_eq_right (by omega), List.take_of_length_le (by omega), List.drop_length,
        List.append_nil]

end Sink
end PacketBus
