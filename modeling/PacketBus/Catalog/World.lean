import PacketBus.Bus.Registration
import PacketBus.Catalog.Kind

/-! # The state of the game

What handlers share: a counter, the gold of the player, the number of lines they have noted, and for
each service how often it was called.
-/
namespace PacketBus.Catalog

structure World where
  counter : FixedInt .i64 := 0
  gold : FixedInt .u32 := .wrap 100
  lines : FixedInt .u32 := 0
  calls : List Nat := []
  deriving DecidableEq, Repr

namespace World

/-- One more line has been noted. -/
def noted (w : World) : World := { w with lines := .wrap (w.lines.val + 1) }

/-- Adds to the counter, around the span of its kind. -/
def count (w : World) (n : Int) : World := { w with counter := .wrap (w.counter.val + n) }

def callsOf (w : World) (service : Nat) : Nat := w.calls.getD service 0

/-- One more call of a service. -/
def called (w : World) (service : Nat) : World :=
  let calls := w.calls ++ List.replicate (service + 1 - w.calls.length) 0
  { w with calls := calls.set service (w.callsOf service + 1) }

end World

/-- A handler that leaves a note. -/
def noting {α : Type} (text : String) (w : World) (value : World → α)
    (change : World → World := id) : Step World α :=
  let w := change w.noted
  ⟨value w, w, [text]⟩

def quiet {α : Type} (value : α) (w : World) : Step World α := ⟨value, w, []⟩

end PacketBus.Catalog
