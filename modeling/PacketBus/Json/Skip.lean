import PacketBus.Json.Layout

/-! # Passing over JSON values

A value that is not needed is checked for its form only. The brackets that are open stand on a
stack, so there is no limit to their depth.
-/
namespace PacketBus.Json

inductive Bracket
  | list | object
  deriving DecidableEq, Repr

namespace Bracket

def close : Bracket → UInt8
  | list => 0x5D | object => 0x7D

def missingEnd : Bracket → Fault
  | list => .expectedListEnd | object => .expectedObjectEnd

def cut : Bracket → Fault
  | list => .endInList | object => .endInObject

end Bracket

/-- Passes over a value that is no list or object, or over an opening bracket. -/
def skipFront (bs : Octets) : Except Fault (Option Bracket × Octets) :=
  match skipBlank bs with
  | [] => .error .endInValue
  | b :: rest =>
    if b = 0x6E then return (none, ← literal nullTail rest)
    else if b = 0x74 then return (none, ← literal trueTail rest)
    else if b = 0x66 then return (none, ← literal falseTail rest)
    else if startsNumber b then return (none, ← skipNumber (b :: rest))
    else if b = 0x22 then return (none, (← readOctets .skipped .plain [] rest).2)
    else if b = 0x5B then .ok (some .list, rest)
    else if b = 0x7B then .ok (some .object, rest)
    else .error .expectedValue

/-- Closes brackets up to one that goes on, and gives the brackets that are open then. Behind a
value a comma has to come first. -/
def settle : (behind : Bool) → List Bracket → Octets → Except Fault (List Bracket × Octets)
  | _, [], bs => .ok ([], bs)
  | behind, bracket :: outer, bs =>
    match skipBlank bs with
    | [] => .error bracket.cut
    | b :: rest =>
      if behind ∧ b = 0x2C then .ok (bracket :: outer, rest)
      else if b = bracket.close then settle true outer rest
      else if behind then .error bracket.missingEnd
      else .ok (bracket :: outer, b :: rest)

/-- A key with its colon. -/
def skipKey (bs : Octets) : Except Fault Octets :=
  match skipBlank bs with
  | [] => .error .endInObject
  | b :: rest =>
    if b = 0x22 then do
      let (_, bs) ← readOctets .skipped .plain [] rest
      colon bs
    else .error .keyNotString

/-- Passes over values until no bracket is open. Each round takes an octet at least. -/
def skipOpen : (fuel : Nat) → List Bracket → Octets → Except Fault Octets
  | 0, _, _ => .error .endInValue
  | fuel + 1, opened, bs =>
    match skipFront bs with
    | .error fault => .error fault
    | .ok (bracket, bs) =>
      match settle bracket.isNone (bracket.toList ++ opened) bs with
      | .error fault => .error fault
      | .ok ([], bs) => .ok bs
      | .ok (.list :: outer, bs) => skipOpen fuel (.list :: outer) bs
      | .ok (.object :: outer, bs) =>
        match skipKey bs with
        | .error fault => .error fault
        | .ok bs => skipOpen fuel (.object :: outer) bs

def skip (bs : Octets) : Except Fault Octets := skipOpen (bs.length + 1) [] bs

end PacketBus.Json
