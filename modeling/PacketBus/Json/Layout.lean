import PacketBus.Json.Number
import PacketBus.Json.Text

/-! # Between the values

Blanks, literals, and the punctuation of lists and objects.
-/
namespace PacketBus.Json

def isBlank (b : UInt8) : Bool := b = 0x20 || b = 0x09 || b = 0x0A || b = 0x0D

def skipBlank (bs : Octets) : Octets := bs.dropWhile isBlank

/-- The rest of a literal. -/
def literal : (expected : Octets) → Octets → Except Fault Octets
  | [], bs => .ok bs
  | _ :: _, [] => .error .endInValue
  | e :: es, b :: bs => if b = e then literal es bs else .error .expectedIdent

def nullTail : Octets := [0x75, 0x6C, 0x6C]
def trueTail : Octets := [0x72, 0x75, 0x65]
def falseTail : Octets := [0x61, 0x6C, 0x73, 0x65]

/-- Asks for the next item of a list: where it starts, or nothing at the closing bracket, which
stays. -/
def nextItem? (first : Bool) (bs : Octets) : Except Fault (Option Octets) :=
  match skipBlank bs with
  | [] => .error .endInList
  | b :: rest =>
    if b = 0x5D then .ok none
    else if first then .ok (some (b :: rest))
    else if b = 0x2C then
      match skipBlank rest with
      | [] => .error .endInValue
      | c :: rest => if c = 0x5D then .error .trailingComma else .ok (some (c :: rest))
    else .error .expectedListEnd

/-- The closing bracket. -/
def endList (bs : Octets) : Except Fault Octets :=
  match skipBlank bs with
  | [] => .error .endInList
  | b :: rest =>
    if b = 0x5D then .ok rest
    else if b = 0x2C ∧ (skipBlank rest).head? = some 0x5D then .error .trailingComma
    else .error .trailingCharacters

/-- Asks for the next key of an object: what follows its opening quote, or nothing at the closing
brace, which stays. -/
def nextKey? (first : Bool) (bs : Octets) : Except Fault (Option Octets) :=
  match skipBlank bs with
  | [] => .error .endInObject
  | b :: rest =>
    if b = 0x7D then .ok none
    else if first then if b = 0x22 then .ok (some rest) else .error .keyNotString
    else if b = 0x2C then
      match skipBlank rest with
      | [] => .error .endInValue
      | c :: rest =>
        if c = 0x22 then .ok (some rest)
        else if c = 0x7D then .error .trailingComma
        else .error .keyNotString
    else .error .expectedObjectEnd

/-- The closing brace. -/
def endObject (bs : Octets) : Except Fault Octets :=
  match skipBlank bs with
  | [] => .error .endInObject
  | b :: rest =>
    if b = 0x7D then .ok rest
    else if b = 0x2C then .error .trailingComma
    else .error .trailingCharacters

def colon (bs : Octets) : Except Fault Octets :=
  match skipBlank bs with
  | [] => .error .endInObject
  | b :: rest => if b = 0x3A then .ok rest else .error .expectedColon

/-- Lists and objects may be nested as long as the depth left stays above zero. -/
def enter (depth : Nat) : Except Fault Nat :=
  if depth ≤ 1 then .error .depthLimit else .ok (depth - 1)

end PacketBus.Json
