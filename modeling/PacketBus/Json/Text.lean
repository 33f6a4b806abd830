import PacketBus.Json.Fault
import PacketBus.Text.Utf8

/-! # JSON strings

A string is read octet by octet from its opening quote to its closing one. Escapes are resolved on
the way; two of them may make up one character beyond U+FFFF.
-/
namespace PacketBus.Json

/-- Whether raw control characters are refused, and surrogates that are not paired. -/
structure TextRules where
  refuseControls : Bool
  pairSurrogates : Bool

namespace TextRules

def text : TextRules := ⟨true, true⟩
def octets : TextRules := ⟨false, false⟩
def skipped : TextRules := ⟨true, false⟩

end TextRules

/-- Where in an escape the next octet stands. A leading surrogate waits for the trailing one. -/
inductive TextState
  | plain
  | escape
  | hex (lead : Option Nat) (digits : Octets)
  | lead (n : Nat)
  | leadEscape (n : Nat)

/-- What an octet leads to: the string is closed, or it goes on with octets added to it. -/
inductive TextStep
  | closed (added : Octets)
  | more (added : Octets) (state : TextState)

def hexDigit? (b : UInt8) : Option Nat :=
  if 0x30 ≤ b ∧ b ≤ 0x39 then some (b.toNat - 0x30)
  else if 0x41 ≤ b ∧ b ≤ 0x46 then some (b.toNat - 0x41 + 10)
  else if 0x61 ≤ b ∧ b ≤ 0x66 then some (b.toNat - 0x61 + 10)
  else none

def hexNumber? (digits : Octets) : Option Nat :=
  digits.foldlM (fun n b => (hexDigit? b).map (16 * n + ·)) 0

def isLeading (n : Nat) : Bool := 0xD800 ≤ n && n ≤ 0xDBFF
def isTrailing (n : Nat) : Bool := 0xDC00 ≤ n && n ≤ 0xDFFF

def stepPlain (rules : TextRules) (b : UInt8) : Except Fault TextStep :=
  if b = 0x22 then .ok (.closed [])
  else if b = 0x5C then .ok (.more [] .escape)
  else if rules.refuseControls ∧ b < 0x20 then .error .controlCharacter
  else .ok (.more [b] .plain)

/-- The octet that a one-letter escape stands for. -/
def simpleEscape? (b : UInt8) : Option UInt8 :=
  if b = 0x22 ∨ b = 0x5C ∨ b = 0x2F then some b
  else if b = 0x62 then some 0x08
  else if b = 0x66 then some 0x0C
  else if b = 0x6E then some 0x0A
  else if b = 0x72 then some 0x0D
  else if b = 0x74 then some 0x09
  else none

def stepEscape (b : UInt8) : Except Fault TextStep :=
  if b = 0x75 then .ok (.more [] (.hex none []))
  else match simpleEscape? b with
    | some c => .ok (.more [c] .plain)
    | none => .error .invalidEscape

def joinSurrogates (lead trail : Nat) : Nat := 0x10000 + 0x400 * (lead - 0xD800) + (trail - 0xDC00)

/-- A whole hexadecimal escape. -/
def stepCode (rules : TextRules) (lead : Option Nat) (n : Nat) : Except Fault TextStep :=
  match lead with
  | none =>
    if rules.pairSurrogates ∧ isTrailing n then .error .loneSurrogate
    else if isLeading n then .ok (.more [] (.lead n))
    else .ok (.more (Utf8.encodeCode n) .plain)
  | some lead =>
    if isTrailing n then .ok (.more (Utf8.encodeCode (joinSurrogates lead n)) .plain)
    else if rules.pairSurrogates then .error .loneSurrogate
    else if isLeading n then .ok (.more (Utf8.encodeCode lead) (.lead n))
    else .ok (.more (Utf8.encodeCode lead ++ Utf8.encodeCode n) .plain)

def TextStep.after (front : Octets) : TextStep → TextStep
  | closed added => closed (front ++ added)
  | more added state => more (front ++ added) state

def TextState.step (rules : TextRules) (b : UInt8) : TextState → Except Fault TextStep
  | plain => stepPlain rules b
  | escape => stepEscape b
  | hex waiting digits =>
    let digits := digits ++ [b]
    if digits.length < 4 then .ok (.more [] (.hex waiting digits))
    else match hexNumber? digits with
      | some n => stepCode rules waiting n
      | none => .error .invalidEscape
  | lead n =>
    if b = 0x5C then .ok (.more [] (.leadEscape n))
    else if rules.pairSurrogates then .error .cutSurrogate
    else (stepPlain rules b).map (·.after (Utf8.encodeCode n))
  | leadEscape n =>
    if b = 0x75 then .ok (.more [] (.hex (some n) []))
    else if rules.pairSurrogates then .error .cutSurrogate
    else (stepEscape b).map (·.after (Utf8.encodeCode n))

/-- Reads on to the closing quote. The octets of the string are collected in reverse. -/
def readOctets (rules : TextRules) :
    (state : TextState) → (acc : Octets) → Octets → Except Fault (Octets × Octets)
  | _, _, [] => .error .endInString
  | state, acc, b :: bs =>
    match state.step rules b with
    | .error fault => .error fault
    | .ok (.closed added) => .ok ((added.reverseAux acc).reverse, bs)
    | .ok (.more added state) => readOctets rules state (added.reverseAux acc) bs

/-- The text of a string whose opening quote has been read. -/
def readText (bs : Octets) : Except Fault (String × Octets) := do
  let (octets, bs) ← readOctets .text .plain [] bs
  match Utf8.decode octets with
  | .ok s => return (s, bs)
  | .error _ => .error .invalidCodePoint

def escapeOctet (b : UInt8) : Octets :=
  if b = 0x22 ∨ b = 0x5C then [0x5C, b]
  else if b = 0x08 then [0x5C, 0x62]
  else if b = 0x0C then [0x5C, 0x66]
  else if b = 0x0A then [0x5C, 0x6E]
  else if b = 0x0D then [0x5C, 0x72]
  else if b = 0x09 then [0x5C, 0x74]
  else if b < 0x20 then
    let digit (n : Nat) : UInt8 := UInt8.ofNat (if n < 10 then 0x30 + n else 0x61 + n - 10)
    [0x5C, 0x75, 0x30, 0x30, digit (b.toNat / 16), digit (b.toNat % 16)]
  else [b]

def writeText (s : String) : Octets := 0x22 :: (Utf8.encode s).flatMap escapeOctet ++ [0x22]

end PacketBus.Json
