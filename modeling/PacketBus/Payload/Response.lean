import PacketBus.Payload.Schema

/-! # What handlers answer with

A response is written but never read back, so it may hold what a format cannot write: maps with
octet strings for keys, and values that refuse to be written.
-/
namespace PacketBus

inductive Response
  | schema (s : Schema)
  | octetMap (s : Schema)
  | refusing (reason : String)
  | option (r : Response)
  | seq (r : Response)

abbrev Response.Value : Response → Type
  | .schema s => s.Value
  | .octetMap s => List (Octets × s.Value)
  | .refusing _ => Unit
  | .option r => Option r.Value
  | .seq r => List r.Value

/-- Why a response is not written. -/
inductive Refusal
  | octetKey
  | reason (text : String)
  deriving DecidableEq, Repr

def Refusal.message : Refusal → String
  | octetKey => "key must be a string"
  | reason text => text

end PacketBus
