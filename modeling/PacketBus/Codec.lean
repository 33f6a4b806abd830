import PacketBus.Json.Reader
import PacketBus.Json.Writer
import PacketBus.MsgPack.Reader
import PacketBus.MsgPack.Writer

/-! # Codecs

A codec turns payloads into values of a schema and responses into payloads. A payload without octets
stands for nil or null, so that events without content need none.
-/
namespace PacketBus

inductive CodecFault
  | msgPackWrite (refusal : Refusal)
  | msgPackRead (fault : MsgPack.Fault)
  | jsonWrite (refusal : Refusal)
  | jsonRead (fault : Json.Fault)
  deriving DecidableEq, Repr

def CodecFault.message : CodecFault → String
  | msgPackWrite refusal => "MsgPack encode error: " ++ refusal.message
  | msgPackRead fault => "MsgPack decode error: " ++ fault.message
  | jsonWrite refusal => "JSON error: " ++ refusal.message
  | jsonRead fault => "JSON error: " ++ fault.message

structure Codec where
  decode : (s : Schema) → Octets → Except CodecFault s.Value
  encode : (r : Response) → r.Value → Except CodecFault Octets

namespace Codec

/-- The payload, or what stands for one without octets. -/
def orElse (nothing payload : Octets) : Octets := if payload.isEmpty then nothing else payload

theorem orElse_of_ne_nil {payload : Octets} (h : payload ≠ []) (nothing : Octets) :
    orElse nothing payload = payload := by
  simp [orElse, h]

def msgPack : Codec where
  decode s payload := (MsgPack.read s (orElse [0xC0] payload)).mapError .msgPackRead
  encode r v := (MsgPack.writeResponse r v).mapError .msgPackWrite

def json : Codec where
  decode s payload := (Json.read s (orElse Json.null payload)).mapError .jsonRead
  encode r v := (Json.writeResponse r v).mapError .jsonWrite

end Codec
end PacketBus
