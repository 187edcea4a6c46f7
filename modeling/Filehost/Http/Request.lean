import Filehost.Ip.ClientIp

namespace Filehost.Http

open Filehost.Ip

def AcceptedByte (byte : UInt8) : Prop :=
  byte = 9 ∨ 32 ≤ byte ∧ byte ≠ 127

instance (byte : UInt8) : Decidable (AcceptedByte byte) :=
  inferInstanceAs (Decidable (_ ∨ _))

structure HeaderValue where
  bytes : List UInt8
  accepted : ∀ byte ∈ bytes, AcceptedByte byte

inductive HeaderName where
  | xForwardedFor | userAgent | accept
  | other (name : List Char)
deriving DecidableEq

structure HttpRequest where
  headers : List (HeaderName × HeaderValue)
  peerAddr : Option IpAddr

def HttpRequest.fieldLines (request : HttpRequest) (name : HeaderName) : List HeaderValue :=
  (request.headers.filter fun field => field.1 == name).map Prod.snd

/-- `headers().get` answers with the first field line of the name. -/
def HttpRequest.get (request : HttpRequest) (name : HeaderName) : Option HeaderValue :=
  (request.headers.find? fun field => field.1 == name).map Prod.snd

theorem HttpRequest.get_eq_head? (request : HttpRequest) (name : HeaderName) :
    request.get name = (request.fieldLines name).head? := by
  simp only [HttpRequest.get, HttpRequest.fieldLines, List.head?_map, List.head?_filter]

def visibleAscii (byte : UInt8) : Bool :=
  byte == 9 || (32 ≤ byte && byte < 127)

def byteChar (byte : UInt8) : Char := Char.ofNat byte.toNat

/-- `to_str` refuses a value with any byte outside visible ASCII, space and tab. -/
def HeaderValue.toStr (value : HeaderValue) : Option (List Char) :=
  if value.bytes.all visibleAscii then some (value.bytes.map byteChar) else none

def extractIp (request : HttpRequest) (trust : XffTrust) : Option IpAddr :=
  clientIp ((request.get .xForwardedFor).bind HeaderValue.toStr) request.peerAddr trust

end Filehost.Http
