/-
RADIUS packets and the answer to an Access-Request: the wire format, the decision and the
response authenticator. HMAC-SHA256 is a parameter; what is made of its output is the code's.
-/
import Mathlib.Algebra.GroupWithZero.Nat
import Qid.Core.Basic

namespace Qid.Network

abbrev Bytes : Type := List UInt8

abbrev Authenticator : Type := Vector UInt8 16

abbrev HmacSha256 : Type := Bytes → Bytes → Vector UInt8 32

inductive RadiusCode where
  | accessRequest
  | accessAccept
  | accessReject
  | accessChallenge
  | accountingRequest
  | accountingResponse
  | coARequest
  | coAACK
  | coANAK
  | disconnectRequest
  | disconnectACK
  | disconnectNAK
  | other (code : UInt8)
  deriving DecidableEq

def RadiusCode.asByte : RadiusCode → UInt8
  | .accessRequest => 1
  | .accessAccept => 2
  | .accessReject => 3
  | .accessChallenge => 11
  | .accountingRequest => 4
  | .accountingResponse => 5
  | .coARequest => 43
  | .coAACK => 44
  | .coANAK => 45
  | .disconnectRequest => 46
  | .disconnectACK => 47
  | .disconnectNAK => 48
  | .other code => code

structure RadiusAttribute where
  kind : UInt8
  value : Bytes
  deriving DecidableEq

structure RadiusPacket where
  code : RadiusCode
  identifier : UInt8
  authenticator : Authenticator
  attributes : List RadiusAttribute
  deriving DecidableEq

namespace Attrs

def replyMessage : UInt8 := 18

def sessionTimeout : UInt8 := 27

def eapMessage : UInt8 := 79

end Attrs

inductive RadiusAccessDecision where
  | accept (replyMessage : String) (sessionTimeoutSeconds : Option UInt32)
  | reject (replyMessage : String)

def timeoutBytes (timeout : UInt32) : Bytes :=
  [(timeout >>> 24).toUInt8, (timeout >>> 16).toUInt8, (timeout >>> 8).toUInt8, timeout.toUInt8]

/-- `EapCode::Success` as a byte. -/
def eapSuccess : UInt8 := 3

def eapReply (attr : RadiusAttribute) : UInt8 × Bytes :=
  (Attrs.eapMessage, [eapSuccess, attr.value.getD 1 0, 0, 4])

def decideRadiusResponse (userName : String) (request : RadiusPacket)
    (authorizer : String → RadiusPacket → RadiusAccessDecision) :
    RadiusCode × List (UInt8 × Bytes) :=
  if userName.isEmpty then
    (.accessReject, [(Attrs.replyMessage, "missing user-name".toUTF8.toList)])
  else
    match authorizer userName request with
    | .accept replyMessage timeout =>
      (.accessAccept,
        timeout.toList.map (fun t => (Attrs.sessionTimeout, timeoutBytes t)) ++
        [(Attrs.replyMessage, replyMessage.toUTF8.toList)] ++
        (request.attributes.filter fun attr => attr.kind = Attrs.eapMessage).map eapReply)
    | .reject replyMessage => (.accessReject, [(Attrs.replyMessage, replyMessage.toUTF8.toList)])

/-- `(n as u16).to_be_bytes()`: `UInt8.ofNat` wraps as the casts do. -/
def lengthBytes (n : Nat) : Bytes := [UInt8.ofNat (n / 256), UInt8.ofNat n]

def attributeBytes (attr : UInt8 × Bytes) : Bytes :=
  attr.1 :: UInt8.ofNat (attr.2.length + 2) :: attr.2

def encodeRadiusPacketWithCode (packet : RadiusPacket) (code : RadiusCode)
    (attributes : List (UInt8 × Bytes)) : Bytes :=
  let bodyLen := (attributes.map fun attr => attr.2.length + 2).sum
  let totalLen := 20 + bodyLen
  [code.asByte, packet.identifier] ++ lengthBytes totalLen ++ packet.authenticator.toList ++
    attributes.flatMap attributeBytes

variable (hmac : HmacSha256) (secret : Bytes)

def truncatedMac (input : Bytes) : Authenticator := (hmac secret input).take 16

def radiusResponseAuthenticator (requestAuthenticator : Authenticator) (body : Bytes) :
    Authenticator :=
  truncatedMac hmac secret (requestAuthenticator.toList ++ body)

def zeroAuthenticator : Authenticator := Vector.replicate 16 0

def encodeRadiusResponse (identifier : UInt8) (requestAuthenticator : Authenticator)
    (code : RadiusCode) (attributes : List (UInt8 × Bytes)) : Bytes :=
  let buf := encodeRadiusPacketWithCode ⟨code, identifier, zeroAuthenticator, []⟩ code attributes
  let authenticator := radiusResponseAuthenticator hmac secret requestAuthenticator (buf.drop 4)
  buf.take 4 ++ authenticator.toList ++ buf.drop 20

def accessResponse (request : RadiusPacket) (userName : String)
    (authorizer : String → RadiusPacket → RadiusAccessDecision) : Bytes :=
  let decided := decideRadiusResponse userName request authorizer
  encodeRadiusResponse hmac secret request.identifier request.authenticator decided.1 decided.2

end Qid.Network
