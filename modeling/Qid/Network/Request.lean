/-
The authenticator of a RADIUS request.

The server compares the MAC of the whole packet with the authenticator in that packet, so what it
accepts is a packet that holds its own MAC. A client fills the field in with the MAC of the packet
in which it is zero.
-/
import Qid.Lib.Checked
import Qid.Network.Binding

namespace Qid.Network

open Lib

def RadiusCode.fromByte : UInt8 → RadiusCode
  | 1 => .accessRequest
  | 2 => .accessAccept
  | 3 => .accessReject
  | 4 => .accountingRequest
  | 5 => .accountingResponse
  | 11 => .accessChallenge
  | 43 => .coARequest
  | 44 => .coAACK
  | 45 => .coANAK
  | 46 => .disconnectRequest
  | 47 => .disconnectACK
  | 48 => .disconnectNAK
  | byte => .other byte

/-- From the bytes between the cursor and the declared length. -/
def parseAttributes : Bytes → QidResult (List RadiusAttribute)
  | [] => return []
  | [_] => throw (.badRequest "RADIUS attribute header extends past packet length")
  | kind :: attrLen :: rest =>
    if attrLen.toNat < 2 ∨ rest.length + 2 < attrLen.toNat then
      throw (.badRequest "RADIUS attribute length exceeds packet length")
    else do
      let attributes ← parseAttributes (rest.drop (attrLen.toNat - 2))
      return ⟨kind, rest.take (attrLen.toNat - 2)⟩ :: attributes
termination_by bytes => bytes.length

/-- Zeros stand for bytes that are not there. -/
def authenticatorOf (bytes : Bytes) : Authenticator :=
  Vector.ofFn fun i => (authenticatorBytes bytes).getD i.val 0

def parseRadiusPacket (bytes : Bytes) : QidResult RadiusPacket :=
  if bytes.length < 20 then throw (.badRequest "RADIUS packet is shorter than 20 bytes")
  else if bytes.length < declaredLength bytes then
    throw (.badRequest ("RADIUS packet is shorter than declared length " ++
      toString (declaredLength bytes)))
  else do
    let attributes ← parseAttributes ((bytes.take (declaredLength bytes)).drop 20)
    return ⟨.fromByte (bytes.getD 0 0), bytes.getD 1 0, authenticatorOf bytes, attributes⟩

def encodeRadiusPacket (packet : RadiusPacket) : Bytes :=
  encodeRadiusPacketWithCode packet packet.code
    (packet.attributes.map fun attr => (attr.kind, attr.value))

section

variable (hmac : HmacSha256) (secret : Bytes)

def verifyRadiusRequestAuthenticator (packet : RadiusPacket) (body : Bytes) : Bool :=
  truncatedMac hmac secret body = packet.authenticator

/-- What `handle_radius_access_request_bytes_with_authorizer` and the accounting handler do first.
-/
def receiveRequest (requestBytes : Bytes) : QidResult RadiusPacket := do
  let request ← parseRadiusPacket requestBytes
  if !verifyRadiusRequestAuthenticator hmac secret request requestBytes then
    throw (.unauthorized "RADIUS request authenticator mismatch")
  else
    return request

variable (request : RadiusPacket)

def RadiusPacket.unauthenticated : RadiusPacket :=
  { request with authenticator := zeroAuthenticator }

def clientAuthenticator : Authenticator :=
  truncatedMac hmac secret (encodeRadiusPacket request.unauthenticated)

/-- The packet of a client: the MAC is taken while the authenticator field is zero. -/
def clientPacket : Bytes :=
  encodeRadiusPacket { request with authenticator := clientAuthenticator hmac secret request }

end

/-- The attributes fit in a packet: each in its length byte, all in the Length field. -/
structure Fits (attributes : List RadiusAttribute) : Prop where
  each : ∀ attr ∈ attributes, attr.value.length + 2 < 256
  total : 20 + (attributes.map fun attr => attr.value.length + 2).sum < 65536

def attributesBytes (attributes : List RadiusAttribute) : Bytes :=
  (attributes.map fun attr => (attr.kind, attr.value)).flatMap attributeBytes

variable {attributes : List RadiusAttribute}

theorem parseAttributes_attributesBytes (h : ∀ attr ∈ attributes, attr.value.length + 2 < 256) :
    parseAttributes (attributesBytes attributes) = .ok attributes := by
  induction attributes with
  | nil =>
    show parseAttributes [] = _
    rw [parseAttributes]
    rfl
  | cons attr rest ih =>
    have hlength : (UInt8.ofNat (attr.value.length + 2)).toNat = attr.value.length + 2 := by
      have := h attr List.mem_cons_self
      rw [UInt8.toNat_ofNat']
      omega
    show parseAttributes (attr.kind :: UInt8.ofNat (attr.value.length + 2) ::
      (attr.value ++ attributesBytes rest)) = _
    rw [parseAttributes, hlength, if_neg (by rw [List.length_append]; omega), Nat.add_sub_cancel,
      List.drop_left, List.take_left, ih fun a ha => h a (List.mem_cons_of_mem attr ha)]
    rfl

variable {packet : RadiusPacket}

theorem encodeRadiusPacket_layout {high low : UInt8}
    (h : [high, low] = lengthBytes (20 + (attributesBytes packet.attributes).length)) :
    encodeRadiusPacket packet = layout packet.code.asByte packet.identifier high low
      packet.authenticator (attributesBytes packet.attributes) := by
  rw [attributesBytes, length_flatMap_attributeBytes] at h
  rw [encodeRadiusPacket, encodeRadiusPacketWithCode, ← h]
  rfl

theorem encodeRadiusPacket_eq (h : Fits packet.attributes) :
    ∃ high low, high.toNat * 256 + low.toNat = 20 + (attributesBytes packet.attributes).length ∧
      encodeRadiusPacket packet = layout packet.code.asByte packet.identifier high low
        packet.authenticator (attributesBytes packet.attributes) := by
  refine ⟨UInt8.ofNat ((20 + (attributesBytes packet.attributes).length) / 256),
    UInt8.ofNat (20 + (attributesBytes packet.attributes).length), ?_,
    encodeRadiusPacket_layout rfl⟩
  have htotal : 20 + (attributesBytes packet.attributes).length < 65536 := by
    rw [attributesBytes, length_flatMap_attributeBytes, List.map_map]
    exact h.total
  rw [UInt8.toNat_ofNat', UInt8.toNat_ofNat']
  omega

theorem authenticatorOf_layout (code identifier high low : UInt8) (authenticator : Authenticator)
    (attributes : Bytes) :
    authenticatorOf (layout code identifier high low authenticator attributes) =
      authenticator := by
  ext i hi
  rw [authenticatorOf, Vector.getElem_ofFn]
  simp [hi]

theorem parseRadiusPacket_layout
    (heach : ∀ attr ∈ attributes, attr.value.length + 2 < 256) {high low : UInt8}
    (hlength : high.toNat * 256 + low.toNat = 20 + (attributesBytes attributes).length)
    (code identifier : UInt8) (authenticator : Authenticator) :
    parseRadiusPacket
        (layout code identifier high low authenticator (attributesBytes attributes)) =
      .ok ⟨.fromByte code, identifier, authenticator, attributes⟩ := by
  have hsize := length_layout code identifier high low authenticator (attributesBytes attributes)
  have hdeclared : declaredLength
      (layout code identifier high low authenticator (attributesBytes attributes)) = _ :=
    hlength.trans hsize.symm
  rw [parseRadiusPacket, hdeclared, if_neg (by omega), if_neg (by omega),
    List.take_of_length_le (Nat.le_refl _), drop_layout, parseAttributes_attributesBytes heach,
    authenticatorOf_layout]
  rfl

theorem parseRadiusPacket_encode (h : Fits packet.attributes) :
    parseRadiusPacket (encodeRadiusPacket packet) =
      .ok { packet with code := .fromByte packet.code.asByte } := by
  obtain ⟨high, low, hlength, hlayout⟩ := encodeRadiusPacket_eq h
  rw [hlayout]
  exact parseRadiusPacket_layout h.each hlength _ _ _

theorem authenticatorOf_encode (h : Fits packet.attributes) :
    authenticatorOf (encodeRadiusPacket packet) = packet.authenticator := by
  obtain ⟨high, low, -, hlayout⟩ := encodeRadiusPacket_eq h
  rw [hlayout, authenticatorOf_layout]

section

variable {hmac : HmacSha256} {secret packet : Bytes} {request : RadiusPacket}

/-- The server accepts a packet only with its own MAC in the authenticator field. -/
theorem of_receiveRequest (h : receiveRequest hmac secret packet = .ok request) :
    truncatedMac hmac secret packet = authenticatorOf packet := by
  obtain ⟨parsed, hparsed, h⟩ := bind_eq_ok.mp h
  rw [guard_eq_ok] at h
  have hverified : truncatedMac hmac secret packet = parsed.authenticator := by
    simpa [verifyRadiusRequestAuthenticator] using h.1
  rw [parseRadiusPacket, guard_eq_ok, guard_eq_ok] at hparsed
  obtain ⟨-, -, hparsed⟩ := hparsed
  obtain ⟨attributes, -, hparsed⟩ := bind_eq_ok.mp hparsed
  cases hparsed
  exact hverified

theorem receiveRequest_encode (h : Fits request.attributes) :
    receiveRequest hmac secret (encodeRadiusPacket request) =
      if truncatedMac hmac secret (encodeRadiusPacket request) = request.authenticator then
        .ok { request with code := .fromByte request.code.asByte }
      else .error (.unauthorized "RADIUS request authenticator mismatch") := by
  rw [receiveRequest, parseRadiusPacket_encode h]
  show (if _ then _ else _) = _
  by_cases hmac' : truncatedMac hmac secret (encodeRadiusPacket request) = request.authenticator
  · rw [if_pos hmac', if_neg (by simp [verifyRadiusRequestAuthenticator, hmac'])]
    rfl
  · rw [if_neg hmac', if_pos (by simp [verifyRadiusRequestAuthenticator, hmac'])]
    rfl

theorem clientPacket_of_zero (h : clientAuthenticator hmac secret request = zeroAuthenticator) :
    clientPacket hmac secret request = encodeRadiusPacket request.unauthenticated := by
  rw [clientPacket, h]
  rfl

variable {inputs : Set Bytes} (h : Fits request.attributes)
  (hinj : Set.InjOn (truncatedMac hmac secret) inputs)
  (hunauth : encodeRadiusPacket request.unauthenticated ∈ inputs)
include h hinj hunauth

/-- The server's MAC of an accepted packet is the client's, so the packet is the one with a zero
field. -/
theorem of_accepted {received : RadiusPacket} (hpacket : packet ∈ inputs)
    (hsame : authenticatorOf packet = authenticatorOf (clientPacket hmac secret request))
    (hok : receiveRequest hmac secret packet = .ok received) :
    packet = encodeRadiusPacket request.unauthenticated ∧
      clientAuthenticator hmac secret request = zeroAuthenticator := by
  have hfilled : authenticatorOf (clientPacket hmac secret request) =
      clientAuthenticator hmac secret request := authenticatorOf_encode h
  have heq : packet = encodeRadiusPacket request.unauthenticated :=
    hinj hpacket hunauth ((of_receiveRequest hok).trans (hsame.trans hfilled))
  have hfits : Fits request.unauthenticated.attributes := h
  refine ⟨heq, ?_⟩
  rw [← hfilled, ← hsame, heq]
  exact authenticatorOf_encode hfits

/-- Where truncated HMAC does not collide, a client's packet is accepted exactly if its MAC is
zero, and no packet with its authenticator and other bytes is. -/
theorem request_authenticator_binds (hclient : clientPacket hmac secret request ∈ inputs) :
    ((∃ received, receiveRequest hmac secret (clientPacket hmac secret request) = .ok received) ↔
      clientAuthenticator hmac secret request = zeroAuthenticator) ∧
    ∀ packet ∈ inputs, authenticatorOf packet = authenticatorOf (clientPacket hmac secret request) →
      packet ≠ clientPacket hmac secret request →
      ∀ received, receiveRequest hmac secret packet ≠ .ok received := by
  refine ⟨⟨fun ⟨received, hok⟩ => (of_accepted h hinj hunauth hclient rfl hok).2, fun hzero => ?_⟩,
    fun packet hpacket hsame hne received hok => hne ?_⟩
  · have hfits : Fits request.unauthenticated.attributes := h
    rw [clientPacket_of_zero hzero, receiveRequest_encode hfits]
    exact ⟨_, if_pos hzero⟩
  · obtain ⟨heq, hzero⟩ := of_accepted h hinj hunauth hpacket hsame hok
    rw [heq, clientPacket_of_zero hzero]

end

def zeroMac : HmacSha256 := fun _ _ => Vector.replicate 32 0

theorem fits_sampleRequest : Fits sampleRequest.attributes :=
  ⟨fun attr hattr => (by cases hattr), by decide⟩

def userRequest (name : UInt8) : RadiusPacket := { sampleRequest with attributes := [⟨1, [name]⟩] }

/-- A MAC that takes the secret off the header and the attributes. -/
def differenceMac : HmacSha256 := fun secret input =>
  Vector.ofFn fun i =>
    let offset := if i.val < 4 then i.val else i.val + 16
    input.getD offset 0 - secret.getD offset 0

def differenceSecret : Bytes := encodeRadiusPacket (userRequest 97)

theorem request_authenticator_binds_sample :
    (∃ received, receiveRequest differenceMac differenceSecret
      (clientPacket differenceMac differenceSecret (userRequest 97)) = .ok received) ∧
    ∀ received, receiveRequest differenceMac differenceSecret
      (encodeRadiusPacket (userRequest 98)) ≠ .ok received := by
  have hfits : Fits (userRequest 97).attributes :=
    ⟨fun attr hattr => by rw [List.mem_singleton.mp hattr]; decide, by decide⟩
  have hzero : clientAuthenticator differenceMac differenceSecret (userRequest 97) =
      zeroAuthenticator := by decide +kernel
  have hclient := clientPacket_of_zero hzero
  have hmacs : truncatedMac differenceMac differenceSecret
        (encodeRadiusPacket (userRequest 97).unauthenticated) ≠
      truncatedMac differenceMac differenceSecret (encodeRadiusPacket (userRequest 98)) := by
    decide +kernel
  have hbinds := request_authenticator_binds hfits
    (Set.injOn_pair.mpr fun heq => absurd heq hmacs) (Set.mem_insert _ _)
    (by rw [hclient]; exact Set.mem_insert _ _)
  refine ⟨hbinds.1.mpr hzero, hbinds.2 _ (Set.mem_insert_of_mem _ rfl) ?_ ?_⟩
  · rw [hclient]
    decide +kernel
  · rw [hclient]
    decide +kernel

theorem honest_request_refused :
    receiveRequest sampleMac [1, 2] (clientPacket sampleMac [1, 2] sampleRequest) =
      .error (.unauthorized "RADIUS request authenticator mismatch") := by
  have hne : truncatedMac sampleMac [1, 2] (clientPacket sampleMac [1, 2] sampleRequest) ≠
      clientAuthenticator sampleMac [1, 2] sampleRequest := by decide +kernel
  have hfits : Fits { sampleRequest with
      authenticator := clientAuthenticator sampleMac [1, 2] sampleRequest }.attributes :=
    fits_sampleRequest
  exact (receiveRequest_encode hfits).trans (if_neg hne)

end Qid.Network
