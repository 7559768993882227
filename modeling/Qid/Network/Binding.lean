/-
What the response authenticator binds.

The MAC is taken over the packet from offset 4 on, with the authenticator field zeroed.
-/
import Mathlib.Data.Set.Function
import Qid.Network.Radius

namespace Qid.Network

/-- Code, Identifier, the two bytes of Length, the authenticator and the attributes. -/
def layout (code identifier high low : UInt8) (authenticator : Authenticator)
    (attributes : Bytes) : Bytes :=
  code :: identifier :: high :: low :: (authenticator.toList ++ attributes)

section

variable (code identifier high low : UInt8) (authenticator : Authenticator) (attributes : Bytes)

@[simp] theorem drop_layout :
    (layout code identifier high low authenticator attributes).drop 20 = attributes := by
  have hlength : authenticator.toList.length = 16 := authenticator.length_toList
  exact List.drop_left' hlength

@[simp] theorem length_layout :
    (layout code identifier high low authenticator attributes).length = 20 + attributes.length := by
  simp only [layout, List.length_cons, List.length_append, Vector.length_toList]
  omega

def authenticatorBytes (packet : Bytes) : Bytes := (packet.drop 4).take 16

@[simp] theorem authenticatorBytes_layout :
    authenticatorBytes (layout code identifier high low authenticator attributes) =
      authenticator.toList := by
  have hlength : authenticator.toList.length = 16 := authenticator.length_toList
  exact List.take_left' hlength

end

theorem exists_layout {packet : Bytes} (h : 20 ≤ packet.length) :
    ∃ code identifier high low authenticator attributes,
      packet = layout code identifier high low authenticator attributes := by
  rcases packet with _ | ⟨code, _ | ⟨identifier, _ | ⟨high, _ | ⟨low, rest⟩⟩⟩⟩
  case cons.cons.cons.cons =>
    simp only [List.length_cons] at h
    have hlength : (rest.take 16).toArray.size = 16 := by
      rw [List.size_toArray, List.length_take]
      omega
    refine ⟨code, identifier, high, low, ⟨(rest.take 16).toArray, hlength⟩, rest.drop 16, ?_⟩
    show _ = code :: identifier :: high :: low :: (rest.take 16 ++ rest.drop 16)
    rw [List.take_append_drop]
  all_goals
    simp only [List.length_cons, List.length_nil] at h
    omega

/-- The Length field, `u16::from_be_bytes`. -/
def declaredLength (packet : Bytes) : Nat := (packet.getD 2 0).toNat * 256 + (packet.getD 3 0).toNat

theorem eq_lengthBytes {high low : UInt8} {n : Nat} (h : high.toNat * 256 + low.toNat = n) :
    [high, low] = lengthBytes n := by
  have hhigh : high = UInt8.ofNat (n / 256) := by
    rw [← UInt8.toNat_inj, UInt8.toNat_ofNat']
    have := high.toNat_lt
    have := low.toNat_lt
    omega
  have hlow : low = UInt8.ofNat n := by
    rw [← UInt8.toNat_inj, UInt8.toNat_ofNat']
    have := low.toNat_lt
    omega
  rw [lengthBytes, ← hhigh, ← hlow]

theorem length_flatMap_attributeBytes (attributes : List (UInt8 × Bytes)) :
    (attributes.flatMap attributeBytes).length =
      (attributes.map fun attr => attr.2.length + 2).sum := by
  rw [List.length_flatMap]
  rfl

section

variable (hmac : HmacSha256) (secret : Bytes) (requestAuthenticator : Authenticator)

/-- What is under the MAC of a packet that answers the request. -/
def macInput (packet : Bytes) : Bytes :=
  requestAuthenticator.toList ++ (zeroAuthenticator.toList ++ packet.drop 20)

/-- The client computes the authenticator of the packet it received and compares. -/
def ClientAccepts (packet : Bytes) : Prop :=
  20 ≤ packet.length ∧
    (radiusResponseAuthenticator hmac secret requestAuthenticator
      (zeroAuthenticator.toList ++ packet.drop 20)).toList = authenticatorBytes packet

/-- The response of the server: the first four bytes do not enter its authenticator. -/
theorem encodeRadiusResponse_eq (identifier : UInt8) (requestAuthenticator : Authenticator)
    (code : RadiusCode) (attributes : List (UInt8 × Bytes)) :
    ∃ high low, [high, low] = lengthBytes (20 + (attributes.flatMap attributeBytes).length) ∧
      encodeRadiusResponse hmac secret identifier requestAuthenticator code attributes =
        layout code.asByte identifier high low
          (radiusResponseAuthenticator hmac secret requestAuthenticator
            (zeroAuthenticator.toList ++ attributes.flatMap attributeBytes))
          (attributes.flatMap attributeBytes) := by
  refine ⟨_, _, rfl, ?_⟩
  rw [length_flatMap_attributeBytes]
  rfl

variable {hmac secret}

variable {request : RadiusPacket} {userName : String}
  {authorizer : String → RadiusPacket → RadiusAccessDecision} {packet : Bytes}

variable (hmac secret request userName authorizer) in
theorem clientAccepts_accessResponse :
    ClientAccepts hmac secret request.authenticator
      (accessResponse hmac secret request userName authorizer) := by
  obtain ⟨high, low, -, hresponse⟩ := encodeRadiusResponse_eq hmac secret request.identifier
    request.authenticator (decideRadiusResponse userName request authorizer).1
    (decideRadiusResponse userName request authorizer).2
  rw [accessResponse, hresponse]
  refine ⟨by rw [length_layout]; omega, ?_⟩
  rw [drop_layout, authenticatorBytes_layout]

variable {inputs : Set Bytes}
  (hinjective : Set.InjOn (truncatedMac hmac secret) inputs)
  (hresponse : macInput request.authenticator
    (accessResponse hmac secret request userName authorizer) ∈ inputs)
  (hpacket : macInput request.authenticator packet ∈ inputs)
  (hsame : authenticatorBytes packet =
    authenticatorBytes (accessResponse hmac secret request userName authorizer))
  (haccepts : ClientAccepts hmac secret request.authenticator packet)
include hinjective hresponse hpacket hsame haccepts

/-- Where truncated HMAC does not collide on what is under the two MACs, a packet with the
authenticator of the response that the client accepts carries its attributes, byte for byte. -/
theorem attributes_of_accepted :
    packet.drop 20 = (accessResponse hmac secret request userName authorizer).drop 20 := by
  obtain ⟨-, hserver⟩ := clientAccepts_accessResponse hmac secret request userName authorizer
  have hmacs : truncatedMac hmac secret (macInput request.authenticator packet) =
      truncatedMac hmac secret (macInput request.authenticator
        (accessResponse hmac secret request userName authorizer)) := by
    rw [← Vector.toList_inj]
    exact haccepts.2.trans (hsame.trans hserver.symm)
  have hinputs := hinjective hpacket hresponse hmacs
  exact List.append_cancel_left (List.append_cancel_left hinputs)

omit hinjective hresponse hpacket hsame haccepts in
variable (hmac secret request userName authorizer) in
/-- The client does not read what is before the authenticator. -/
theorem clientAccepts_header {header : Bytes} (h : header.length = 4) :
    authenticatorBytes
        (header ++ (accessResponse hmac secret request userName authorizer).drop 4) =
      authenticatorBytes (accessResponse hmac secret request userName authorizer) ∧
    ClientAccepts hmac secret request.authenticator
      (header ++ (accessResponse hmac secret request userName authorizer).drop 4) := by
  obtain ⟨hlong, hserver⟩ := clientAccepts_accessResponse hmac secret request userName authorizer
  generalize accessResponse hmac secret request userName authorizer = response at hlong hserver ⊢
  have hsame : authenticatorBytes (header ++ response.drop 4) = authenticatorBytes response := by
    rw [authenticatorBytes, List.drop_left' h, authenticatorBytes]
  have hrest : (header ++ response.drop 4).drop 20 = response.drop 20 := by
    rw [List.drop_append, List.drop_eq_nil_of_le (by omega), List.drop_drop, h]
    rfl
  refine ⟨hsame, ?_, ?_⟩
  · rw [List.length_append, List.length_drop]
    omega
  · rw [hrest, hserver, hsame]

end

/-- The authenticator of a response never binds its first four bytes: the client accepts it with any
other Code, Identifier and Length. It binds the attributes, where truncated HMAC does not collide on
what is under the two MACs. -/
theorem response_authenticator_binds (hmac : HmacSha256) (secret : Bytes)
    (request : RadiusPacket) (userName : String)
    (authorizer : String → RadiusPacket → RadiusAccessDecision) (response : Bytes)
    (hresponse : response = accessResponse hmac secret request userName authorizer) :
    (∀ code identifier high low : UInt8, ∃ packet,
      packet = [code, identifier, high, low] ++ response.drop 4 ∧
      authenticatorBytes packet = authenticatorBytes response ∧
      ClientAccepts hmac secret request.authenticator packet) ∧
    (¬ ∀ packet, authenticatorBytes packet = authenticatorBytes response →
      ClientAccepts hmac secret request.authenticator packet →
      packet.head? = some (decideRadiusResponse userName request authorizer).1.asByte) ∧
    ∀ (inputs : Set Bytes) (packet : Bytes), Set.InjOn (truncatedMac hmac secret) inputs →
      macInput request.authenticator response ∈ inputs →
      macInput request.authenticator packet ∈ inputs →
      authenticatorBytes packet = authenticatorBytes response →
      ClientAccepts hmac secret request.authenticator packet →
      packet.drop 20 = response.drop 20 := by
  subst hresponse
  have hheader : ∀ code identifier high low : UInt8, _ := fun code identifier high low =>
    have hfour : [code, identifier, high, low].length = 4 := rfl
    clientAccepts_header hmac secret request userName authorizer hfour
  refine ⟨fun code identifier high low => ⟨_, rfl, hheader code identifier high low⟩, ?_,
    fun inputs packet hinjective hresponse hpacket hsame haccepts =>
      attributes_of_accepted hinjective hresponse hpacket hsame haccepts⟩
  intro hbound
  have hzero : some (0 : UInt8) = _ := hbound _ (hheader 0 0 0 0).1 (hheader 0 0 0 0).2
  have hone : some (1 : UInt8) = _ := hbound _ (hheader 1 0 0 0).1 (hheader 1 0 0 0).2
  exact absurd (hzero.trans hone.symm) (by decide)

def sampleRequest : RadiusPacket := ⟨.accessRequest, 7, zeroAuthenticator, []⟩

/-- A MAC that pads its input. -/
def sampleMac : HmacSha256 := fun secret input =>
  Vector.ofFn fun i => (secret ++ input).getD i.val 0

def sampleResponse : Bytes := accessResponse sampleMac [1, 2] sampleRequest "" fun _ _ => .reject ""

theorem response_authenticator_binds_itself :
    (∃ packet, packet = [2, 7, 0, 39] ++ sampleResponse.drop 4 ∧
      authenticatorBytes packet = authenticatorBytes sampleResponse ∧
      ClientAccepts sampleMac [1, 2] sampleRequest.authenticator packet) ∧
    sampleResponse.head? = some 3 :=
  ⟨(response_authenticator_binds sampleMac [1, 2] sampleRequest "" (fun _ _ => .reject "")
    sampleResponse rfl).1 2 7 0 39, rfl⟩

/-- With its first byte changed, an Access-Reject is an Access-Accept with the same authenticator,
and the client accepts it. -/
theorem access_reject_turned_into_accept :
    ClientAccepts sampleMac [1, 2] sampleRequest.authenticator sampleResponse ∧
      sampleResponse.head? = some RadiusCode.accessReject.asByte ∧
      ∃ packet, authenticatorBytes packet = authenticatorBytes sampleResponse ∧
        ClientAccepts sampleMac [1, 2] sampleRequest.authenticator packet ∧
        packet.head? = some RadiusCode.accessAccept.asByte := by
  have haccepts : ClientAccepts sampleMac [1, 2] sampleRequest.authenticator sampleResponse :=
    clientAccepts_accessResponse _ _ _ _ _
  refine ⟨haccepts, rfl, RadiusCode.accessAccept.asByte :: sampleResponse.tail, ?_, ?_, rfl⟩
  · rfl
  · -- the client does not read the bytes before the authenticator
    exact haccepts

end Qid.Network
