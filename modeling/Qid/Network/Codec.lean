/-
The RADIUS codec and its limits.

A declared length below the header is accepted too, and the server narrows the lengths of its
responses to the fields without a check.
-/
import Qid.Network.Request

namespace Qid.Network

open Lib

theorem RadiusCode.asByte_fromByte (byte : UInt8) : (fromByte byte).asByte = byte := by
  unfold fromByte
  split <;> rfl

variable {bytes : Bytes} {attributes : List RadiusAttribute} {packet : RadiusPacket}

theorem toNat_lengthByte {n : Nat} (h : n < 256) : (UInt8.ofNat n).toNat = n := by
  rw [UInt8.toNat_ofNat']
  omega

/-- What the loop has parsed it has taken off its bytes, one attribute after the other, each with
its length in a byte. -/
theorem parseAttributes_induction {motive : Bytes → List RadiusAttribute → Prop}
    (nil : motive [] [])
    (cons : ∀ kind value rest attributes, value.length + 2 < 256 → motive rest attributes →
      motive (kind :: UInt8.ofNat (value.length + 2) :: (value ++ rest))
        (⟨kind, value⟩ :: attributes))
    (h : parseAttributes bytes = .ok attributes) : motive bytes attributes := by
  induction bytes using parseAttributes.induct generalizing attributes with
  | case1 =>
    rw [parseAttributes] at h
    cases h
    exact nil
  | case2 =>
    rw [parseAttributes] at h
    cases h
  | case3 kind attrLen rest hbad =>
    rw [parseAttributes, if_pos hbad] at h
    cases h
  | case4 kind attrLen rest hgood ih =>
    rw [parseAttributes, if_neg hgood, bind_eq_ok] at h
    obtain ⟨tail, htail, h⟩ := h
    cases h
    have hvalue : (rest.take (attrLen.toNat - 2)).length + 2 = attrLen.toNat := by
      rw [List.length_take]
      omega
    have hbound := attrLen.toNat_lt
    have hstep := cons kind (rest.take (attrLen.toNat - 2)) (rest.drop (attrLen.toNat - 2)) tail
      (by omega) (ih htail)
    rw [hvalue, UInt8.ofNat_toNat, List.take_append_drop] at hstep
    exact hstep

theorem attributesBytes_of_parse (h : parseAttributes bytes = .ok attributes) :
    attributesBytes attributes = bytes := by
  refine parseAttributes_induction (motive := fun bytes attributes =>
    attributesBytes attributes = bytes) rfl ?_ h
  rintro kind value _ attributes - rfl
  rfl

theorem take_layout (code identifier high low : UInt8) (authenticator : Authenticator)
    (attributes : Bytes) (n : Nat) :
    (layout code identifier high low authenticator attributes).take (20 + n) =
      layout code identifier high low authenticator (attributes.take n) := by
  have hlength : authenticator.toList.length = 16 := authenticator.length_toList
  have hn : 20 + n = authenticator.toList.length + n + 4 := by omega
  rw [hn]
  simp only [layout, List.take_succ_cons, List.take_length_add_append]

section

variable (h : parseRadiusPacket bytes = .ok packet)
include h

theorem of_parseRadiusPacket :
    20 ≤ bytes.length ∧ declaredLength bytes ≤ bytes.length ∧
      parseAttributes ((bytes.take (declaredLength bytes)).drop 20) = .ok packet.attributes ∧
      packet.code = .fromByte (bytes.getD 0 0) ∧ packet.identifier = bytes.getD 1 0 ∧
      packet.authenticator = authenticatorOf bytes := by
  rw [parseRadiusPacket, guard_eq_ok, guard_eq_ok, bind_eq_ok] at h
  obtain ⟨hlong, hwhole, attributes, hattributes, h⟩ := h
  cases h
  exact ⟨Nat.not_lt.mp hlong, Nat.not_lt.mp hwhole, hattributes, rfl, rfl, rfl⟩

theorem fits_of_parse : Fits packet.attributes := by
  obtain ⟨-, -, hattributes, -⟩ := of_parseRadiusPacket h
  constructor
  · refine parseAttributes_induction (motive := fun _ attributes =>
      ∀ attr ∈ attributes, attr.value.length + 2 < 256) (fun _ h => by cases h) ?_ hattributes
    exact fun kind value _ _ hvalue ih => List.forall_mem_cons.mpr ⟨hvalue, ih⟩
  · have hsize := congrArg List.length (attributesBytes_of_parse hattributes)
    rw [attributesBytes, length_flatMap_attributeBytes, List.map_map, List.length_drop,
      List.length_take] at hsize
    have hhigh := (bytes.getD 2 0).toNat_lt
    have hlow := (bytes.getD 3 0).toNat_lt
    have hdeclared : declaredLength bytes < 65536 := by
      rw [declaredLength]
      omega
    show 20 + (packet.attributes.map ((fun attr => attr.2.length + 2) ∘
      fun attr => (attr.kind, attr.value))).sum < 65536
    omega

theorem encodeRadiusPacket_of_parse (hheader : 20 ≤ declaredLength bytes) :
    encodeRadiusPacket packet = bytes.take (declaredLength bytes) := by
  obtain ⟨hlong, hwhole, hattributes, hcode, hidentifier, hauthenticator⟩ := of_parseRadiusPacket h
  obtain ⟨code, identifier, high, low, authenticator, rest, rfl⟩ := exists_layout hlong
  obtain ⟨n, hn⟩ := Nat.exists_eq_add_of_le hheader
  rw [hn] at hattributes hwhole ⊢
  rw [take_layout] at hattributes ⊢
  rw [drop_layout] at hattributes
  have hbytes := attributesBytes_of_parse hattributes
  have hsize : 20 + (attributesBytes packet.attributes).length = 20 + n := by
    rw [length_layout] at hwhole
    rw [hbytes, List.length_take]
    omega
  rw [encodeRadiusPacket_layout ((eq_lengthBytes hn).trans (congrArg lengthBytes hsize.symm)),
    hbytes, hcode, hidentifier, hauthenticator, authenticatorOf_layout,
    RadiusCode.asByte_fromByte]
  rfl

end

variable {code : RadiusCode}

theorem RadiusCode.fromByte_asByte :
    fromByte code.asByte = code ↔ ∀ byte, code = .other byte → fromByte byte = .other byte := by
  cases code with
  | other byte => exact ⟨fun h _ hbyte => by cases hbyte; exact h, fun h => h byte rfl⟩
  | _ => exact ⟨fun _ _ hbyte => (nomatch hbyte), fun _ => rfl⟩

/-- Decoding and encoding are inverse exactly for packets that declare at least their header, and,
within the limits of the protocol, for packets whose code is not a named one under `other`. -/
theorem radius_codec_inverse (bytes : Bytes) (packet : RadiusPacket) :
    (parseRadiusPacket bytes = .ok packet →
      (encodeRadiusPacket packet = bytes.take (declaredLength bytes) ↔ 20 ≤ declaredLength bytes)) ∧
    ((∀ attr ∈ packet.attributes, attr.value.length ≤ 253) →
      20 + (packet.attributes.map fun attr => attr.value.length + 2).sum ≤ 4096 →
      (parseRadiusPacket (encodeRadiusPacket packet) = .ok packet ↔
        ∀ byte, packet.code = .other byte → RadiusCode.fromByte byte = .other byte)) := by
  refine ⟨fun h => ⟨fun heq => ?_, encodeRadiusPacket_of_parse h⟩, fun heach htotal => ?_⟩
  · have hlength := congrArg List.length heq
    rw [encodeRadiusPacket_layout rfl, length_layout, List.length_take] at hlength
    omega
  · have hfits : Fits packet.attributes :=
      ⟨fun attr hattr => by have := heach attr hattr; omega, by omega⟩
    rw [parseRadiusPacket_encode hfits, ← RadiusCode.fromByte_asByte]
    constructor
    · intro h
      exact congrArg RadiusPacket.code (Except.ok.inj h)
    · intro h
      rw [h]

theorem radius_codec_inverse_sample :
    encodeRadiusPacket (userRequest 97) =
        (encodeRadiusPacket (userRequest 97) ++ [9]).take 23 ∧
      parseRadiusPacket (encodeRadiusPacket (userRequest 97)) = .ok (userRequest 97) := by
  have hparsed : parseRadiusPacket (encodeRadiusPacket (userRequest 97) ++ [9]) =
      .ok (userRequest 97) := by decide +kernel
  refine ⟨((radius_codec_inverse _ _).1 hparsed).mpr (by decide +kernel),
    ((radius_codec_inverse [] _).2 ?_ (by decide)).mpr fun byte h => by cases h⟩
  exact List.forall_mem_singleton.mpr (by decide)

/-- Twenty zeros, with a declared length of zero, encode to twenty bytes. A packet with the code of
an Access-Request under `other` is parsed as an Access-Request. -/
theorem radius_codec_not_inverse :
    (∃ packet, parseRadiusPacket (List.replicate 20 0) = .ok packet ∧
      encodeRadiusPacket packet ≠
        (List.replicate 20 0).take (declaredLength (List.replicate 20 0))) ∧
    parseRadiusPacket (encodeRadiusPacket { sampleRequest with code := .other 1 }) =
      .ok sampleRequest := by
  refine ⟨⟨⟨.other 0, 0, zeroAuthenticator, []⟩, ?_, by decide +kernel⟩,
    parseRadiusPacket_encode fits_sampleRequest⟩
  rw [parseRadiusPacket, if_neg (by decide), if_neg (by decide)]
  show (do let attributes ← parseAttributes []; _) = _
  rw [parseAttributes]
  rfl

def eapAttributes (request : RadiusPacket) : List RadiusAttribute :=
  request.attributes.filter fun attr => attr.kind = Attrs.eapMessage

/-- The reply of a decision fits in an attribute, and what an acceptance adds to it in a packet. -/
def ResponseFits (request : RadiusPacket) : RadiusAccessDecision → Prop
  | .accept message timeout =>
    message.toUTF8.toList.length ≤ 253 ∧
      22 + message.toUTF8.toList.length + 6 * timeout.toList.length +
        6 * (eapAttributes request).length < 65536
  | .reject message => message.toUTF8.toList.length ≤ 253

/-- The attributes of a response as the parser returns them. -/
def chosenAttributes (attributes : List (UInt8 × Bytes)) : List RadiusAttribute :=
  attributes.map fun attr => ⟨attr.1, attr.2⟩

section

variable {userName : String} {request : RadiusPacket}
  {authorizer : String → RadiusPacket → RadiusAccessDecision}

theorem fits_chosenAttributes {attributes : List (UInt8 × Bytes)} :
    Fits (chosenAttributes attributes) ↔ (∀ attr ∈ attributes, attr.2.length + 2 < 256) ∧
      20 + (attributes.map fun attr => attr.2.length + 2).sum < 65536 := by
  rw [chosenAttributes]
  constructor
  · rintro ⟨heach, htotal⟩
    rw [List.map_map] at htotal
    exact ⟨List.forall_mem_map.mp heach, htotal⟩
  · rintro ⟨heach, htotal⟩
    refine ⟨List.forall_mem_map.mpr heach, ?_⟩
    rw [List.map_map]
    exact htotal

theorem fits_decideRadiusResponse :
    Fits (chosenAttributes (decideRadiusResponse userName request authorizer).2) ↔
      userName.isEmpty = true ∨ ResponseFits request (authorizer userName request) := by
  rw [fits_chosenAttributes, decideRadiusResponse]
  split
  · rename_i hempty
    exact ⟨fun _ => Or.inl hempty, fun _ => ⟨by decide +kernel, by decide +kernel⟩⟩
  · rename_i hnamed
    rw [or_iff_right hnamed]
    cases authorizer userName request with
    | reject message =>
      simp only [ResponseFits, List.forall_mem_singleton, List.map_singleton, List.sum_singleton]
      omega
    | accept message timeout =>
      have heap (attr : RadiusAttribute) : (eapReply attr).2.length = 4 := rfl
      have htimeout (t : UInt32) : (timeoutBytes t).length = 4 := rfl
      simp only [ResponseFits, eapAttributes, List.forall_mem_append, List.forall_mem_map,
        List.forall_mem_singleton, List.map_append, List.sum_append, List.map_map,
        Function.comp_def, heap, htimeout, List.map_const', List.sum_replicate_nat,
        List.map_singleton, List.sum_singleton, Nat.reduceAdd, Nat.reduceLT, implies_true,
        true_and, and_true]
      omega

variable (userName request authorizer) in
theorem RadiusCode.fromByte_decided :
    fromByte (decideRadiusResponse userName request authorizer).1.asByte =
      (decideRadiusResponse userName request authorizer).1 := by
  rw [decideRadiusResponse]
  split
  · rfl
  · cases authorizer userName request <;> rfl

end

/-- A response parses back to its code, the identifier of the request and its attributes, exactly
if there was no user name, or the reply fits in an attribute and what an acceptance adds to it in
the Length field. -/
theorem radius_response_well_formed (hmac : HmacSha256) (secret : Bytes) (userName : String)
    (request : RadiusPacket) (authorizer : String → RadiusPacket → RadiusAccessDecision) :
    (∃ authenticator, parseRadiusPacket (accessResponse hmac secret request userName authorizer) =
      .ok { code := (decideRadiusResponse userName request authorizer).1
            identifier := request.identifier
            authenticator := authenticator
            attributes := chosenAttributes (decideRadiusResponse userName request authorizer).2 }) ↔
      userName.isEmpty = true ∨ ResponseFits request (authorizer userName request) := by
  rw [← fits_decideRadiusResponse]
  refine ⟨fun ⟨_, hparsed⟩ => fits_of_parse hparsed, fun hfits => ?_⟩
  have hcode := RadiusCode.fromByte_decided userName request authorizer
  rw [accessResponse]
  generalize decideRadiusResponse userName request authorizer = decided at hfits hcode ⊢
  obtain ⟨code, attributes⟩ := decided
  dsimp only at hfits hcode ⊢
  obtain ⟨heach, htotal⟩ := fits_chosenAttributes.mp hfits
  obtain ⟨high, low, hfield, hlayout⟩ :=
    encodeRadiusResponse_eq hmac secret request.identifier request.authenticator code attributes
  have hbytes : attributesBytes (chosenAttributes attributes) =
      attributes.flatMap attributeBytes := by
    rw [attributesBytes, chosenAttributes, List.map_map]
    exact congrArg _ (List.map_id attributes)
  have hlength : high.toNat * 256 + low.toNat =
      20 + (attributesBytes (chosenAttributes attributes)).length := by
    rw [length_flatMap_attributeBytes] at hfield
    rw [hbytes, length_flatMap_attributeBytes]
    obtain ⟨rfl, hlow⟩ := List.cons.inj hfield
    obtain ⟨rfl, -⟩ := List.cons.inj hlow
    rw [UInt8.toNat_ofNat', UInt8.toNat_ofNat']
    omega
  have hparsed := parseRadiusPacket_layout hfits.each hlength code.asByte request.identifier
  rw [hlayout, ← hbytes, hparsed, hcode]
  exact ⟨_, rfl⟩

/-- A reply of 254 bytes leaves no room for its length: the response does not parse. -/
theorem long_reply_not_well_formed :
    (parseRadiusPacket (accessResponse sampleMac [1, 2] sampleRequest "u"
      fun _ _ => .reject (String.ofList (List.replicate 254 'a')))).toBool = false := by
  decide +kernel

end Qid.Network
