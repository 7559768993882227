/-
The Message-Authenticator of a RADIUS request.

The server looks for the attribute in the bytes of the packet, apart from the parser, and only for
one with a value of 32 bytes. It passes over an attribute of another length and stops at the first
that fits.
-/
import Mathlib.Data.List.Pairwise
import Qid.Network.Codec

namespace Qid.Network

open Lib

/-- From the bytes between the position and the declared length. -/
def findOffset (pos : Nat) : Bytes → Option Nat
  | attrType :: attrLen :: rest =>
    if attrLen.toNat < 2 then none
    else if attrType = 80 ∧ attrLen.toNat = 34 then some (pos + 2)
    else findOffset (pos + attrLen.toNat) (rest.drop (attrLen.toNat - 2))
  | _ => none
termination_by bytes => bytes.length

def findMessageAuthenticatorOffset (packet : Bytes) : Option Nat :=
  if packet.length < 20 then none
  else if packet.length < declaredLength packet then none
  else findOffset 20 ((packet.take (declaredLength packet)).drop 20)

def zeroed (packet : Bytes) (offset : Nat) : Bytes :=
  packet.take offset ++ List.replicate 32 0 ++ packet.drop (offset + 32)

section

variable (hmac : HmacSha256) (secret requestBytes : Bytes)

def verifyRadiusMessageAuthenticator (offset : Nat) (expected : Bytes) : QidResult Bool :=
  if requestBytes.length < offset + 32 then
    throw (.badRequest "RADIUS Message-Authenticator is outside the packet")
  else return (hmac secret (zeroed requestBytes offset)).toList = expected

def checkMessageAuthenticator (mismatch : String) : QidResult Unit :=
  match findMessageAuthenticatorOffset requestBytes with
  | none => return ()
  | some offset => do
    let verified ← verifyRadiusMessageAuthenticator hmac secret requestBytes offset
      ((requestBytes.drop offset).take 32)
    ensure verified (.unauthorized mismatch)

/-- Those of `handle_radius_access_request_bytes_with_authorizer`. -/
def checkAccessRequest : QidResult RadiusPacket := do
  let request ← receiveRequest hmac secret requestBytes
  checkMessageAuthenticator hmac secret requestBytes "RADIUS Message-Authenticator mismatch"
  return request

/-- Those of `handle_radius_accounting_request`. -/
def checkAccountingRequest : QidResult RadiusPacket := do
  let request ← parseRadiusPacket requestBytes
  ensure (request.code = .accountingRequest) (.badRequest "not an Accounting-Request packet")
  ensure (verifyRadiusRequestAuthenticator hmac secret request requestBytes)
    (.unauthorized "RADIUS accounting request authenticator mismatch")
  checkMessageAuthenticator hmac secret requestBytes
    "RADIUS accounting Message-Authenticator mismatch"
  return request

end

/-- The attributes with the offsets of their values. -/
def placed (pos : Nat) : List RadiusAttribute → List (Nat × RadiusAttribute)
  | [] => []
  | attr :: rest => (pos + 2, attr) :: placed (pos + (attr.value.length + 2)) rest

def RadiusAttribute.sized (attr : RadiusAttribute) : Bool := attr.kind = 80 ∧ attr.value.length = 32

variable {bytes : Bytes} {attributes : List RadiusAttribute} {p : Nat × RadiusAttribute}

theorem findOffset_of_parse (h : parseAttributes bytes = .ok attributes) (pos : Nat) :
    findOffset pos bytes = ((placed pos attributes).find? fun p => p.2.sized).map Prod.fst := by
  refine parseAttributes_induction (motive := fun bytes attributes => ∀ pos,
    findOffset pos bytes = ((placed pos attributes).find? fun p => p.2.sized).map Prod.fst)
    (fun pos => ?_) (fun kind value rest tail hvalue ih pos => ?_) h pos
  · rw [findOffset] <;> simp [placed]
  · rw [findOffset, placed, toNat_lengthByte hvalue, Nat.add_sub_cancel, List.drop_left, ih]
    by_cases hsized : kind = 80 ∧ value.length = 32
    · simp [RadiusAttribute.sized, hsized]
    · simp [RadiusAttribute.sized, hsized]

theorem value_of_placed {pos : Nat} (h : p ∈ placed pos attributes) :
    ∃ before after, attributesBytes attributes = before ++ p.2.value ++ after ∧
      pos + before.length = p.1 := by
  induction attributes generalizing pos with
  | nil => cases h
  | cons attr rest ih =>
    have hcons : attributesBytes (attr :: rest) =
        attributeBytes (attr.kind, attr.value) ++ attributesBytes rest := rfl
    rcases List.mem_cons.mp h with rfl | h
    · exact ⟨[attr.kind, UInt8.ofNat (attr.value.length + 2)], attributesBytes rest, rfl, rfl⟩
    · obtain ⟨before, after, hrest, hbefore⟩ := ih h
      refine ⟨attributeBytes (attr.kind, attr.value) ++ before, after, ?_, ?_⟩
      · rw [hcons, hrest, List.append_assoc, List.append_assoc, List.append_assoc]
      · rw [List.length_append, ← hbefore, ← Nat.add_assoc]
        rfl

section

variable {hmac : HmacSha256} {secret : Bytes} {request : RadiusPacket} {mismatch : String}

theorem value_of_parse (h : parseRadiusPacket bytes = .ok request)
    (hp : p ∈ placed 20 request.attributes) :
    ∃ before after, bytes = before ++ p.2.value ++ after ∧ before.length = p.1 := by
  obtain ⟨hshort, -, hparsed, -⟩ := of_parseRadiusPacket h
  obtain ⟨before, after, hsplit, hbefore⟩ := value_of_placed hp
  rw [attributesBytes_of_parse hparsed, List.drop_take] at hsplit
  refine ⟨bytes.take 20 ++ before, after ++ (bytes.drop 20).drop (declaredLength bytes - 20),
    ?_, ?_⟩
  · have htail := List.take_append_drop (declaredLength bytes - 20) (bytes.drop 20)
    rw [hsplit, List.append_assoc, List.append_assoc] at htail
    rw [List.append_assoc, List.append_assoc, htail, List.take_append_drop]
  · rw [List.length_append, List.length_take, Nat.min_eq_left hshort, hbefore]

theorem of_checked (h : checkAccessRequest hmac secret bytes = .ok request ∨
      checkAccountingRequest hmac secret bytes = .ok request) :
    parseRadiusPacket bytes = .ok request ∧
      ∃ mismatch, checkMessageAuthenticator hmac secret bytes mismatch = .ok () := by
  rcases h with h | h
  · obtain ⟨received, hreceived, h⟩ := bind_eq_ok.mp h
    obtain ⟨_, hchecked, h⟩ := bind_eq_ok.mp h
    obtain ⟨parsed, hparsed, hreceived⟩ := bind_eq_ok.mp hreceived
    cases h
    cases (guard_eq_ok.mp hreceived).2
    exact ⟨hparsed, _, hchecked⟩
  · obtain ⟨parsed, hparsed, h⟩ := bind_eq_ok.mp h
    obtain ⟨_, -, h⟩ := bind_eq_ok.mp h
    obtain ⟨_, -, h⟩ := bind_eq_ok.mp h
    obtain ⟨_, hchecked, h⟩ := bind_eq_ok.mp h
    cases h
    exact ⟨hparsed, _, hchecked⟩

theorem map_snd_placed (pos : Nat) (attributes : List RadiusAttribute) :
    (placed pos attributes).map Prod.snd = attributes := by
  induction attributes generalizing pos with
  | nil => rfl
  | cons attr rest ih => rw [placed, List.map_cons, ih]

/-- No two attributes are Message-Authenticators, and none is of another size. -/
structure SoleAuthenticator (attributes : List RadiusAttribute) : Prop where
  sole : attributes.Pairwise fun a b => ¬(a.kind = 80 ∧ b.kind = 80)
  size : ∀ attr ∈ attributes, attr.kind = 80 → attr.value.length = 32

theorem find_of_parse (h : parseRadiusPacket bytes = .ok request) :
    findMessageAuthenticatorOffset bytes =
      ((placed 20 request.attributes).find? fun p => p.2.sized).map Prod.fst := by
  obtain ⟨hshort, hlong, hattributes, -⟩ := of_parseRadiusPacket h
  rw [findMessageAuthenticatorOffset, if_neg (not_lt.mpr hshort), if_neg (not_lt.mpr hlong),
    findOffset_of_parse hattributes 20]

theorem SoleAuthenticator.find_eq (h : SoleAuthenticator request.attributes)
    (hp : p ∈ placed 20 request.attributes) (hkind : p.2.kind = 80) :
    (placed 20 request.attributes).find? (fun p => p.2.sized) = some p := by
  have hattr : p.2 ∈ request.attributes := by
    rw [← map_snd_placed 20 request.attributes]
    exact List.mem_map_of_mem hp
  cases hfound : (placed 20 request.attributes).find? fun p => p.2.sized with
  | none =>
    exact absurd (decide_eq_true ⟨hkind, h.size p.2 hattr hkind⟩)
      (List.find?_eq_none.mp hfound p hp)
  | some q =>
    -- the attribute that was found is this one
    have hsole := h.sole
    rw [← map_snd_placed 20 request.attributes, List.pairwise_map] at hsole
    have : Std.Symm fun a b : Nat × RadiusAttribute => ¬(a.2.kind = 80 ∧ b.2.kind = 80) :=
      ⟨fun _ _ hab hba => hab hba.symm⟩
    by_contra hne
    have hq := List.find?_some hfound
    exact hsole.forall hp (List.mem_of_find?_eq_some hfound) (fun hpq => hne (congrArg _ hpq.symm))
      ⟨hkind, (of_decide_eq_true hq).1⟩

theorem SoleAuthenticator.verified (h : SoleAuthenticator request.attributes)
    (hparsed : parseRadiusPacket bytes = .ok request)
    (hchecked : checkMessageAuthenticator hmac secret bytes mismatch = .ok ())
    (hp : p ∈ placed 20 request.attributes) (hkind : p.2.kind = 80) :
    (hmac secret (zeroed bytes p.1)).toList = p.2.value := by
  have hfound := h.find_eq hp hkind
  obtain ⟨before, after, hsplit, hbefore⟩ := value_of_parse hparsed hp
  have hsized := List.find?_some hfound
  have hlength := (of_decide_eq_true hsized).2
  rw [checkMessageAuthenticator, find_of_parse hparsed, hfound] at hchecked
  obtain ⟨verified, hverified, hchecked⟩ := bind_eq_ok.mp hchecked
  rw [verifyRadiusMessageAuthenticator] at hverified
  split_ifs at hverified
  cases hverified
  rw [of_decide_eq_true (ensure_eq_ok.mp hchecked), hsplit, ← hbefore, List.append_assoc,
    List.drop_left, ← hlength, List.take_left]

variable (hmac secret bytes) in
/-- Past the checks every Message-Authenticator was verified, and one of another size or a second
leads to refusal. -/
structure NeverIgnored (outcome : QidResult RadiusPacket) : Prop where
  verified : ∀ request, outcome = .ok request → ∀ p ∈ placed 20 request.attributes,
    p.2.kind = 80 → (hmac secret (zeroed bytes p.1)).toList = p.2.value
  refused : ∀ request, parseRadiusPacket bytes = .ok request →
    ¬SoleAuthenticator request.attributes → ∃ e, outcome = .error e

/-- The search finds the first attribute of the right size where the parser has it, within the
packet. No Message-Authenticator is ignored exactly if the request is refused, or it has at most one
and of that size. -/
theorem message_authenticator_verified {outcome : QidResult RadiusPacket}
    (h : outcome = checkAccessRequest hmac secret bytes ∨
      outcome = checkAccountingRequest hmac secret bytes) :
    (∀ request, parseRadiusPacket bytes = .ok request →
      findMessageAuthenticatorOffset bytes =
          ((placed 20 request.attributes).find? fun p => p.2.sized).map Prod.fst ∧
        ∀ p ∈ placed 20 request.attributes,
          ∃ before after, bytes = before ++ p.2.value ++ after ∧ before.length = p.1) ∧
    (NeverIgnored bytes hmac secret outcome ↔ (∃ e, outcome = .error e) ∨
      ∃ request, parseRadiusPacket bytes = .ok request ∧ SoleAuthenticator request.attributes) := by
  refine ⟨fun request hparsed => ⟨find_of_parse hparsed, fun p => value_of_parse hparsed⟩, ?_⟩
  have hchecks {request} (hok : outcome = .ok request) :=
    of_checked (h.imp (fun h => h.symm.trans hok) (fun h => h.symm.trans hok))
  constructor
  · intro hnever
    cases hout : outcome with
    | error e => exact Or.inl ⟨e, rfl⟩
    | ok request =>
      refine Or.inr ⟨request, (hchecks hout).1, ?_⟩
      by_contra hsole
      obtain ⟨e, he⟩ := hnever.refused request (hchecks hout).1 hsole
      cases hout.symm.trans he
  · rintro (⟨e, rfl⟩ | ⟨sole, hparsed, hsole⟩)
    · exact ⟨fun _ h => (nomatch h), fun _ _ _ => ⟨e, rfl⟩⟩
    · constructor
      · intro request hok p hp hkind
        obtain ⟨hrequest, mismatch, hchecked⟩ := hchecks hok
        cases hparsed.symm.trans hrequest
        exact hsole.verified hparsed hchecked hp hkind
      · intro request hrequest hnot
        obtain rfl := Except.ok.inj (hparsed.symm.trans hrequest)
        exact absurd hsole hnot

end

def sampleHeader (length : UInt8) : Bytes := [1, 7, 0, length] ++ List.replicate 16 0

theorem message_authenticator_verified_sample :
    let bytes := sampleHeader 57 ++ [1, 3, 117, 80, 34] ++ List.replicate 32 0
    findMessageAuthenticatorOffset bytes = some 25 ∧
      (zeroMac [1] (zeroed bytes 25)).toList = List.replicate 32 0 := by
  have hchecked : checkAccessRequest zeroMac [1]
      (sampleHeader 57 ++ [1, 3, 117, 80, 34] ++ List.replicate 32 0) =
      .ok ⟨.accessRequest, 7, zeroAuthenticator, [⟨1, [117]⟩, ⟨80, List.replicate 32 0⟩]⟩ := by
    decide +kernel
  have hparsed := (of_checked (Or.inl hchecked)).1
  obtain ⟨hplaces, hiff⟩ := message_authenticator_verified (Or.inl hchecked.symm)
  have hnever := hiff.mpr (Or.inr ⟨_, hparsed, by simp, by simp⟩)
  exact ⟨(hplaces _ hparsed).1, hnever.verified _ rfl _
    (List.mem_cons_of_mem _ (List.mem_singleton_self _)) rfl⟩

/-- One of 16 bytes, and a second after one that holds, are accepted whatever their values. -/
theorem message_authenticator_ignored :
    (checkAccessRequest zeroMac [1] (sampleHeader 38 ++ [80, 18] ++ List.replicate 16 9)).map
        (·.attributes) = .ok [⟨80, List.replicate 16 9⟩] ∧
    (checkAccessRequest zeroMac [1] (sampleHeader 88 ++ [80, 34] ++ List.replicate 32 0 ++
        [80, 34] ++ List.replicate 32 9)).map (·.attributes) =
      .ok [⟨80, List.replicate 32 0⟩, ⟨80, List.replicate 32 9⟩] := by
  decide +kernel

end Qid.Network
