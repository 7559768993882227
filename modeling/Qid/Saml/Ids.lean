/-
Identifiers of SAML messages.

A translation of the identifiers that `build_saml_response` and `build_saml_logout_request` of
`qid-saml/src/binding.rs` draw. The rest of the two functions, which writes the document and checks
it, is a parameter.
-/
import Qid.Core.Basic
import Qid.Lib.Checked
import Qid.Lib.Text

namespace Qid.Saml

open Lib

structure SamlSubject where
  userId : String
  email : Option String := none
  displayName : Option String := none
  groups : List String := []

structure SamlAssertionRequest where
  issuer : String
  spEntityId : String
  acsUrl : String
  requestId : Option String := none
  subject : SamlSubject
  nameIdFormat : String
  issuedAt : Nat
  notOnOrAfter : Nat
  sessionIndex : Option String := none
  attributeReleasePolicy : List String := []

structure SamlIssuedResponse where
  responseId : String
  assertionId : String
  xml : String

structure LogoutParameters where
  issuer : String
  destination : String
  nameId : String
  nameIdFormat : String
  sessionIndexes : List String
  issuedAt : Nat

structure SamlIssuedLogoutRequest where
  requestId : String
  xml : String

section

variable (sha256Base64url : String → String)

def samlId (head material : String) : String := head ++ "_" ++ sha256Base64url material

def buildSamlResponse (document : SamlAssertionRequest → String → String → QidResult String)
    (req : SamlAssertionRequest) : QidResult SamlIssuedResponse := do
  ensure (req.issuedAt < req.notOnOrAfter)
    (.badRequest "SAML assertion expiry must be after issue time")
  let responseId := samlId sha256Base64url "resp" (req.issuer ++ ":" ++ toString req.issuedAt)
  let assertionId := samlId sha256Base64url "assert"
    (req.subject.userId ++ ":" ++ req.spEntityId ++ ":" ++ toString req.issuedAt)
  let xml ← document req responseId assertionId
  return { responseId := responseId, assertionId := assertionId, xml := xml }

def buildSamlLogoutRequest (document : LogoutParameters → String → QidResult String)
    (q : LogoutParameters) : QidResult SamlIssuedLogoutRequest := do
  ensure ((trim q.destination).isEmpty = false)
    (.badRequest "SAML LogoutRequest destination is required")
  ensure ((trim q.nameId).isEmpty = false) (.badRequest "SAML LogoutRequest NameID is required")
  let requestId := samlId sha256Base64url "logout_req"
    (q.issuer ++ ":" ++ q.destination ++ ":" ++ q.nameId ++ ":" ++ toString q.issuedAt)
  let xml ← document q requestId
  return { requestId := requestId, xml := xml }

end

def colons (text : String) : Nat := text.toList.count ':'

theorem joined_time_inj {a b : String} {m n : Nat}
    (h : a ++ ":" ++ toString m = b ++ ":" ++ toString n) : a = b ∧ m = n := by
  have hcolons : colons a = colons b := by
    have hcount := congrArg colons h
    simp only [colons, String.toList_append, List.count_append,
      count_toString (x := ':') rfl] at hcount ⊢
    omega
  rw [String.append_assoc, String.append_assoc] at h
  obtain ⟨hab, hmn⟩ := separated_inj rfl hcolons h
  exact ⟨hab, toString_inj hmn⟩

theorem samlId_eq_iff {sha256Base64url : String → String} (hsha : sha256Base64url.Injective)
    {head a b : String} {m n : Nat} :
    samlId sha256Base64url head (a ++ ":" ++ toString m) =
        samlId sha256Base64url head (b ++ ":" ++ toString n) ↔ a = b ∧ m = n := by
  constructor
  · intro h
    exact joined_time_inj (hsha ((String.append_right_inj _).mp h))
  · rintro ⟨rfl, rfl⟩
    rfl

/-- What identifies an assertion beside its time. -/
def SamlAssertionRequest.joined (r : SamlAssertionRequest) : String :=
  r.subject.userId ++ ":" ++ r.spEntityId

def LogoutParameters.joined (q : LogoutParameters) : String :=
  q.issuer ++ ":" ++ q.destination ++ ":" ++ q.nameId

theorem SamlAssertionRequest.joined_inj {r s : SamlAssertionRequest}
    (hcolons : colons r.subject.userId = colons s.subject.userId) (h : r.joined = s.joined) :
    r.subject.userId = s.subject.userId ∧ r.spEntityId = s.spEntityId := by
  rw [joined, joined, String.append_assoc, String.append_assoc] at h
  exact separated_inj rfl hcolons h

theorem LogoutParameters.joined_inj {q p : LogoutParameters}
    (hissuer : colons q.issuer = colons p.issuer)
    (hdestination : colons q.destination = colons p.destination) (h : q.joined = p.joined) :
    q.issuer = p.issuer ∧ q.destination = p.destination ∧ q.nameId = p.nameId := by
  simp only [joined, String.append_assoc] at h
  obtain ⟨hi, hrest⟩ := separated_inj rfl hissuer h
  exact ⟨hi, separated_inj rfl hdestination hrest⟩

/-- Two responses share no identifier exactly if their times differ, or their issuers and their
joined texts; two logout requests do not if their times or their joined texts differ. Texts with
equally many separators are equal only if their parts are. -/
theorem saml_ids_distinct {sha256Base64url : String → String} (hsha : sha256Base64url.Injective)
    (document : SamlAssertionRequest → String → String → QidResult String)
    (logout : LogoutParameters → String → QidResult String) :
    (∀ r s a b, buildSamlResponse sha256Base64url document r = .ok a →
      buildSamlResponse sha256Base64url document s = .ok b →
      (a.responseId = b.responseId ↔ r.issuer = s.issuer ∧ r.issuedAt = s.issuedAt) ∧
      (a.assertionId = b.assertionId ↔ r.joined = s.joined ∧ r.issuedAt = s.issuedAt) ∧
      (a.responseId ≠ b.responseId ∧ a.assertionId ≠ b.assertionId ↔
        r.issuedAt ≠ s.issuedAt ∨ r.issuer ≠ s.issuer ∧ r.joined ≠ s.joined) ∧
      (colons r.subject.userId = colons s.subject.userId → r.joined = s.joined →
        r.subject.userId = s.subject.userId ∧ r.spEntityId = s.spEntityId)) ∧
    ∀ q p a b, buildSamlLogoutRequest sha256Base64url logout q = .ok a →
      buildSamlLogoutRequest sha256Base64url logout p = .ok b →
      (a.requestId ≠ b.requestId ↔ q.issuedAt ≠ p.issuedAt ∨ q.joined ≠ p.joined) ∧
      (colons q.issuer = colons p.issuer → colons q.destination = colons p.destination →
        q.joined = p.joined →
        q.issuer = p.issuer ∧ q.destination = p.destination ∧ q.nameId = p.nameId) := by
  refine ⟨fun r s a b ha hb => ?_, fun q p a b ha hb => ?_⟩
  · simp only [buildSamlResponse, bind_eq_ok, pure_eq_ok] at ha hb
    obtain ⟨-, -, x, -, rfl⟩ := ha
    obtain ⟨-, -, y, -, rfl⟩ := hb
    refine ⟨samlId_eq_iff hsha, samlId_eq_iff hsha, ?_, SamlAssertionRequest.joined_inj⟩
    rw [ne_eq, samlId_eq_iff hsha, ne_eq, samlId_eq_iff hsha]
    show _ ↔ _ ∨ _ ∧ r.subject.userId ++ ":" ++ r.spEntityId ≠ _
    tauto
  · simp only [buildSamlLogoutRequest, bind_eq_ok, pure_eq_ok] at ha hb
    obtain ⟨-, -, -, -, x, -, rfl⟩ := ha
    obtain ⟨-, -, -, -, y, -, rfl⟩ := hb
    refine ⟨?_, LogoutParameters.joined_inj⟩
    rw [ne_eq, samlId_eq_iff hsha, not_and_or, or_comm]
    rfl

def sampleResponse (userId spEntityId : String) : QidResult SamlIssuedResponse :=
  buildSamlResponse id (fun _ _ _ => .ok "")
    { issuer := "idp", spEntityId := spEntityId, acsUrl := "acs", subject := { userId := userId }
      nameIdFormat := "persistent", issuedAt := 1, notOnOrAfter := 2 }

def sampleLogout (destination nameId : String) : QidResult SamlIssuedLogoutRequest :=
  buildSamlLogoutRequest id (fun _ _ => .ok "") ⟨"idp", destination, nameId, "persistent", [], 1⟩

theorem saml_ids_distinct_sample :
    (∃ a b, sampleResponse "a" "sp" = .ok a ∧ sampleResponse "b" "sp" = .ok b ∧
      a.responseId = b.responseId ∧ a.assertionId ≠ b.assertionId) ∧
    ∃ a b, sampleLogout "https://sp/slo" "u" = .ok a ∧
      sampleLogout "https://sp:8443/slo" "u" = .ok b ∧ a.requestId ≠ b.requestId := by
  obtain ⟨hresponse, hlogout⟩ :=
    saml_ids_distinct Function.injective_id (fun _ _ _ => .ok "") fun _ _ => .ok ""
  obtain ⟨hid, hassertion, -⟩ := hresponse _ _ _ _ (rfl : sampleResponse "a" "sp" = .ok _)
    (rfl : sampleResponse "b" "sp" = .ok _)
  have hrequest := hlogout _ _ _ _ (rfl : sampleLogout "https://sp/slo" "u" = .ok _)
    (rfl : sampleLogout "https://sp:8443/slo" "u" = .ok _)
  exact ⟨⟨_, _, rfl, rfl, hid.mpr ⟨rfl, rfl⟩, fun h => absurd (hassertion.mp h).1 (by decide)⟩,
    _, _, rfl, rfl, hrequest.1.mpr (Or.inr (by decide))⟩

/-- Responses for two users at one time have one identifier. So have the assertions for a user `a:b`
at `c` and a user `a` at `b:c`, and logout requests that split one text differently. -/
theorem saml_ids_collide :
    ((sampleResponse "a" "sp").map (·.responseId) = .ok "resp_idp:1" ∧
      (sampleResponse "b" "sp").map (·.responseId) = .ok "resp_idp:1") ∧
    ((sampleResponse "a:b" "c").map (·.assertionId) = .ok "assert_a:b:c:1" ∧
      (sampleResponse "a" "b:c").map (·.assertionId) = .ok "assert_a:b:c:1") ∧
    (sampleLogout "a:b" "c").map (·.requestId) = .ok "logout_req_idp:a:b:c:1" ∧
      (sampleLogout "a" "b:c").map (·.requestId) = .ok "logout_req_idp:a:b:c:1" := by
  decide +kernel

end Qid.Saml
