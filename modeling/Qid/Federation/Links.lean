/-
Users and identity links of the file repository.

A translation of `CiamIdentityLink` (`qid-core/src/models/ciam.rs`), of
`validate_ciam_identity_link_state` (`qid-storage/src/domain`) and of `create_user`,
`store_ciam_identity_link` and `get_ciam_identity_link_by_external_subject` of the file repository.
A write that cannot be saved stays in memory.
-/
import Qid.Core.Fields
import Qid.File.Directory

namespace Qid.Federation

open Lib Json Storage

structure CiamIdentityLink where
  id : String
  realmId : String
  userId : String
  provider : String
  externalSubject : String
  externalEmail : Option String
  profileJson : Value
  linkedAtEpochSeconds : Nat
  verified : Bool

variable (link : CiamIdentityLink)

def CiamIdentityLink.validate : QidResult Unit := do
  requireNonEmpty "CIAM identity link id" link.id
  requireNonEmpty "CIAM identity link realm_id" link.realmId
  requireNonEmpty "CIAM identity link user_id" link.userId
  requireNonEmpty "CIAM identity link provider" link.provider
  requireNonEmpty "CIAM identity link external_subject" link.externalSubject
  ensure (link.externalEmail.all fun email => '@' ∈ email.toList ∧ trim email = email)
    (.badRequest "CIAM identity link external_email must be a normalized email")
  ensure (link.profileJson.isObject = true)
    (.badRequest "CIAM identity link profile_json must be an object")
  ensure (link.linkedAtEpochSeconds ≠ 0)
    (.badRequest "CIAM identity link linked_at_epoch_seconds must be set")

def CiamIdentityLink.SameOwner (stored link : CiamIdentityLink) : Prop :=
  stored.realmId = link.realmId ∧ stored.userId = link.userId ∧
    stored.provider = link.provider ∧ stored.externalSubject = link.externalSubject

instance (stored link : CiamIdentityLink) : Decidable (stored.SameOwner link) :=
  inferInstanceAs (Decidable (_ ∧ _ ∧ _ ∧ _))

def validateCiamIdentityLinkState : Option CiamIdentityLink → QidResult Unit
  | none => .ok ()
  | some stored => do
    ensure (stored.SameOwner link) (.conflict
      ("CIAM identity link " ++ link.id ++ " has another owner or identity key"))
    ensure (stored.verified = true → link.verified = true) (.badRequest
      ("identity link " ++ link.id ++ " cannot be reverted from verified to unverified"))

structure Store where
  users : Table Models.User (·.id)
  ciamIdentityLinks : Table CiamIdentityLink (·.id)

structure ExternalKey where
  realmId : String
  provider : String
  subject : String
  deriving DecidableEq

def CiamIdentityLink.verifies (key : ExternalKey) (link : CiamIdentityLink) : Bool :=
  link.verified && link.realmId == key.realmId && link.provider == key.provider &&
    link.externalSubject == key.subject

def CiamIdentityLink.key : ExternalKey where
  realmId := link.realmId
  provider := link.provider
  subject := link.externalSubject

def alreadyLinked : QidError := .badRequest "CIAM identity link external subject is already linked"

namespace Store

def createUser (persist : Persist) (s : Store) (user : Models.User) : QidResult Unit × Store :=
  match File.insertNew File.userIdentity s.users user with
  | .error e => (.error e, s)
  | .ok users => (persist.result, { s with users := users })

def checkLink (s : Store) (link : CiamIdentityLink) : QidResult Unit := do
  link.validate
  validateCiamIdentityLinkState link (s.ciamIdentityLinks.find link.id)
  let user ← okOr (s.users.find link.userId) (.badRequest "CIAM identity link user does not exist")
  ensure (user.realmId = link.realmId)
    (.badRequest "CIAM identity link user belongs to another realm")
  ensure (link.verified = false ∨ (s.ciamIdentityLinks.values.all fun stored =>
      stored.id == link.id || !stored.verifies link.key) = true) alreadyLinked

def storeCiamIdentityLink (persist : Persist) (s : Store) (link : CiamIdentityLink) :
    QidResult Unit × Store :=
  match s.checkLink link with
  | .error e => (.error e, s)
  | .ok _ => (persist.result, { s with ciamIdentityLinks := s.ciamIdentityLinks.put link })

def getCiamIdentityLinkByExternalSubject (s : Store) (key : ExternalKey) :
    QidResult (Option CiamIdentityLink) :=
  OAuth.Store.uniqueMatch (s.ciamIdentityLinks.values.filter fun link => link.verifies key)
    "ambiguous verified CIAM external subject"

end Store

theorem CiamIdentityLink.verifies_iff {key : ExternalKey} {link : CiamIdentityLink} :
    link.verifies key = true ↔ link.verified = true ∧ link.key = key := by
  obtain ⟨realmId, provider, subject⟩ := key
  simp only [verifies, CiamIdentityLink.key, Bool.and_eq_true, beq_iff_eq, ExternalKey.mk.injEq]
  constructor
  · rintro ⟨⟨⟨hv, hr⟩, hp⟩, hs⟩
    exact ⟨hv, hr, hp, hs⟩
  · rintro ⟨hv, hr, hp, hs⟩
    exact ⟨⟨⟨hv, hr⟩, hp⟩, hs⟩

variable {s : Store} {persist : Persist} {link : CiamIdentityLink} {key : ExternalKey}

theorem createUser_cases (persist : Persist) (s : Store) (user : Models.User) :
    (∃ e, s.createUser persist user = (.error e, s)) ∨
    s.users.find user.id = none ∧ s.createUser persist user =
      (persist.result, { s with users := s.users.put user }) := by
  cases hinsert : File.insertNew File.userIdentity s.users user with
  | error e => exact Or.inl ⟨e, by rw [Store.createUser, hinsert]⟩
  | ok =>
    obtain ⟨rfl, hnew, -⟩ := File.of_insertNew hinsert
    exact Or.inr ⟨hnew, by rw [Store.createUser, hinsert]⟩

structure Linkable (s : Store) (link : CiamIdentityLink) : Prop where
  valid : link.validate = .ok ()
  state : ∀ stored, s.ciamIdentityLinks.find link.id = some stored →
    stored.SameOwner link ∧ (stored.verified = true → link.verified = true)
  user : ∃ user, s.users.find link.userId = some user ∧ user.realmId = link.realmId
  alone : link.verified = true → ∀ stored, s.ciamIdentityLinks.find stored.id = some stored →
    stored.verifies link.key = true → stored.id = link.id

theorem checkLink_eq_ok : s.checkLink link = .ok () ↔ Linkable s link := by
  simp only [Store.checkLink, bind_eq_ok, ensure_eq_ok, okOr_eq_ok]
  constructor
  · rintro ⟨_, hvalid, _, hstate, user, huser, -, hrealm, halone⟩
    refine ⟨hvalid, fun stored hstored => ?_, ⟨user, huser, hrealm⟩,
      fun hverified stored hstored hfor => ?_⟩
    · rw [hstored] at hstate
      simp only [validateCiamIdentityLinkState, bind_eq_ok, ensure_eq_ok] at hstate
      obtain ⟨-, howner, hkeeps⟩ := hstate
      exact ⟨howner, hkeeps⟩
    · rcases halone with hunverified | hall
      · rw [hverified] at hunverified
        cases hunverified
      · have hentry := List.all_eq_true.mp hall stored (Table.mem_values.mpr hstored)
        rw [hfor, Bool.not_true, Bool.or_false] at hentry
        exact eq_of_beq hentry
  · intro h
    obtain ⟨user, huser, hrealm⟩ := h.user
    refine ⟨(), h.valid, (), ?_, user, huser, (), hrealm, ?_⟩
    · cases hstored : s.ciamIdentityLinks.find link.id with
      | none => rfl
      | some stored =>
        obtain ⟨howner, hkeeps⟩ := h.state stored hstored
        simp only [validateCiamIdentityLinkState, bind_eq_ok, ensure_eq_ok]
        exact ⟨(), howner, hkeeps⟩
    · cases hverified : link.verified with
      | false => exact Or.inl rfl
      | true =>
        refine Or.inr (List.all_eq_true.mpr fun stored hstored => ?_)
        cases hfor : stored.verifies link.key with
        | false => rw [Bool.not_false, Bool.or_true]
        | true =>
          rw [h.alone hverified stored (Table.mem_values.mp hstored) hfor, beq_self_eq_true,
            Bool.true_or]

theorem storeCiamIdentityLink_cases (persist : Persist) (s : Store) (link : CiamIdentityLink) :
    (∃ e, s.checkLink link = .error e ∧ s.storeCiamIdentityLink persist link = (.error e, s)) ∨
    Linkable s link ∧ s.storeCiamIdentityLink persist link =
      (persist.result, { s with ciamIdentityLinks := s.ciamIdentityLinks.put link }) := by
  cases hcheck : s.checkLink link with
  | error e => exact Or.inl ⟨e, rfl, by rw [Store.storeCiamIdentityLink, hcheck]⟩
  | ok => exact Or.inr ⟨checkLink_eq_ok.mp hcheck, by rw [Store.storeCiamIdentityLink, hcheck]⟩

structure SoleLink (s : Store) (key : ExternalKey) (link : CiamIdentityLink) : Prop where
  stored : s.ciamIdentityLinks.find link.id = some link
  verifies : link.verifies key = true
  sole : ∀ other, s.ciamIdentityLinks.find other.id = some other → other.verifies key = true →
    other = link

theorem SoleLink.filter (h : SoleLink s key link) :
    (s.ciamIdentityLinks.values.filter fun link => link.verifies key) = [link] :=
  Table.filter_values_eq_singleton h.stored h.verifies h.sole

theorem soleLink_of_lookup (h : s.getCiamIdentityLinkByExternalSubject key = .ok (some link)) :
    SoleLink s key link := by
  obtain ⟨hstored, hverifies, hsole⟩ := OAuth.Store.of_uniqueMatch h
  exact ⟨hstored, hverifies, hsole⟩

theorem soleLink_put (h : Linkable s link) (hverifies : link.verifies key = true) :
    SoleLink { s with ciamIdentityLinks := s.ciamIdentityLinks.put link } key link := by
  obtain ⟨hverified, rfl⟩ := CiamIdentityLink.verifies_iff.mp hverifies
  refine ⟨Table.find_put_self _ _, hverifies, fun other hother hfor => ?_⟩
  by_cases hid : other.id = link.id
  · rw [hid, Table.find_put_self, Option.some.injEq] at hother
    exact hother.symm
  · rw [Table.find_put_of_ne _ hid] at hother
    exact absurd (h.alone hverified other hother hfor) hid

theorem SoleLink.of_linkable {other : CiamIdentityLink} (h : SoleLink s key link)
    (hother : Linkable s other) (hverifies : other.verifies key = true) :
    other.id = link.id ∧ other.userId = link.userId := by
  obtain ⟨hverified, rfl⟩ := CiamIdentityLink.verifies_iff.mp hverifies
  have hid : link.id = other.id := hother.alone hverified link h.stored h.verifies
  have hstored : s.ciamIdentityLinks.find other.id = some link := by rw [← hid, h.stored]
  exact ⟨hid.symm, (hother.state link hstored).1.2.1.symm⟩

end Qid.Federation
