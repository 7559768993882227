/-
Writes of SCIM users.

A translation of `inbound/users.rs`. `Edit` is what one patch operation can do, and `Spares` what no
write does.
-/
import Qid.Scim.Write

namespace Qid.Scim

open Lib Json Storage File

def ownedExternalIdConflict (action : String) : QidError :=
  .conflict ("externalId is managed by directory sync and cannot be " ++ action ++ " via SCIM")

def replaceUserValue (existing : ScimUser) (req : CreateUser) : QidResult ScimUser := do
  ensure (existing.directoryProviderId.isNone ∨ req.externalId.all fun supplied =>
    existing.externalId = some supplied) (ownedExternalIdConflict "changed")
  let externalId :=
    if existing.directoryProviderId.isSome then existing.externalId
    else req.externalId.or existing.externalId
  validateUserComplex req.name req.emails
  validateEnterprise req.enterprise
  return {
    id := existing.id
    realmId := req.realm.getD defaultRealm
    externalId := externalId
    userName := req.userName
    nameJson := req.name.getD existing.nameJson
    emailsJson := req.emails.getD existing.emailsJson
    enterpriseJson := stripStoredEnterpriseMarker (req.enterprise.getD existing.enterpriseJson)
    directoryProviderId := existing.directoryProviderId
    deprovisionedAt := existing.deprovisionedAt
    active := req.active.getD existing.active }

def enterpriseAttribute (path : String) : Option String :=
  (stripPrefix (enterpriseUserSchema ++ ":") path).or (stripPrefix "enterprise." path)

variable (user : ScimUser)

/-- Attributes that are no object are replaced by an empty one first. -/
def applyEnterprisePatch (opName path : String) (value : Option Value) : QidResult ScimUser := do
  let attr ← okOr (enterpriseAttribute path) (unsupportedPatch opName path)
  let object := user.enterpriseJson.fieldsOrDefault
  match opName with
  | "add" | "replace" =>
    let value ← okOr value (.badRequest (attr ++ " value is required"))
    return { user with enterpriseJson := .object (Fields.insert attr value object) }
  | "remove" => return { user with enterpriseJson := .object (Fields.remove attr object) }
  | _ => .error (unsupportedPatch opName path)

variable (path : String)

/-- A path that names a schema without implemented behaviour. -/
def unsupportedUrnPath : Bool :=
  hasUrnScheme path && path != enterpriseUserSchema &&
    !startsWith (enterpriseUserSchema ++ ":") path && path != coreUserSchema &&
    !startsWith (coreUserSchema ++ ":") path

variable (value : Option Value)

def validateContainer : QidResult Unit :=
  if path = "name" then validateSome validateName value
  else if path = "emails" then validateSome validateEmails value
  else .ok ()

def validatePatchValue : QidResult Unit := do
  validateContainer path value
  ensure (unsupportedUrnPath path = false ∧
    value.all (fun v => (rejectUnsupportedUserExtensions v).isOk) = true) unsupportedSchemaError

/-- The schema of the extension, or its short name. -/
def isEnterprisePath : Bool := path == enterpriseUserSchema || path == "enterprise"

/-- `add` and `replace` of an external id: the directory's own stays. -/
def setExternalId : QidResult ScimUser := do
  let newValue ← stringValue value "externalId"
  if user.directoryProviderId.isSome then
    if user.externalId ≠ some newValue then .error (ownedExternalIdConflict "changed")
    else return user
  else return { user with externalId := some newValue }

def removeExternalId : QidResult ScimUser :=
  if user.directoryProviderId.isSome then .error (ownedExternalIdConflict "removed")
  else .ok { user with externalId := none }

def addToUser : QidResult ScimUser := do
  if path = "userName" then return { user with userName := ← stringValue value "userName" }
  else if path = "externalId" then setExternalId user value
  else if path = "active" then return { user with active := ← boolValue value "active" }
  else if path = "name" then
    return { user with nameJson := ← mergeComplexAdd user.nameJson value "name" }
  else if path = "emails" then
    return { user with emailsJson := ← mergeComplexAdd user.emailsJson value "emails" }
  else if isEnterprisePath path then
    validateEnterprise value
    return { user with enterpriseJson := ← mergeComplexAdd user.enterpriseJson value "enterprise" }
  else applyEnterprisePatch user "add" path value

def replaceInUser : QidResult ScimUser := do
  if path = "userName" then return { user with userName := ← stringValue value "userName" }
  else if path = "externalId" then setExternalId user value
  else if path = "active" then return { user with active := ← boolValue value "active" }
  else if path = "name" then return { user with nameJson := value.getD (.object []) }
  else if path = "emails" then return { user with emailsJson := value.getD (.array []) }
  else if isEnterprisePath path then
    let value := value.getD (.object [])
    validateEnterprise (some value)
    return { user with enterpriseJson := value }
  else applyEnterprisePatch user "replace" path value

def removeFromUser : QidResult ScimUser :=
  if path = "externalId" then removeExternalId user
  else if path = "active" then .ok { user with active := false }
  else if path = "name" then .ok { user with nameJson := .object [] }
  else if path = "emails" then .ok { user with emailsJson := .array [] }
  else if isEnterprisePath path then .ok { user with enterpriseJson := .object [] }
  else applyEnterprisePatch user "remove" path value

def applyUserPatch (op : PatchOperation) : QidResult ScimUser := do
  let opName := toAsciiLowercase op.op
  let path := op.path.getD ""
  validatePatchValue path op.value
  if opName = "add" then addToUser user path op.value
  else if opName = "replace" then replaceInUser user path op.value
  else if opName = "remove" then removeFromUser user path op.value
  else applyEnterprisePatch user opName path op.value

def patchUserValue (current : ScimUser) (operations : List PatchOperation) :
    QidResult ScimUser := do
  let user ← operations.foldlM applyUserPatch current
  return { user with
    deprovisionedAt := current.deprovisionedAt
    enterpriseJson := stripStoredEnterpriseMarker user.enterpriseJson }

structure Spares (u v : ScimUser) : Prop where
  id : v.id = u.id
  owner : v.directoryProviderId = u.directoryProviderId
  deprovisioned : v.deprovisionedAt = u.deprovisionedAt
  external : u.directoryProviderId.isSome = true → v.externalId = u.externalId

/-- The containers have the advertised shapes. -/
structure Shaped (u : ScimUser) : Prop where
  name : Advertised nameSubattributes u.nameJson
  emails : AdvertisedItems emailSubattributes u.emailsJson
  enterprise : IsObject u.enterpriseJson

/-- A user whose attributes are as a client may store them. -/
structure WellFormed (u : ScimUser) : Prop where
  name : Advertised nameSubattributes u.nameJson
  emails : AdvertisedItems emailSubattributes u.emailsJson
  enterprise : Unmarked u.enterpriseJson

/-- The change that one patch operation makes. -/
inductive Edit (u : ScimUser) : ScimUser → Prop
  | none : Edit u u
  | userName (name : String) : Edit u { u with userName := name }
  | active (b : Bool) : Edit u { u with active := b }
  | externalId (x : Option String) (hfree : u.directoryProviderId = .none) :
      Edit u { u with externalId := x }
  | name (v : Value)
      (hshape : Advertised nameSubattributes u.nameJson → Advertised nameSubattributes v) :
      Edit u { u with nameJson := v }
  | emails (v : Value)
      (hshape : AdvertisedItems emailSubattributes u.emailsJson →
        AdvertisedItems emailSubattributes v) :
      Edit u { u with emailsJson := v }
  | enterprise (v : Value) (hshape : IsObject u.enterpriseJson → IsObject v) :
      Edit u { u with enterpriseJson := v }

section

variable {u v w : ScimUser} {path : String} {value : Option Value} {op : PatchOperation}
  {operations : List PatchOperation}

theorem Spares.refl (u : ScimUser) : Spares u u := ⟨rfl, rfl, rfl, fun _ => rfl⟩

theorem Spares.trans (h : Spares u v) (h' : Spares v w) : Spares u w where
  id := h'.id.trans h.id
  owner := h'.owner.trans h.owner
  deprovisioned := h'.deprovisioned.trans h.deprovisioned
  external hown := (h'.external (h.owner ▸ hown)).trans (h.external hown)

theorem WellFormed.shaped (h : WellFormed u) : Shaped u := ⟨h.name, h.emails, h.enterprise.isObject⟩

theorem Edit.spares (h : Edit u v) : Spares u v := by
  cases h with
  | externalId x hfree =>
    refine ⟨rfl, rfl, rfl, fun hown => ?_⟩
    rw [hfree] at hown
    cases hown
  | none | userName _ | active _ | name _ _ | emails _ _ | enterprise _ _ =>
    exact ⟨rfl, rfl, rfl, fun _ => rfl⟩

theorem Edit.shaped (h : Edit u v) (hu : Shaped u) : Shaped v := by
  cases h with
  | name x hshape => exact ⟨hshape hu.name, hu.emails, hu.enterprise⟩
  | emails x hshape => exact ⟨hu.name, hshape hu.emails, hu.enterprise⟩
  | enterprise x hshape => exact ⟨hu.name, hu.emails, hshape hu.enterprise⟩
  | none | userName _ | active _ | externalId _ _ => exact ⟨hu.name, hu.emails, hu.enterprise⟩

theorem edit_applyEnterprisePatch {opName : String}
    (h : applyEnterprisePatch u opName path value = .ok v) : Edit u v := by
  rw [applyEnterprisePatch, bind_eq_ok] at h
  obtain ⟨attr, -, h⟩ := h
  split at h
  · rw [bind_eq_ok] at h
    obtain ⟨x, -, h⟩ := h
    cases h
    exact Edit.enterprise _ fun _ => ⟨_, rfl⟩
  · rw [bind_eq_ok] at h
    obtain ⟨x, -, h⟩ := h
    cases h
    exact Edit.enterprise _ fun _ => ⟨_, rfl⟩
  · cases h
    exact Edit.enterprise _ fun _ => ⟨_, rfl⟩
  · cases h

theorem edit_setExternalId (h : setExternalId u value = .ok v) : Edit u v := by
  rw [setExternalId, bind_eq_ok] at h
  obtain ⟨x, -, h⟩ := h
  split at h
  · split at h
    · cases h
    · cases h
      exact Edit.none
  · rename_i hfree
    cases h
    exact Edit.externalId _ (Option.not_isSome_iff_eq_none.mp hfree)

structure Validated (path : String) (value : Option Value) : Prop where
  name : path = "name" → ∀ x ∈ value, Advertised nameSubattributes x
  emails : path = "emails" → ∀ x ∈ value, AdvertisedItems emailSubattributes x

theorem of_validatePatchValue (h : validatePatchValue path value = .ok ()) :
    Validated path value := by
  rw [validatePatchValue, bind_eq_ok] at h
  obtain ⟨_, h, -⟩ := h
  rw [validateContainer] at h
  constructor
  · intro hpath x hx
    rw [if_pos hpath, hx] at h
    exact of_validateSubattributes h
  · intro hpath x hx
    rw [if_neg (by rw [hpath]; decide), if_pos hpath, hx] at h
    exact of_validateEmails h

theorem getD_of_forall {P : Value → Prop} {x : Option Value} {d : Value} (h : ∀ y ∈ x, P y)
    (hd : P d) : P (x.getD d) := by
  cases x with
  | none => exact hd
  | some y => exact h y rfl

theorem edit_addToUser (hvalid : Validated path value) (h : addToUser u path value = .ok v) :
    Edit u v := by
  rw [addToUser] at h
  split at h
  · obtain ⟨x, -, h⟩ := bind_eq_ok.mp h
    cases h
    exact Edit.userName x
  split at h
  · exact edit_setExternalId h
  split at h
  · obtain ⟨x, -, h⟩ := bind_eq_ok.mp h
    cases h
    exact Edit.active x
  split at h
  · rename_i hpath
    obtain ⟨x, hmerged, h⟩ := bind_eq_ok.mp h
    cases h
    exact Edit.name x fun hu => hu.merge (hvalid.name hpath) hmerged
  split at h
  · rename_i hpath
    obtain ⟨x, hmerged, h⟩ := bind_eq_ok.mp h
    cases h
    exact Edit.emails x fun hu => hu.merge (hvalid.emails hpath) hmerged
  split at h
  · obtain ⟨-, -, h⟩ := bind_eq_ok.mp h
    obtain ⟨x, hmerged, h⟩ := bind_eq_ok.mp h
    cases h
    exact Edit.enterprise x fun hu => hu.merge hmerged
  · exact edit_applyEnterprisePatch h

theorem edit_replaceInUser (hvalid : Validated path value)
    (h : replaceInUser u path value = .ok v) : Edit u v := by
  rw [replaceInUser] at h
  split at h
  · obtain ⟨x, -, h⟩ := bind_eq_ok.mp h
    cases h
    exact Edit.userName x
  split at h
  · exact edit_setExternalId h
  split at h
  · obtain ⟨x, -, h⟩ := bind_eq_ok.mp h
    cases h
    exact Edit.active x
  split at h
  · rename_i hpath
    cases h
    exact Edit.name _ fun _ => getD_of_forall (hvalid.name hpath) advertised_empty
  split at h
  · rename_i hpath
    cases h
    exact Edit.emails _ fun _ => getD_of_forall (hvalid.emails hpath) advertisedItems_empty
  split at h
  · obtain ⟨_, hobject, h⟩ := bind_eq_ok.mp h
    cases h
    exact Edit.enterprise _ fun _ => of_validateEnterprise hobject
  · exact edit_applyEnterprisePatch h

theorem edit_applyUserPatch (h : applyUserPatch u op = .ok v) : Edit u v := by
  obtain ⟨_, hvalid, h⟩ := bind_eq_ok.mp h
  have hvalid := of_validatePatchValue hvalid
  split at h
  · exact edit_addToUser hvalid h
  split at h
  · exact edit_replaceInUser hvalid h
  split at h
  · rw [removeFromUser] at h
    split at h
    · rw [removeExternalId] at h
      split at h
      · cases h
      · rename_i hfree
        cases h
        exact Edit.externalId _ (Option.not_isSome_iff_eq_none.mp hfree)
    split at h
    · cases h
      exact Edit.active false
    split at h
    · cases h
      exact Edit.name _ fun _ => advertised_empty
    split at h
    · cases h
      exact Edit.emails _ fun _ => advertisedItems_empty
    split at h
    · cases h
      exact Edit.enterprise _ fun _ => ⟨[], rfl⟩
    · exact edit_applyEnterprisePatch h
  · exact edit_applyEnterprisePatch h

theorem of_foldlM_applyUserPatch (h : operations.foldlM applyUserPatch u = .ok v) :
    Spares u v ∧ (Shaped u → Shaped v) := by
  induction operations generalizing u with
  | nil =>
    cases h
    exact ⟨Spares.refl _, id⟩
  | cons op operations ih =>
    obtain ⟨w, hop, h⟩ := bind_eq_ok.mp h
    have hedit := edit_applyUserPatch hop
    obtain ⟨hspares, hshaped⟩ := ih h
    exact ⟨hedit.spares.trans hspares, fun hu => hshaped (hedit.shaped hu)⟩

theorem of_patchUserValue (h : patchUserValue u operations = .ok v) :
    Spares u v ∧ (WellFormed u → WellFormed v) := by
  obtain ⟨w, hw, h⟩ := bind_eq_ok.mp h
  cases h
  obtain ⟨hspares, hshaped⟩ := of_foldlM_applyUserPatch hw
  refine ⟨⟨hspares.id, hspares.owner, rfl, hspares.external⟩, fun hu => ?_⟩
  have hw := hshaped hu.shaped
  exact ⟨hw.name, hw.emails, unmarked_strip hw.enterprise⟩

theorem of_validateRequest {name emails enterprise : Option Value}
    (h : validateUserComplex name emails = .ok ()) (h' : validateEnterprise enterprise = .ok ()) :
    (∀ x ∈ name, Advertised nameSubattributes x) ∧
      (∀ x ∈ emails, AdvertisedItems emailSubattributes x) ∧ ∀ x ∈ enterprise, IsObject x := by
  obtain ⟨_, hname, hemails⟩ := bind_eq_ok.mp h
  refine ⟨fun x hx => ?_, fun x hx => ?_, fun x hx => ?_⟩
  · rw [hx] at hname
    exact of_validateSubattributes hname
  · rw [hx] at hemails
    exact of_validateEmails hemails
  · rw [hx] at h'
    exact of_validateEnterprise h'

theorem of_replaceUserValue {req : CreateUser} (h : replaceUserValue u req = .ok v) :
    Spares u v ∧ (WellFormed u → WellFormed v) := by
  obtain ⟨-, -, h⟩ := bind_eq_ok.mp h
  obtain ⟨_, hcomplex, h⟩ := bind_eq_ok.mp h
  obtain ⟨_, henterprise, h⟩ := bind_eq_ok.mp h
  cases h
  obtain ⟨hname, hemails, hobject⟩ := of_validateRequest hcomplex henterprise
  refine ⟨⟨rfl, rfl, rfl, fun hown => if_pos hown⟩, fun hu => ⟨?_, ?_, ?_⟩⟩
  · exact getD_of_forall hname hu.name
  · exact getD_of_forall hemails hu.emails
  · exact unmarked_strip (getD_of_forall hobject hu.enterprise.isObject)

end

section

variable (C : Codec) (persist : Persist) (s : Store) (id : String) (req : CreateUser)

def newUser : ScimUser where
  id := id
  realmId := req.realm.getD defaultRealm
  externalId := req.externalId
  userName := req.userName
  nameJson := req.name.getD (.object [])
  emailsJson := req.emails.getD (.array [])
  enterpriseJson := stripStoredEnterpriseMarker (req.enterprise.getD (.object []))
  directoryProviderId := none
  deprovisionedAt := none
  active := req.active.getD true

def createUserRecord : QidResult ScimUser × Store :=
  match validateUserComplex req.name req.emails >>= fun _ => validateEnterprise req.enterprise with
  | .error e => (.error e, s)
  | .ok () =>
    let r := createScimUser persist s (newUser id req)
    (r.1.map fun _ => newUser id req, r.2)

def writeUser (expected : Option Condition) (realm : Option String)
    (transform : ScimUser → Bool → QidResult ScimUser) : WriteResult ScimUser × Store :=
  writeResource (userType C) persist s id expected realm transform

/-- A conditional PUT that names no realm is for the realm of the stored user. -/
def replaceTransform (current : ScimUser) (conditional : Bool) : QidResult ScimUser :=
  replaceUserValue current
    (if conditional then { req with realm := some (req.realm.getD current.realmId) } else req)

def replaceUserRecord (expected : Option Condition) (realm : Option String) :
    WriteResult ScimUser × Store :=
  writeUser C persist s id expected realm (replaceTransform req)

def patchUserRecord (operations : List PatchOperation) (expected : Option Condition)
    (realm : Option String) : WriteResult ScimUser × Store :=
  writeUser C persist s id expected realm fun current _ => patchUserValue current operations

def deleteUserMutation (condition : Condition) (hardDelete : Bool) (current : ScimUser) :
    QidResult (ScimMutation ScimUser) :=
  .ok (if condition.isMetBy (userType C) current then
    if hardDelete then .delete else .replace { current with active := false }
  else .reject)

/-- A hard deletion without a condition succeeds even if there was nothing to delete. -/
def deleteUserRecord (hardDelete : Bool) (expected : Option Condition) (realm : Option String) :
    WriteResult Unit × Store :=
  match expected with
  | some condition =>
    let r := mutateScimUser persist s id (deleteUserMutation C condition hardDelete)
    ((writeOutcome (userType C) true r.1).map fun _ => (), r.2)
  | none =>
    if hardDelete then
      let r := mutateScimUser persist s id (deleteMutation (userType C) realm)
      ((r.1.map fun _ => ()).mapError .other, r.2)
    else
      let r := writeUser C persist s id none realm fun user _ => .ok { user with active := false }
      (r.1.map fun _ => (), r.2)

end

variable (C : Codec) (persist : Persist) (s : Store) (context : Option String)

def createUser (ulid : String) (raw : Value) : Response ScimUser × Store :=
  match parseCreateUser C raw with
  | .error e => (.error e, s)
  | .ok req =>
    let r := createUserRecord persist s ulid { req with realm := realmOpt context req.realm }
    (WriteResult.respond 201 (r.1.mapError .other), r.2)

variable (header : IfMatch)

def replaceUser (id : String) (raw : Value) : Response ScimUser × Store :=
  onResource (userType C) s context header id fun existing expected =>
    match parseCreateUser C raw with
    | .error e => (.error e, s)
    | .ok req =>
      let r := replaceUserRecord C persist s id { req with realm := realmOpt context req.realm }
        expected (some existing.realmId)
      (WriteResult.respond 200 r.1, r.2)

def patchUser (id : String) (raw : Value) : Response ScimUser × Store :=
  match parseObject C patchOperations raw "patch request" with
  | .error e => (.error e, s)
  | .ok operations =>
    onResource (userType C) s context header id fun existing expected =>
      let r := patchUserRecord C persist s id operations expected (some existing.realmId)
      (WriteResult.respond 200 r.1, r.2)

def deleteUser (id : String) (hardDelete : Bool) : Response ScimUser × Store :=
  onResource (userType C) s context header id fun existing expected =>
    let r := deleteUserRecord C persist s id hardDelete expected (some existing.realmId)
    (match r.1 with
    | .ok () => .noContent
    | .error e => e.intoResponse, r.2)

end Qid.Scim
