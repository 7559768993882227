/-
The attributes that SCIM clients write.

A translation of `inbound/complex.rs` with the tables of `inbound/schemas.rs` that it reads, and of
the projections and versions of `response.rs`.
-/
import Qid.Core.Fields
import Qid.Lib.Checked
import Qid.Scim.Record

namespace Qid.Scim

open Lib Json

def coreUserSchema : String := "urn:ietf:params:scim:schemas:core:2.0:User"

def coreGroupSchema : String := "urn:ietf:params:scim:schemas:core:2.0:Group"

def enterpriseUserSchema : String := "urn:ietf:params:scim:schemas:extension:enterprise:2.0:User"

inductive AttributeType where
  | string
  | boolean
  deriving DecidableEq

def AttributeType.accepts : AttributeType → Value → Bool
  | .string, .string _ | .boolean, .bool _ => true
  | _, _ => false

def AttributeType.expected : AttributeType → String
  | .string => "a string"
  | .boolean => "a boolean"

def nameSubattributes : List (String × AttributeType) :=
  [("formatted", .string), ("familyName", .string), ("givenName", .string),
    ("middleName", .string), ("honorificPrefix", .string), ("honorificSuffix", .string)]

def emailSubattributes : List (String × AttributeType) :=
  [("value", .string), ("display", .string), ("type", .string), ("primary", .boolean)]

def invalid (attr expected : String) : QidError := .badRequest (attr ++ " must be " ++ expected)

def validateSubattribute (attr : String) (table : List (String × AttributeType))
    (field : String × Value) : QidResult Unit :=
  match table.find? fun entry => entry.1 == field.1 with
  | none => .error (invalid (attr ++ "." ++ field.1) "an advertised attribute")
  | some entry =>
    ensure (entry.2.accepts field.2 = true) (invalid (attr ++ "." ++ field.1) entry.2.expected)

def validateSubattributes (attr : String) (table : List (String × AttributeType)) :
    Value → QidResult Unit
  | .object fields => forM fields (validateSubattribute attr table)
  | _ => .error (invalid attr "an object")

def validateName (value : Value) : QidResult Unit :=
  validateSubattributes "name" nameSubattributes value

def validateEmails : Value → QidResult Unit
  | .array items => forM items (validateSubattributes "emails" emailSubattributes)
  | _ => .error (invalid "emails" "an array")

def validateSome (validate : Value → QidResult Unit) : Option Value → QidResult Unit
  | some value => validate value
  | none => .ok ()

def validateUserComplex (name emails : Option Value) : QidResult Unit := do
  validateSome validateName name
  validateSome validateEmails emails

def validateEnterprise (enterprise : Option Value) : QidResult Unit :=
  validateSome (fun value => ensure (value.isObject = true) (invalid "enterprise" "an object"))
    enterprise

def validateMember (value : Value) : QidResult Unit :=
  ensure (value.isObject = true) (invalid "members" "an array of objects")

def validateMembers : Value → QidResult Unit
  | .array items => forM items validateMember
  | _ => .error (invalid "members" "an array")

def validateGroupComplex (members : Option Value) : QidResult Unit :=
  validateSome validateMembers members

def isArray : Value → Bool
  | .array _ => true
  | _ => false

/-- `add` appends to an array and extends an object. -/
def mergeComplexAdd (target : Value) (value : Option Value) (attr : String) : QidResult Value :=
  if isArray target || value.any isArray then
    match target, value with
    | .array stored, some (.array added) => .ok (.array (stored ++ added))
    | _, _ => .error (invalid attr "an array")
  else
    match value, target with
    | some (.object added), .object stored => .ok (.object (Fields.extend stored added))
    | _, _ => .error (invalid attr "an object")

/-- Remove the marker that only the directory may write. -/
def stripStoredEnterpriseMarker : Value → Value
  | .object fields => .object (Fields.remove "deprovisioned_at" fields)
  | value => value

def projectedEnterpriseJson (user : ScimUser) : Value :=
  let fields := Fields.remove "deprovisioned_at" user.enterpriseJson.fieldsOrDefault
  .object (user.deprovisionedAt.elim fields fun at_ =>
    Fields.insert "deprovisioned_at" (.u64 at_) fields)

structure Codec where
  /-- A hash of the text of a value. -/
  weakEtag : Value → String
  /-- The text of the error of `serde_json::from_value`. -/
  serdeError : Value → String

section

variable (C : Codec)

def optionToValue (text : Option String) : Value := text.elim .null .string

def scimUserVersion (user : ScimUser) : String :=
  C.weakEtag (.object
    [("active", .bool user.active), ("emails", user.emailsJson),
      ("enterprise", projectedEnterpriseJson user), ("external_id", optionToValue user.externalId),
      ("id", .string user.id), ("name", user.nameJson), ("realm_id", .string user.realmId),
      ("user_name", .string user.userName)])

def scimGroupVersion (group : ScimGroup) : String :=
  C.weakEtag (.object
    [("display_name", .string group.displayName), ("id", .string group.id),
      ("members", group.membersJson), ("realm_id", .string group.realmId)])

def resourceMeta (resourceType version : String) : Value :=
  .object [("resourceType", .string resourceType), ("version", .string version)]

def scimUser (user : ScimUser) : Value :=
  let enterprise := projectedEnterpriseJson user
  let extended := !enterprise.fieldsOrDefault.isEmpty
  let schemas := coreUserSchema :: if extended then [enterpriseUserSchema] else []
  let fields : Fields :=
    [("active", .bool user.active), ("emails", user.emailsJson), ("id", .string user.id),
      ("meta", resourceMeta "User" (scimUserVersion C user)), ("name", user.nameJson),
      ("schemas", .array (schemas.map .string)), ("userName", .string user.userName)]
  let fields := user.externalId.elim fields fun externalId =>
    Fields.insert "externalId" (.string externalId) fields
  .object (if extended then Fields.insert enterpriseUserSchema enterprise fields else fields)

def scimGroup (group : ScimGroup) : Value :=
  .object
    [("displayName", .string group.displayName), ("id", .string group.id),
      ("members", group.membersJson),
      ("meta", resourceMeta "Group" (scimGroupVersion C group)),
      ("schemas", .array [.string coreGroupSchema])]

end

variable {table : List (String × AttributeType)} {attr : String} {v : Value} {value : Option Value}
  {target : Value}

def AdvertisedFields (table : List (String × AttributeType)) (m : Fields) : Prop :=
  ∀ f ∈ m, ∃ ty, (f.1, ty) ∈ table ∧ ty.accepts f.2 = true

def Advertised (table : List (String × AttributeType)) (v : Value) : Prop :=
  ∃ m, v = .object m ∧ AdvertisedFields table m

def AdvertisedItems (table : List (String × AttributeType)) (v : Value) : Prop :=
  ∃ items, v = .array items ∧ ∀ item ∈ items, Advertised table item

/-- An object that does not carry the directory's marker. -/
def Unmarked (v : Value) : Prop := ∃ m, v = .object m ∧ ∀ f ∈ m, f.1 ≠ "deprovisioned_at"

def IsObject (v : Value) : Prop := ∃ m, v = .object m

theorem of_validateSubattributes (h : validateSubattributes attr table v = .ok ()) :
    Advertised table v := by
  cases v with
  | object m =>
    refine ⟨m, rfl, fun f hf => ?_⟩
    have h := forM_eq_ok.mp h f hf
    rw [validateSubattribute] at h
    split at h
    · cases h
    · rename_i entry hfound
      have hname : entry.1 = f.1 := beq_iff_eq.mp (List.find?_some hfound :)
      exact ⟨entry.2, hname ▸ List.mem_of_find?_eq_some hfound, ensure_eq_ok.mp h⟩
  | null | bool _ | number _ | string _ | array _ => cases h

theorem of_validateEmails (h : validateEmails v = .ok ()) :
    AdvertisedItems emailSubattributes v := by
  cases v with
  | array items =>
    exact ⟨items, rfl, fun item hitem => of_validateSubattributes (forM_eq_ok.mp h item hitem)⟩
  | null | bool _ | number _ | string _ | object _ => cases h

theorem of_validateEnterprise (h : validateEnterprise (some v) = .ok ()) : IsObject v :=
  Value.isObject_iff.mp (ensure_eq_ok.mp h)

theorem advertised_empty : Advertised table (.object []) := ⟨[], rfl, List.forall_mem_nil _⟩

theorem advertisedItems_empty : AdvertisedItems table (.array []) :=
  ⟨[], rfl, List.forall_mem_nil _⟩

theorem unmarked_strip (h : IsObject v) : Unmarked (stripStoredEnterpriseMarker v) := by
  obtain ⟨m, rfl⟩ := h
  exact ⟨_, rfl, fun f hf => (Fields.mem_remove.mp hf).2⟩

theorem Unmarked.isObject (h : Unmarked v) : IsObject v := by
  obtain ⟨m, hm, -⟩ := h
  exact ⟨m, hm⟩

theorem Advertised.merge (h : Advertised table target) (hvalue : ∀ x ∈ value, Advertised table x)
    (hmerged : mergeComplexAdd target value attr = .ok v) : Advertised table v := by
  obtain ⟨m, rfl, hm⟩ := h
  cases value with
  | none => cases hmerged
  | some w =>
    obtain ⟨added, rfl, hadded⟩ := hvalue w rfl
    cases hmerged
    refine ⟨_, rfl, fun f hf => ?_⟩
    rcases Fields.of_mem_extend hf with hf | hf
    · exact hm f hf
    · exact hadded f hf

theorem AdvertisedItems.merge (h : AdvertisedItems table target)
    (hvalue : ∀ x ∈ value, AdvertisedItems table x)
    (hmerged : mergeComplexAdd target value attr = .ok v) : AdvertisedItems table v := by
  obtain ⟨items, rfl, hitems⟩ := h
  cases value with
  | none => cases hmerged
  | some w =>
    obtain ⟨added, rfl, hadded⟩ := hvalue w rfl
    cases hmerged
    refine ⟨_, rfl, fun item hitem => ?_⟩
    rcases List.mem_append.mp hitem with hitem | hitem
    · exact hitems item hitem
    · exact hadded item hitem

theorem IsObject.merge (h : IsObject target) (hmerged : mergeComplexAdd target value attr = .ok v) :
    IsObject v := by
  obtain ⟨m, rfl⟩ := h
  cases value with
  | none => cases hmerged
  | some w =>
    cases w with
    | object added =>
      cases hmerged
      exact ⟨_, rfl⟩
    | null | bool _ | number _ | string _ | array _ => cases hmerged

end Qid.Scim
