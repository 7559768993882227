/-
The bodies of SCIM requests.

A translation of the payloads of `inbound/mod.rs` and `inbound/bulk.rs` and of how they are read
from JSON. A field that a payload does not have is ignored. A body is an object, but a record inside
a body may also be an array, which a derived deserializer reads by position.
-/
import Qid.Scim.Attributes

namespace Qid.Scim

open Lib Json

/-- There is no field for the owner of a user. -/
structure CreateUser where
  realm : Option String
  externalId : Option String
  userName : String
  name : Option Value
  emails : Option Value
  enterprise : Option Value
  active : Option Bool

structure CreateGroup where
  realm : Option String
  displayName : String
  members : Option Value

structure PatchOperation where
  op : String
  path : Option String
  value : Option Value

structure BulkOperation where
  method : String
  path : String
  bulkId : Option String
  data : Option Value
  version : Option String

structure BulkRequest where
  failOnErrors : Nat
  operations : List BulkOperation

def defaultBulkFailOnErrors : Nat := 1

def maxBulkOperations : Nat := 100

def defaultRealm : String := "corp"

/-- A field of type `Option<Value>`: `null` is no value. -/
def optionalValue : Option Value → Option Value
  | some .null => none
  | v => v

def optionalString : Option Value → Option (Option String)
  | none | some .null => some none
  | some (.string s) => some (some s)
  | _ => none

def optionalBool : Option Value → Option (Option Bool)
  | none | some .null => some none
  | some (.bool b) => some (some b)
  | _ => none

/-- A list that is empty if it is missing. -/
def listField {α : Type} (item : Value → Option α) : Option Value → Option (List α)
  | none => some []
  | some (.array items) => items.mapM item
  | _ => none

/-- The fields of a record: by name in an object, by position in an array. -/
def recordFields (names : List String) : Value → Option (List (Option Value))
  | .object m => some (names.map fun name => m.lookup name)
  | .array items =>
    if items.length ≤ names.length then
      some ((List.range names.length).map fun i => items[i]?)
    else none
  | _ => none

def PatchOperation.ofValue (v : Value) : Option PatchOperation := do
  let [op, path, value] ← recordFields ["op", "path", "value"] v | none
  return {
    op := ← op.bind Value.asStr
    path := ← optionalString path
    value := optionalValue value }

def BulkOperation.ofValue (v : Value) : Option BulkOperation := do
  let [method, path, bulkId, data, version] ←
    recordFields ["method", "path", "bulkId", "data", "version"] v | none
  return {
    method := ← method.bind Value.asStr
    path := ← path.bind Value.asStr
    bulkId := ← optionalString bulkId
    data := optionalValue data
    version := ← optionalString version }

variable (m : Fields)

def CreateUser.ofFields : Option CreateUser := do
  return {
    realm := ← optionalString (m.lookup "realm")
    externalId := ← optionalString (m.lookup "externalId")
    userName := ← (m.lookup "userName").bind Value.asStr
    name := optionalValue (m.lookup "name")
    emails := optionalValue (m.lookup "emails")
    enterprise := optionalValue (m.lookup enterpriseUserSchema)
    active := ← optionalBool (m.lookup "active") }

def CreateGroup.ofFields : Option CreateGroup := do
  return {
    realm := ← optionalString (m.lookup "realm")
    displayName := ← (m.lookup "displayName").bind Value.asStr
    members := optionalValue (m.lookup "members") }

def patchOperations : Option (List PatchOperation) :=
  listField PatchOperation.ofValue (m.lookup "Operations")

def BulkRequest.ofFields : Option BulkRequest := do
  let failOnErrors ← match m.lookup "failOnErrors" with
    | none => some defaultBulkFailOnErrors
    | some v => v.asU64.map UInt64.toNat
  return {
    failOnErrors := failOnErrors
    operations := ← listField BulkOperation.ofValue (m.lookup "Operations") }

section

variable (C : Codec)

def parseObject {α : Type} (ofFields : Fields → Option α) (raw : Value) (description : String) :
    QidResult α :=
  match raw with
  | .object m =>
    okOr (ofFields m) (.badRequest ("invalid " ++ description ++ " data: " ++ C.serdeError raw))
  | _ => .error (.badRequest (description ++ " must be a JSON object"))

def unsupportedSchemaError : QidError := .badRequest "unsupported SCIM schema extension"

/-- Four ASCII characters, so four bytes. -/
def hasUrnScheme (value : String) : Bool := (value.toList.take 4).map Char.toLower == "urn:".toList

def supportedSchema : Value → Bool
  | .string id => id == coreUserSchema || id == enterpriseUserSchema
  | _ => false

/-- Refuse a schema without implemented behaviour. -/
def rejectUnsupportedUserExtensions : Value → QidResult Unit
  | .object m => do
    match m.lookup "schemas" with
    | none => pure ()
    | some (.array entries) => ensure (entries.all supportedSchema = true) unsupportedSchemaError
    | some _ => .error unsupportedSchemaError
    ensure ((m.any fun f => hasUrnScheme f.1 && f.1 != enterpriseUserSchema) = false)
      unsupportedSchemaError
  | _ => .ok ()

def parseCreateUser (raw : Value) : QidResult CreateUser := do
  rejectUnsupportedUserExtensions raw
  parseObject C CreateUser.ofFields raw "user"

def parseCreateGroup (raw : Value) : QidResult CreateGroup :=
  parseObject C CreateGroup.ofFields raw "group"

end

/-- The realm of the request's context comes first. -/
def realmOpt (context realm : Option String) : Option String := context.or realm

def stringValue (value : Option Value) (field : String) : QidResult String :=
  okOr (value.bind Value.asStr) (.badRequest (field ++ " must be a string"))

def boolValue (value : Option Value) (field : String) : QidResult Bool :=
  okOr (value.bind Value.asBool) (.badRequest (field ++ " must be a boolean"))

def unsupportedPatch (op path : String) : QidError :=
  .badRequest ("unsupported SCIM PATCH operation " ++ op ++ " " ++ path)

/-- A patch operation that is given by position. -/
example : (PatchOperation.ofValue (.array [.string "add", .string "active", .bool true])).map
    (fun o => (o.op, o.path)) = some ("add", some "active") := by rfl

end Qid.Scim
