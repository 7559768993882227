/-
Bulk requests.

A translation of `inbound/bulk.rs`. The `i`-th operation has the `i`-th environment.
-/
import Qid.Scim.Groups
import Qid.Scim.Users

namespace Qid.Scim

open Lib Json Storage File

/-- The ULID of a new resource and how the store is saved. -/
structure Env where
  ulid : String
  persist : Persist

def bulkError (bulkId : Option String) (status detail : String) : Value :=
  let item : Fields :=
    [("response", .object
        [("detail", .string detail),
          ("schemas", .array [.string "urn:ietf:params:scim:api:messages:2.0:Error"]),
          ("status", .string status)]),
      ("status", .string status)]
  .object (bulkId.elim item fun bulkId => Fields.insert "bulkId" (.string bulkId) item)

def bulkSuccess (method : String) (bulkId : Option String) (status : String)
    (location : Option String) (response : Option Value) : Value :=
  let item : Fields := [("method", .string method), ("status", .string status)]
  let item := bulkId.elim item fun bulkId => Fields.insert "bulkId" (.string bulkId) item
  let item := location.elim item fun location => Fields.insert "location" (.string location) item
  .object (response.elim item fun response => Fields.insert "response" response item)

def itemStatus (item : Value) : String := ((item.get "status").bind Value.asStr).getD ""

def itemSucceeded (item : Value) : Bool := startsWith "2" (itemStatus item)

/-- The path below the base, and the query. -/
def normalizeBulkPath (path : String) : String × Option String :=
  let path := (stripPrefix "/scim/v2" path).getD path
  match splitOnce '?' path with
  | some (path, query) => (path, some query)
  | none => (path, none)

/-- `check_user_preconditions` and `check_group_preconditions`. -/
def checkPreconditions {V : Type} (R : ResourceType V) (s : Store) (id : String)
    (context version : Option String) : Except (Nat × String) (Option Condition) :=
  if context.isNone && version.isNone then .ok none
  else
    match R.find s id with
    | none => .error (404, R.resource ++ " not found")
    | some v =>
      if context.any (R.realmOf v != ·) then .error (404, R.resource ++ " not found")
      else
        match version with
        | none => .ok none
        | some version =>
          match checkResourceVersion version (R.versionOf v) with
          | .error detail => .error (412, detail)
          | .ok () => .ok (some ⟨R.realmOf v, version⟩)

section

variable (C : Codec) (context : Option String) (env : Env) (s : Store) (op : BulkOperation)

def refusedItem (e : WriteError) : Value := bulkError op.bulkId (toString e.statusCode) e.message

def resourceItem {V : Type} (op : BulkOperation) (status location : String) (idOf : V → String)
    (render : V → Value) : WriteResult V → Value
  | .ok v =>
    bulkSuccess (toAsciiUppercase op.method) op.bulkId status (some (location ++ idOf v))
      (some (render v))
  | .error e => refusedItem op e

def userItem (status : String) (r : WriteResult ScimUser) : Value :=
  resourceItem op status "/scim/v2/Users/" (·.id) (scimUser C) r

def groupItem (status : String) (r : WriteResult ScimGroup) : Value :=
  resourceItem op status "/scim/v2/Groups/" (·.id) (scimGroup C) r

def deletedItem : WriteResult Unit → Value
  | .ok () => bulkSuccess (toAsciiUppercase op.method) op.bulkId "204" none none
  | .error e => refusedItem op e

def withPreconditions {V : Type} (R : ResourceType V) (op : BulkOperation) (id : String)
    (go : Option Condition → Value × Store) : Value × Store :=
  match checkPreconditions R s id context op.version with
  | .error (status, detail) => (bulkError op.bulkId (toString status) detail, s)
  | .ok expected => go expected

def withData (go : Value → Value × Store) : Value × Store :=
  match op.data with
  | none => (bulkError op.bulkId "400" "data required", s)
  | some data => go data

def withBody {α : Type} (op : BulkOperation) (body : QidResult α) (go : α → Value × Store) :
    Value × Store :=
  match body with
  | .error e => (refusedItem op (.other e), s)
  | .ok req => go req

def bulkCreateUser : Value × Store :=
  withData s op fun data =>
    withBody s op (parseCreateUser C data) fun req =>
      let r := createUserRecord env.persist s env.ulid { req with realm := context.or req.realm }
      (userItem C op "201" (r.1.mapError .other), r.2)

variable (id : String)

def bulkReplaceUser : Value × Store :=
  withData s op fun data =>
    withPreconditions context s (userType C) op id fun expected =>
      withBody s op (parseCreateUser C data) fun req =>
        let r := replaceUserRecord C env.persist s id { req with realm := context.or req.realm }
          expected context
        (userItem C op "200" r.1, r.2)

def bulkPatchUser : Value × Store :=
  withPreconditions context s (userType C) op id fun expected =>
    withData s op fun data =>
      withBody s op (parseObject C patchOperations data "user patch") fun operations =>
        let r := patchUserRecord C env.persist s id operations expected context
        (userItem C op "200" r.1, r.2)

def bulkDeleteUser (query : Option String) : Value × Store :=
  withPreconditions context s (userType C) op id fun expected =>
    let r := deleteUserRecord C env.persist s id (query == some "hard_delete=true") expected context
    (deletedItem op r.1, r.2)

def bulkCreateGroup : Value × Store :=
  withData s op fun data =>
    withBody s op (parseCreateGroup C data) fun req =>
      let r := createGroupRecord env.persist s env.ulid { req with realm := context.or req.realm }
      (groupItem C op "201" (r.1.mapError .other), r.2)

/-- Unlike for a user, the preconditions come before the data. -/
def bulkReplaceGroup : Value × Store :=
  withPreconditions context s (groupType C) op id fun expected =>
    withData s op fun data =>
      withBody s op (parseCreateGroup C data) fun req =>
        let r := replaceGroupRecord C env.persist s id { req with realm := context.or req.realm }
          expected context
        (groupItem C op "200" r.1, r.2)

def bulkPatchGroup : Value × Store :=
  withPreconditions context s (groupType C) op id fun expected =>
    withData s op fun data =>
      withBody s op (parseObject C patchOperations data "group patch") fun operations =>
        let r := patchGroupRecord C env.persist s id operations expected context
        (groupItem C op "200" r.1, r.2)

def bulkDeleteGroup : Value × Store :=
  withPreconditions context s (groupType C) op id fun expected =>
    let r := deleteGroupRecord C env.persist s id expected context
    (deletedItem op r.1, r.2)

def isUsersPath (path : String) : Bool := path == "/Users" || path == "Users"

def isGroupsPath (path : String) : Bool := path == "/Groups" || path == "Groups"

def applyBulkOperation : Value × Store :=
  let method := toAsciiUppercase op.method
  let path := (normalizeBulkPath op.path).1
  let query := (normalizeBulkPath op.path).2
  let userId := trimStartMatches "/Users/" path
  let groupId := trimStartMatches "/Groups/" path
  if method = "POST" ∧ (isUsersPath path || isGroupsPath path) ∧ op.version.isSome then
    (bulkError op.bulkId "400" "version is not applicable to create operations", s)
  else if method = "POST" ∧ isUsersPath path then bulkCreateUser C context env s op
  else if method = "PUT" ∧ startsWith "/Users/" path then
    bulkReplaceUser C context env s op userId
  else if method = "PATCH" ∧ startsWith "/Users/" path then
    bulkPatchUser C context env s op userId
  else if method = "POST" ∧ isGroupsPath path then bulkCreateGroup C context env s op
  else if method = "PUT" ∧ startsWith "/Groups/" path then
    bulkReplaceGroup C context env s op groupId
  else if method = "PATCH" ∧ startsWith "/Groups/" path then
    bulkPatchGroup C context env s op groupId
  else if method = "DELETE" ∧ startsWith "/Users/" path then
    bulkDeleteUser C context env s op userId query
  else if method = "DELETE" ∧ startsWith "/Groups/" path then
    bulkDeleteGroup C context env s op groupId
  else (bulkError op.bulkId "400" "unsupported bulk operation", s)

end

variable (C : Codec) (context : Option String) (env : Nat → Env)

/-- The items so far, the failures among them, and the store. -/
def bulkLoop (failOnErrors : Nat) (items : List Value) (failures : Nat) (s : Store) :
    List BulkOperation → List Value × Store
  | [] => (items, s)
  | op :: operations =>
    let r := applyBulkOperation C context (env items.length) s op
    let failures := if itemSucceeded r.1 then failures else failures + 1
    if 0 < failOnErrors ∧ failOnErrors ≤ failures then (items ++ [r.1], r.2)
    else bulkLoop failOnErrors (items ++ [r.1]) failures r.2 operations

def bulk (s : Store) (raw : Value) : QidResult (List Value) × Store :=
  match parseObject C BulkRequest.ofFields raw "bulk request" with
  | .error e => (.error e, s)
  | .ok req =>
    if maxBulkOperations < req.operations.length then
      (.error (.badRequest ("SCIM Bulk supports at most " ++ toString maxBulkOperations ++
        " operations")), s)
    else
      let r := bulkLoop C context env req.failOnErrors [] 0 s req.operations
      (.ok r.1, r.2)

def failedItems (items : List Value) : Nat := items.countP fun item => !itemSucceeded item

theorem failedItems_append (items : List Value) (item : Value) :
    failedItems (items ++ [item]) =
      if itemSucceeded item then failedItems items else failedItems items + 1 := by
  cases h : itemSucceeded item <;> simp [failedItems, h]

/-- A limit on the failures cuts a request off at the operation that reaches it, and changes
nothing before. -/
theorem bulk_cut_at_limit (s : Store) (operations : List BulkOperation) (limit : Nat) :
    let r := bulkLoop C context env limit [] 0 s operations
    r = bulkLoop C context env 0 [] 0 s (operations.take r.1.length) ∧
    (0 < limit → failedItems r.1.dropLast < limit) ∧
    (r.1.length < operations.length → failedItems r.1 = limit) := by
  suffices h : ∀ items, (0 < limit → failedItems items < limit) →
      let r := bulkLoop C context env limit items (failedItems items) s operations
      ∃ k, r.1.length = items.length + k ∧
        r = bulkLoop C context env 0 items (failedItems items) s (operations.take k) ∧
        (0 < limit → failedItems r.1.dropLast < limit) ∧
        (k < operations.length → failedItems r.1 = limit) by
    obtain ⟨k, hlength, hr⟩ := h [] id
    rw [List.length_nil, Nat.zero_add] at hlength
    rw [← hlength] at hr
    exact hr
  induction operations generalizing s with
  | nil =>
    refine fun items hbelow => ⟨0, rfl, rfl, fun hlimit => ?_, nofun⟩
    exact Nat.lt_of_le_of_lt (List.dropLast_sublist _).countP_le (hbelow hlimit)
  | cons op operations ih =>
    intro items hbelow
    simp only [bulkLoop]
    generalize hop : applyBulkOperation C context (env items.length) s op = applied
    have hfailed := failedItems_append items applied.1
    rw [← hfailed]
    split
    · rename_i hcut
      have hreached : failedItems (items ++ [applied.1]) = limit := by
        have := hbelow hcut.1
        split at hfailed <;> omega
      refine ⟨1, List.length_append, ?_, ?_, fun _ => hreached⟩
      · simp [bulkLoop, hop]
      · rwa [List.dropLast_concat]
    · rename_i hgo
      obtain ⟨k, hlength, hloop, hlast, hcut⟩ := ih applied.2 (items ++ [applied.1]) (by omega)
      refine ⟨k + 1, ?_, ?_, hlast, fun hk => hcut (Nat.lt_of_succ_lt_succ hk)⟩
      · rw [hlength, List.length_append, List.length_singleton, Nat.add_right_comm, Nat.add_assoc]
      · rw [hloop, List.take_succ_cons, bulkLoop, hop, ← hfailed]
        simp

end Qid.Scim
