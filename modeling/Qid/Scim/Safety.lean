/-
What SCIM clients cannot write.

A user after a request is a user from before with everything that the server owns unchanged, or it
is new. A PUT or PATCH of which any part is refused changes nothing: its operations transform a
copy.
-/
import Qid.Scim.Bulk

namespace Qid.Scim

open Lib Json Storage File

variable {transform : ScimUser → Bool → QidResult ScimUser} {header : IfMatch} {id : String}
  {V : Type}

inductive Request where
  | createUser (raw : Value)
  | replaceUser (header : IfMatch) (id : String) (raw : Value)
  | patchUser (header : IfMatch) (id : String) (raw : Value)
  | deleteUser (header : IfMatch) (id : String) (hardDelete : Bool)
  | createGroup (raw : Value)
  | replaceGroup (header : IfMatch) (id : String) (raw : Value)
  | patchGroup (header : IfMatch) (id : String) (raw : Value)
  | deleteGroup (header : IfMatch) (id : String)
  | bulk (raw : Value)

/-- The realm of the client, if it is bound to one. A request that is not a bulk request has the
first environment. -/
structure Call where
  context : Option String
  env : Nat → Env
  request : Request

inductive Answer where
  | user (response : Response ScimUser)
  | group (response : Response ScimGroup)
  | bulk (items : QidResult (List Value))

def step (C : Codec) (s : Store) (c : Call) : Answer × Store :=
  let env := c.env 0
  match c.request with
  | .createUser raw =>
    let r := createUser C env.persist s c.context env.ulid raw
    (.user r.1, r.2)
  | .replaceUser header id raw =>
    let r := replaceUser C env.persist s c.context header id raw
    (.user r.1, r.2)
  | .patchUser header id raw =>
    let r := patchUser C env.persist s c.context header id raw
    (.user r.1, r.2)
  | .deleteUser header id hardDelete =>
    let r := deleteUser C env.persist s c.context header id hardDelete
    (.user r.1, r.2)
  | .createGroup raw =>
    let r := createGroup C env.persist s c.context env.ulid raw
    (.group r.1, r.2)
  | .replaceGroup header id raw =>
    let r := replaceGroup C env.persist s c.context header id raw
    (.group r.1, r.2)
  | .patchGroup header id raw =>
    let r := patchGroup C env.persist s c.context header id raw
    (.group r.1, r.2)
  | .deleteGroup header id =>
    let r := deleteGroup C env.persist s c.context header id
    (.group r.1, r.2)
  | .bulk raw =>
    let r := bulk C c.context c.env s raw
    (.bulk r.1, r.2)

/-! ## Users before and after -/

/-- A user that is stored stays what it is for the server. -/
structure Kept (u v : ScimUser) : Prop extends Spares u v where
  realm : v.realmId = u.realmId
  wellFormed : WellFormed u → WellFormed v

def Written (new : String → Prop) (s t : Store) : Prop :=
  ∀ id v, t.scimUsers.find id = some v →
    (∃ u, s.scimUsers.find id = some u ∧ Kept u v) ∨ new id ∧ WellFormed v

variable {new : String → Prop} {s t : Store}

section

variable {new' : String → Prop} {r : Store} {u v w : ScimUser}

theorem Kept.refl (u : ScimUser) : Kept u u := ⟨Spares.refl u, rfl, id⟩

theorem Kept.trans (h : Kept u v) (h' : Kept v w) : Kept u w :=
  ⟨h.toSpares.trans h'.toSpares, h'.realm.trans h.realm, fun hu => h'.wellFormed (h.wellFormed hu)⟩

theorem Written.of_users_eq (h : t.scimUsers = s.scimUsers) : Written new s t :=
  fun _ v hv => Or.inl ⟨v, h ▸ hv, Kept.refl v⟩

theorem Written.refl (s : Store) : Written new s s := Written.of_users_eq rfl

theorem Written.mono (h : Written new s t) (hnew : ∀ id, new id → new' id) : Written new' s t :=
  fun id v hv => (h id v hv).imp_right fun hn => ⟨hnew id hn.1, hn.2⟩

theorem Written.trans (h : Written new s t) (h' : Written new t r) : Written new s r := by
  intro id w hw
  rcases h' id w hw with ⟨v, hv, hkept⟩ | hnew
  · rcases h id v hv with ⟨u, hu, hkept'⟩ | ⟨hnew, hwell⟩
    · exact Or.inl ⟨u, hu, hkept'.trans hkept⟩
    · exact Or.inr ⟨hnew, hkept.wellFormed hwell⟩
  · exact Or.inr hnew

end

variable {C : Codec} {persist : Persist} {expected : Option Condition} {realm : Option String}

theorem written_mutateScimUser {mutation : ScimUser → QidResult (ScimMutation ScimUser)}
    (h : ∀ u v, mutation u = .ok (.replace v) → Spares u v ∧ (WellFormed u → WellFormed v)) :
    Written new s (mutateScimUser persist s id mutation).2 := by
  rw [mutateScimUser]
  split
  · exact Written.refl s
  · exact Written.refl s
  · rename_i v users hmutated
    obtain ⟨u, hu, ⟨hreplace, hid, hrealm, -, rfl⟩ | ⟨-, -, rfl⟩⟩ := of_mutateResource hmutated
    · obtain ⟨hspares, hwell⟩ := h u v hreplace
      intro k w hw
      rw [Table.find_put] at hw
      split at hw
      · rename_i hk
        cases hw
        refine Or.inl ⟨u, ?_, hspares, Option.some.inj hrealm, hwell⟩
        rw [hk, hid]
        exact Table.find_key hu
      · exact Or.inl ⟨w, hw, Kept.refl w⟩
    · intro k w hw
      rw [Table.find_erase] at hw
      split at hw
      · cases hw
      · exact Or.inl ⟨w, hw, Kept.refl w⟩

theorem written_writeUser
    (h : ∀ u b v, transform u b = .ok v → Spares u v ∧ (WellFormed u → WellFormed v)) :
    Written new s (writeUser C persist s id expected realm transform).2 := by
  refine written_mutateScimUser fun u v hreplace => ?_
  obtain hreject | ⟨w, hw, hv⟩ := of_writeMutation hreplace
  · cases hreject
  · cases hv
    exact h u _ v hw

theorem of_deactivated (u : ScimUser) :
    Spares u { u with active := false } ∧ (WellFormed u → WellFormed { u with active := false }) :=
  ⟨(Edit.active false).spares, fun h => ⟨h.name, h.emails, h.enterprise⟩⟩

theorem written_deleteUserRecord (hardDelete : Bool) :
    Written new s (deleteUserRecord C persist s id hardDelete expected realm).2 := by
  cases expected with
  | some =>
    refine written_mutateScimUser fun u v hreplace => ?_
    rw [deleteUserMutation] at hreplace
    split at hreplace
    · cases hardDelete with
      | true => cases hreplace
      | false =>
        cases hreplace
        exact of_deactivated u
    · cases hreplace
  | none =>
    cases hardDelete with
    | true =>
      refine written_mutateScimUser fun u v hreplace => ?_
      rw [deleteMutation] at hreplace
      split at hreplace <;> cases hreplace
    | false =>
      refine written_writeUser fun u _ v h => ?_
      cases h
      exact of_deactivated u

theorem written_createUserRecord (req : CreateUser) :
    Written (· = id) s (createUserRecord persist s id req).2 := by
  rw [createUserRecord]
  split
  · exact Written.refl s
  · rename_i hvalid
    obtain ⟨_, hcomplex, henterprise⟩ := bind_eq_ok.mp hvalid
    rw [createScimUser]
    split
    · exact Written.refl s
    · rename_i users hinserted
      obtain ⟨rfl, -, -⟩ := of_insertNew hinserted
      intro k v hv
      rw [Table.find_put] at hv
      split at hv
      · rename_i hk
        cases hv
        obtain ⟨hname, hemails, hobject⟩ := of_validateRequest hcomplex henterprise
        exact Or.inr ⟨hk, getD_of_forall hname advertised_empty,
          getD_of_forall hemails advertisedItems_empty,
          unmarked_strip (getD_of_forall hobject ⟨[], rfl⟩)⟩
      · exact Or.inl ⟨v, hv, Kept.refl v⟩

variable {context : Option String}

section

variable {r : WriteResult ScimUser × Store}

/-- A write that does not go through leaves the store as it is, whatever saving does. -/
theorem writeUser_refused (h : ∀ v, (writeUser C .done s id expected realm transform).1 ≠ .ok v) :
    (writeUser C persist s id expected realm transform).2 = s := by
  simp only [writeUser, writeResource] at h ⊢
  rw [show (userType C).mutate = mutateScimUser from rfl] at h ⊢
  simp only [mutateScimUser] at h ⊢
  split
  · rfl
  · rfl
  · rename_i v users hmutated
    rw [hmutated] at h
    exact absurd rfl (h v)

theorem of_writeUser_ok {v : ScimUser}
    (h : (writeUser C persist s id expected realm transform).1 = .ok v) :
    ∃ u, s.scimUsers.find id = some u ∧ transform u expected.isSome = .ok v := by
  change writeOutcome (userType C) expected.isSome (mutateScimUser persist s id _).1 = .ok v at h
  rw [mutateScimUser] at h
  split at h
  · cases h
  · cases h
  · rename_i w users hmutated
    have hv : w = v := by
      cases hsaved : persist.result with
      | error =>
        rw [hsaved] at h
        cases h
      | ok =>
        rw [hsaved] at h
        cases h
        rfl
    obtain ⟨u, hu, ⟨hwrite, -⟩ | ⟨hwrite, -⟩⟩ := of_mutateResource hmutated
    all_goals obtain hreject | ⟨x, hx, hm⟩ := of_writeMutation hwrite
    · cases hreject
    · cases hm
      exact ⟨u, hu, hv ▸ hx⟩
    · cases hreject
    · cases hm

theorem respond_refused {status : Nat} (h : (WriteResult.respond status r.1).succeeded = false)
    (hrefused : (∀ v, r.1 ≠ .ok v) → t = s) : t = s := by
  refine hrefused fun v hv => ?_
  rw [hv] at h
  cases h

theorem onResource_refused {R : ResourceType V}
    {write write' : V → Option Condition → Response V × Store}
    (h : (onResource R s context header id write).1.succeeded = false)
    (hwrite : ∀ existing expected, (write existing expected).1.succeeded = false →
      (write' existing expected).2 = s) : (onResource R s context header id write').2 = s := by
  rw [onResource] at h ⊢
  cases hread : checkedResource R (R.find s id) context header with
  | error => rfl
  | ok =>
    rw [hread] at h
    exact hwrite _ _ h

theorem itemStatus_bulkSuccess (method status : String) (bulkId location : Option String)
    (response : Option Value) :
    itemStatus (bulkSuccess method bulkId status location response) = status := by
  have hget : (bulkSuccess method bulkId status location response).get "status" =
      some (.string status) := by
    cases bulkId <;> cases location <;> cases response <;>
      simp [bulkSuccess, Value.get, Fields.lookup_insert, Fields.lookup_cons]
  rw [itemStatus, hget]
  rfl

theorem userItem_refused {op : BulkOperation} (h : itemSucceeded (userItem C op "200" r.1) = false)
    (hrefused : (∀ v, r.1 ≠ .ok v) → t = s) : t.scimUsers = s.scimUsers := by
  refine congrArg Store.scimUsers (hrefused fun v hv => ?_)
  rw [hv, itemSucceeded, userItem, resourceItem, itemStatus_bulkSuccess] at h
  exact absurd h (by decide)

end

/-! ## Operations of a bulk request -/

section

variable {ulid : String} {op : BulkOperation} {f g : Persist → Value × Store}

structure Operated (ulid : String) (s : Store) (op : BulkOperation)
    (f : Persist → Value × Store) : Prop where
  written : ∀ persist, Written (· = ulid) s (f persist).2
  refused : toAsciiUppercase op.method = "PUT" ∨ toAsciiUppercase op.method = "PATCH" →
    itemSucceeded (f .done).1 = false → ∀ persist, (f persist).2.scimUsers = s.scimUsers

theorem Operated.of_users_eq (h : ∀ persist, (f persist).2.scimUsers = s.scimUsers) :
    Operated ulid s op f :=
  ⟨fun persist => Written.of_users_eq (h persist), fun _ _ => h⟩

theorem Operated.ite {c : Prop} [Decidable c] (hf : c → Operated ulid s op f)
    (hg : Operated ulid s op g) :
    Operated ulid s op fun persist => if c then f persist else g persist := by
  by_cases h : c
  · simpa only [if_pos h] using hf h
  · simpa only [if_neg h] using hg

theorem operated_withPreconditions {R : ResourceType V}
    {go : Persist → Option Condition → Value × Store}
    (hgo : ∀ expected, Operated ulid s op (go · expected)) :
    Operated ulid s op fun persist => withPreconditions context s R op id (go persist) := by
  simp only [withPreconditions]
  cases checkPreconditions R s id context op.version with
  | error => exact .of_users_eq fun _ => rfl
  | ok => exact hgo _

theorem operated_withData {go : Persist → Value → Value × Store}
    (hgo : ∀ data, Operated ulid s op (go · data)) :
    Operated ulid s op fun persist => withData s op (go persist) := by
  simp only [withData]
  cases op.data with
  | none => exact .of_users_eq fun _ => rfl
  | some => exact hgo _

theorem operated_withBody {α : Type} {body : QidResult α} {go : Persist → α → Value × Store}
    (hgo : ∀ req, Operated ulid s op (go · req)) :
    Operated ulid s op fun persist => withBody s op body (go persist) := by
  cases body with
  | error => exact .of_users_eq fun _ => rfl
  | ok => exact hgo _

theorem operated_applyBulkOperation :
    Operated ulid s op fun persist => applyBulkOperation C context ⟨ulid, persist⟩ s op := by
  refine .ite (fun _ => .of_users_eq fun _ => rfl) ?_
  refine .ite (fun h => operated_withData fun _ => operated_withBody fun _ =>
    ⟨fun _ => written_createUserRecord _, fun hmethod => ?_⟩) ?_
  · exact absurd hmethod (by rw [h.1]; decide)
  refine .ite (fun _ => operated_withData fun _ => operated_withPreconditions fun _ =>
    operated_withBody fun _ =>
      ⟨fun _ => written_writeUser fun _ _ _ => of_replaceUserValue, fun _ h _ => ?_⟩) ?_
  · exact userItem_refused h writeUser_refused
  refine .ite (fun _ => operated_withPreconditions fun _ => operated_withData fun _ =>
    operated_withBody fun _ =>
      ⟨fun _ => written_writeUser fun _ _ _ => of_patchUserValue, fun _ h _ => ?_⟩) ?_
  · exact userItem_refused h writeUser_refused
  refine .ite (fun _ => operated_withData fun _ => operated_withBody fun _ =>
    .of_users_eq fun _ => createGroupRecord_users _ _) ?_
  refine .ite (fun _ => operated_withPreconditions fun _ => operated_withData fun _ =>
    operated_withBody fun _ => .of_users_eq fun _ => mutateScimGroup_users _) ?_
  refine .ite (fun _ => operated_withPreconditions fun _ => operated_withData fun _ =>
    operated_withBody fun _ => .of_users_eq fun _ => mutateScimGroup_users _) ?_
  refine .ite (fun h => operated_withPreconditions fun _ =>
    ⟨fun _ => written_deleteUserRecord _, fun hmethod => ?_⟩) ?_
  · exact absurd hmethod (by rw [h.1]; decide)
  exact .ite (fun _ => operated_withPreconditions fun _ =>
    .of_users_eq fun _ => deleteGroupRecord_users _ _ _) (.of_users_eq fun _ => rfl)

end

section

variable {R : ResourceType V} {P : Store → Prop} {env : Nat → Env}

/-- What holds of the store now and after the write holds after the request. -/
theorem onResource_store {write : V → Option Condition → Response V × Store} (hs : P s)
    (hwrite : ∀ existing expected, P (write existing expected).2) :
    P (onResource R s context header id write).2 := by
  rw [onResource]
  split
  · exact hs
  · exact hwrite _ _

def NewId (env : Nat → Env) (id : String) : Prop := ∃ i, (env i).ulid = id

theorem written_bulkLoop {failOnErrors : Nat} (operations : List BulkOperation) (items : List Value)
    (failures : Nat) (s : Store) :
    Written (NewId env) s (bulkLoop C context env failOnErrors items failures s operations).2 := by
  induction operations generalizing items failures s with
  | nil => exact Written.refl s
  | cons op operations ih =>
    have hop : Written (NewId env) s
        (applyBulkOperation C context (env items.length) s op).2 :=
      (operated_applyBulkOperation.written _).mono fun id h => ⟨items.length, h.symm⟩
    simp only [bulkLoop]
    generalize (if itemSucceeded _ = true then failures else failures + 1) = failures'
    split
    · exact hop
    · exact hop.trans (ih _ _ _)

theorem written_step (s : Store) (c : Call) : Written (NewId c.env) s (step C s c).2 := by
  have hrefl : Written (NewId c.env) s s := Written.refl s
  obtain ⟨context, env, request⟩ := c
  cases request with
  | createUser raw =>
    show Written (NewId env) s (createUser C (env 0).persist s context (env 0).ulid raw).2
    rw [createUser]
    split
    · exact hrefl
    · exact (written_createUserRecord _).mono fun id h => ⟨0, h.symm⟩
  | replaceUser =>
    refine onResource_store hrefl fun existing expected => ?_
    split
    · exact hrefl
    · exact written_writeUser fun _ _ _ => of_replaceUserValue
  | patchUser header id raw =>
    show Written (NewId env) s (patchUser C (env 0).persist s context header id raw).2
    rw [patchUser]
    split
    · exact hrefl
    · exact onResource_store hrefl fun existing expected =>
        written_writeUser fun _ _ _ => of_patchUserValue
  | deleteUser => exact onResource_store hrefl fun existing expected => written_deleteUserRecord _
  | createGroup raw =>
    show Written (NewId env) s (createGroup C (env 0).persist s context (env 0).ulid raw).2
    rw [createGroup]
    split
    · exact hrefl
    · exact Written.of_users_eq (createGroupRecord_users _ _)
  | replaceGroup header id raw =>
    show Written (NewId env) s (replaceGroup C (env 0).persist s context header id raw).2
    rw [replaceGroup]
    split
    · exact hrefl
    · exact onResource_store hrefl fun existing expected =>
        Written.of_users_eq (mutateScimGroup_users _)
  | patchGroup header id raw =>
    show Written (NewId env) s (patchGroup C (env 0).persist s context header id raw).2
    rw [patchGroup]
    split
    · exact hrefl
    · exact onResource_store hrefl fun existing expected =>
        Written.of_users_eq (mutateScimGroup_users _)
  | deleteGroup =>
    exact onResource_store hrefl fun existing expected =>
      Written.of_users_eq (deleteGroupRecord_users _ _ _)
  | bulk raw =>
    show Written (NewId env) s (bulk C context env s raw).2
    rw [bulk]
    split
    · exact hrefl
    · split
      · exact hrefl
      · exact written_bulkLoop _ _ _ _

theorem written_final (calls : List Call) (s : Store) :
    Written (fun id => ∃ c ∈ calls, NewId c.env id) s (final (step C) s calls) := by
  induction calls generalizing s with
  | nil => exact Written.refl s
  | cons c calls ih =>
    refine Written.trans ((written_step s c).mono fun id h => ?_) ((ih _).mono fun id h => ?_)
    · exact ⟨c, List.mem_cons_self, h⟩
    · obtain ⟨c', hc', hid⟩ := h
      exact ⟨c', List.mem_cons_of_mem _ hc', hid⟩

end

/-- In every sequence of requests, with any bodies, paths and conditions, a user keeps its id, its
realm, its owner and the time of its deprovisioning, and its external id while a directory owns it.
A user that only clients have written has attributes of the advertised shapes and does not carry the
directory's marker. And a PUT or PATCH of which any part is refused, on its own or in a bulk
request, leaves the users as they were, however saving would have ended; one that goes through has
had every part accepted. -/
theorem scim_writes_spare_server_state (C : Codec) (s : Store) (calls : List Call) (t : Store)
    (ht : t = final (step C) s calls) :
    (∀ id u v, s.scimUsers.find id = some u → (∀ c ∈ calls, ∀ i, (c.env i).ulid ≠ id) →
      t.scimUsers.find id = some v →
        v.id = u.id ∧ v.realmId = u.realmId ∧ v.directoryProviderId = u.directoryProviderId ∧
          v.deprovisionedAt = u.deprovisionedAt ∧
          (u.directoryProviderId.isSome = true → v.externalId = u.externalId)) ∧
    (∀ id v, (∀ u, s.scimUsers.find id = some u → WellFormed u) →
      t.scimUsers.find id = some v → WellFormed v) ∧
    (∀ persist context header id raw,
      (replaceUser C .done t context header id raw).1.succeeded = false →
        (replaceUser C persist t context header id raw).2 = t) ∧
    (∀ persist context header id raw,
      (patchUser C .done t context header id raw).1.succeeded = false →
        (patchUser C persist t context header id raw).2 = t) ∧
    (∀ persist context ulid op,
      toAsciiUppercase op.method = "PUT" ∨ toAsciiUppercase op.method = "PATCH" →
      itemSucceeded (applyBulkOperation C context ⟨ulid, .done⟩ t op).1 = false →
        (applyBulkOperation C context ⟨ulid, persist⟩ t op).2.scimUsers = t.scimUsers) ∧
    (∀ persist id req expected realm v,
      (replaceUserRecord C persist t id req expected realm).1 = .ok v →
        ∃ u, t.scimUsers.find id = some u ∧ replaceTransform req u expected.isSome = .ok v) ∧
    ∀ persist id operations expected realm v,
      (patchUserRecord C persist t id operations expected realm).1 = .ok v →
        ∃ u w, t.scimUsers.find id = some u ∧ operations.foldlM applyUserPatch u = .ok w := by
  have hwritten : Written _ s t := ht ▸ written_final calls s
  refine ⟨fun id u v hu hold hv => ?_, fun id v hs hv => ?_,
    fun persist context header id raw h => ?_, fun persist context header id raw h => ?_,
    fun _ _ _ _ hmethod h => operated_applyBulkOperation.refused hmethod h _,
    fun _ _ _ _ _ _ h => of_writeUser_ok h, fun _ _ _ _ _ _ h => ?_⟩
  · rcases hwritten id v hv with ⟨u', hu', hkept⟩ | ⟨⟨c, hc, i, hid⟩, -⟩
    · rw [hu] at hu'
      cases hu'
      exact ⟨hkept.id, hkept.realm, hkept.owner, hkept.deprovisioned, hkept.external⟩
    · exact absurd hid (hold c hc i)
  · rcases hwritten id v hv with ⟨u, hu, hkept⟩ | ⟨-, hwell⟩
    · exact hkept.wellFormed (hs u hu)
    · exact hwell
  · refine onResource_refused h fun existing expected h => ?_
    cases hparsed : parseCreateUser C raw with
    | error => rfl
    | ok =>
      rw [hparsed] at h
      exact respond_refused h writeUser_refused
  · rw [patchUser] at h ⊢
    cases hparsed : parseObject C patchOperations raw "patch request" with
    | error => rfl
    | ok =>
      rw [hparsed] at h
      exact onResource_refused h fun existing expected h => respond_refused h writeUser_refused
  · obtain ⟨u, hu, hpatched⟩ := of_writeUser_ok h
    obtain ⟨w, hw, -⟩ := bind_eq_ok.mp hpatched
    exact ⟨u, w, hu, hw⟩

def ownedUser : ScimUser :=
  { id := "1", realmId := "corp", externalId := some "cn=a", userName := "ann"
    nameJson := .object [], emailsJson := .array [], enterpriseJson := .object []
    directoryProviderId := some "p", deprovisionedAt := none, active := true }

def ownedStore : Store := { scimUsers := Table.empty.put ownedUser }

def forgingCall : Call where
  context := some "corp"
  env _ := ⟨"2", .done⟩
  request := .patchUser .absent "1" (.object [("Operations", .array
    [.object [("op", .string "add"), ("path", .string "enterprise.deprovisioned_at"),
        ("value", .bool true)],
      .array [.string "Replace", .string "active", .bool false]])])

theorem scim_writes_spare_server_state_sample :
    ∃ v, (final (step ⟨fun _ => "", fun _ => ""⟩) ownedStore [forgingCall]).scimUsers.find "1" =
        some v ∧
      v.directoryProviderId = some "p" ∧ v.deprovisionedAt = none ∧
      v.externalId = some "cn=a" ∧ WellFormed v := by
  have hstored : ownedStore.scimUsers.find "1" = some ownedUser := Table.find_put_self _ ownedUser
  have hfound : ((final (step ⟨fun _ => "", fun _ => ""⟩) ownedStore
      [forgingCall]).scimUsers.find "1").isSome = true := by
    decide +kernel
  obtain ⟨v, hv⟩ := Option.isSome_iff_exists.mp hfound
  obtain ⟨hserver, hwell, -⟩ := scim_writes_spare_server_state _ _ _ _ rfl
  obtain ⟨-, -, howner, hdeprovisioned, hexternal⟩ := hserver "1" ownedUser v hstored
    (fun c hc i => by
      rw [List.mem_singleton.mp hc]
      exact (by decide : "2" ≠ "1")) hv
  refine ⟨v, hv, howner, hdeprovisioned, hexternal rfl, hwell "1" v (fun u hu => ?_) hv⟩
  rw [← Option.some.inj (hstored.symm.trans hu)]
  exact ⟨advertised_empty, advertisedItems_empty, ⟨[], rfl, List.forall_mem_nil _⟩⟩

end Qid.Scim
