/-
Enrolling a TOTP credential.

A translation of `totp_enroll` of `qid-session/src/totp_api.rs`, and the three TOTP endpoints as
requests that are served one after the other. An enrolment stores a further credential, disabled
until a code confirms it; the endpoints take whichever credential of the user the repository meets
first.
-/
import Qid.Lib.Hoare
import Qid.Session.TotpSafety

namespace Qid.Session

open Lib Lib.Handler Storage

structure EnrollState extends SharedState where
  /-- The issuer of a realm. -/
  issuer : RuntimeRealm → String

structure TotpEnrollRun where
  realm : String
  cookie : Option String
  /-- When the session is looked up. -/
  loadedAt : Nat
  /-- The secret and the identifier, drawn at random. -/
  secret : String
  id : String
  now : Nat
  deriving DecidableEq

structure TotpEnrollResponse where
  secret : String
  qrcodeUrl : String
  deriving DecidableEq

def upperHexDigit (n : Nat) : Char :=
  if n < 10 then Char.ofNat (0x30 + n) else Char.ofNat (0x41 + (n - 10))

/-- `urlencoding`: a character outside ASCII keeps the last eight bits of its number. -/
def urlencoding (s : String) : String :=
  String.join (s.toList.map fun c =>
    if c.isAlphanum || c == '-' || c == '_' || c == '.' || c == '~' then String.ofList [c]
    else if c == ' ' then "+"
    else "%" ++ String.ofList
      [upperHexDigit (c.toNat % 256 / 16), upperHexDigit (c.toNat % 256 % 16)])

def defaultDigits : Nat := 6

def defaultPeriod : Nat := 30

def buildTotpQrcodeUrl (issuer email secret : String) : String :=
  "otpauth://totp/" ++ urlencoding issuer ++ ":" ++ urlencoding email ++ "?secret=" ++ secret ++
    "&issuer=" ++ urlencoding issuer ++ "&algorithm=SHA1&digits=" ++ toString defaultDigits ++
    "&period=" ++ toString defaultPeriod

def TotpEnrollRun.credential (q : TotpEnrollRun) (userId : String) : TotpCredential :=
  { id := q.id, userId := userId, secret := q.secret, algorithm := "SHA1"
    digits := defaultDigits, period := defaultPeriod, enabled := false, lastUsedStep := none
    createdAt := q.now }

section

variable (st : EnrollState)

def totpEnroll (q : TotpEnrollRun) : Login TotpEnrollResponse := do
  let (realmConfig, session) ← loadBrowserSession st.toSharedState q.realm q.cookie q.loadedAt
  check (totpUnavailable realmConfig)
  let found ← getUserById session.userId
  let user ← check (okOr found (.notFound ("user " ++ session.userId)))
  check (ensure (user.realmId = q.realm)
    (.unauthorized "session user does not belong to request realm"))
  storeTotpCredential (q.credential session.userId)
  return { secret := q.secret
           qrcodeUrl := buildTotpQrcodeUrl (st.issuer realmConfig)
             (user.email.getD session.userId) q.secret }

inductive TotpRequest where
  | enroll (q : TotpEnrollRun)
  | verify (q : TotpVerifyRun)
  | authenticate (q : TotpAuthenticateRun)
  deriving DecidableEq

inductive TotpResponse where
  | enrolled (r : TotpEnrollResponse)
  | verified (status : String)
  | session (r : TotpAuthenticateResponse)
  deriving DecidableEq

def serveTotp : TotpRequest → Login TotpResponse
  | .enroll q => do
    let r ← totpEnroll st q
    return .enrolled r
  | .verify q => do
    let status ← totpVerify st.toSharedState q
    return .verified status
  | .authenticate q => do
    let r ← totpAuthenticate st.toSharedState q
    return .session r

abbrev TotpAct : Type := TotpRequest × (Nat → Env)

def totpStep (s : Store) (a : TotpAct) : QidResult TotpResponse × Store :=
  Program.exec answer a.2 s (serveTotp st a.1)

end

/-! ## Credentials up to their steps -/

def TotpCredential.unstepped (c : TotpCredential) : TotpCredential :=
  { c with lastUsedStep := none }

structure HasOnly (E : String → Option TotpCredential) (user : String) (c : TotpCredential) :
    Prop where
  stored : E c.id = some c
  owned : c.userId = user
  only : ∀ id c', E id = some c' → c'.userId = user → c' = c

def AtMostOne (E : String → Option TotpCredential) (user : String) : Prop :=
  ∀ id id' c c', E id = some c → E id' = some c' → c.userId = user → c'.userId = user → id = id'

namespace Store

/-- The credential stored under an identifier, up to its steps. -/
def enrolled (s : Store) (id : String) : Option TotpCredential :=
  (s.totpCredentials.find id).map (·.unstepped)

variable {s : Store} {id user : String} {c : TotpCredential}

theorem enrolled_of_find (h : s.totpCredentials.find id = some c) :
    s.enrolled id = some c.unstepped := by
  rw [enrolled, h]
  rfl

theorem enrolled_put (s : Store) (c : TotpCredential) :
    ({ s with totpCredentials := s.totpCredentials.put c } : Store).enrolled =
      Function.update s.enrolled c.id (some c.unstepped) := by
  funext id
  rw [enrolled]
  rw [Table.find_put]
  split_ifs with hid
  · rw [hid, Function.update_self]
    rfl
  · rw [Function.update_of_ne hid, enrolled]

theorem enrolled_consumeTotpStep (s : Store) (persist : Persist) (cred : TotpCredential)
    (step : Nat) : (s.consumeTotpStep persist cred step).2.enrolled = s.enrolled := by
  rcases s.consumeTotpStep_cases persist cred step with hsame | ⟨stored, hfind, -, hwrite⟩
  · rw [hsame]
  · rw [hwrite]
    have hkey : stored.id = cred.id := Table.key_of_find hfind
    refine (enrolled_put s _).trans (Function.update_eq_self_iff.mpr ?_)
    show some stored.unstepped = s.enrolled stored.id
    rw [hkey, enrolled_of_find hfind]

theorem enrolled_storeTotpCredential (s : Store) (persist : Persist) (cred : TotpCredential) :
    (∃ e, s.storeTotpCredential persist cred = (.error e, s)) ∨
      (∀ stored, s.enrolled cred.id = some stored → stored.userId = cred.userId) ∧
        (s.storeTotpCredential persist cred).2.enrolled =
          Function.update s.enrolled cred.id (some cred.unstepped) := by
  rw [storeTotpCredential]
  cases hfind : s.totpCredentials.find cred.id with
  | none =>
    refine Or.inr ⟨fun stored hstored => ?_, enrolled_put s cred⟩
    rw [enrolled, hfind] at hstored
    cases hstored
  | some stored =>
    by_cases huser : stored.userId = cred.userId
    · simp only [huser]
      refine Or.inr ⟨fun other hother => ?_, enrolled_put s _⟩
      rw [enrolled_of_find hfind, Option.some.injEq] at hother
      rw [← hother]
      exact huser
    · simp only [huser]
      exact Or.inl ⟨_, rfl⟩

theorem of_getTotpCredential {first : Nat} (h : s.getTotpCredential first user = some c) :
    s.totpCredentials.find c.id = some c ∧ c.userId = user := by
  have hmem := List.mem_of_getElem? h
  rw [List.mem_filter, decide_eq_true_eq] at hmem
  exact ⟨Table.mem_values.mp hmem.1, hmem.2⟩

/-- Whatever the repository meets first, a lookup finds the only credential. -/
theorem getTotpCredential_of_hasOnly (h : HasOnly s.enrolled user c) (first : Nat) :
    ∃ c', s.getTotpCredential first user = some c' ∧ c'.unstepped = c := by
  have hstored := h.stored
  rw [enrolled, Option.map_eq_some_iff] at hstored
  obtain ⟨stored, hfind, hsame⟩ := hstored
  have huser : stored.userId = user := by
    rw [← h.owned, ← hsame]
    rfl
  have hmem : stored ∈ s.totpCredentials.values.filter fun c => c.userId = user := by
    rw [List.mem_filter, decide_eq_true_eq, Table.mem_values, Table.key_of_find hfind]
    exact ⟨hfind, huser⟩
  have hpos := List.length_pos_of_mem hmem
  have hlt := Nat.mod_lt first hpos
  refine ⟨_, List.getElem?_eq_getElem hlt, ?_⟩
  have hget : s.getTotpCredential first user = some _ := List.getElem?_eq_getElem hlt
  have hfound := of_getTotpCredential hget
  exact h.only _ _ (enrolled_of_find hfound.1) hfound.2

end Store

/-! ## What a request does -/

/-- The user is the one whose credentials the request is about, if there is one. -/
inductive TotpMove (E : String → Option TotpCredential) : Option String → TotpRequest →
    QidResult TotpResponse → (String → Option TotpCredential) → Prop
  | none (user : Option String) (q : TotpRequest) (r : QidResult TotpResponse)
      (hverify : ∀ run, q = .verify run → ∀ v, r ≠ .ok v) : TotpMove E user q r E
  | enroll (user : String) (q : TotpEnrollRun) (r : QidResult TotpResponse)
      (hfree : ∀ c, E q.id = some c → c.userId = user) :
      TotpMove E (some user) (.enroll q) r (Function.update E q.id (some (q.credential user)))
  | confirm (user : String) (q : TotpVerifyRun) (r : QidResult TotpResponse) (c : TotpCredential)
      (hstored : E c.id = some c) (howned : c.userId = user) :
      TotpMove E (some user) (.verify q) r
        (Function.update E c.id (some { c with enabled := true }))

section

variable (st : EnrollState)

def browserSession (s : Store) (realm : String) (cookie : Option String) (now : Nat) :
    QidResult (RuntimeRealm × LoginSession) := do
  let realmConfig ← st.requireRealm realm
  let sessionId ← okOr (OAuth.extractCookie cookie realmConfig.browserSession.cookieName)
    (.unauthorized "missing session cookie")
  let session ← okOr ((s.sessions.find sessionId).filter fun s => s.isActive now)
    (.unauthorized "invalid or expired session")
  ensure (session.realmId = realm) (.unauthorized "session realm does not match request realm")
  return (realmConfig, session)

def requestUser (s : Store) : TotpRequest → Option String
  | .enroll q => (browserSession st s q.realm q.cookie q.loadedAt).toOption.map (·.2.userId)
  | .verify q => (browserSession st s q.realm q.cookie q.loadedAt).toOption.map (·.2.userId)
  | .authenticate q => some q.userId

variable {st} {s : Store} {α : Type} {Q : QidResult α → Store → Prop} {cred : TotpCredential}
  {f : Unit → Login α}

/-- A claim that loses ends the request; one that wins leaves the credentials as they are. -/
theorem wp_claimStep_bind {step : Nat} (herror : ∀ e t, t.enrolled = s.enrolled → Q (.error e) t)
    (hok : ∀ t, t.enrolled = s.enrolled → Program.Wp answer Q (f ()) t) :
    Program.Wp answer Q (claimStep cred step >>= f : Login α) s := by
  refine wp_bind.mpr (wp_bind.mpr fun o => ?_)
  have hsame := s.enrolled_consumeTotpStep o.persist cred step
  show After answer _ _ (s.consumeTotpStep o.persist cred step).1
    (s.consumeTotpStep o.persist cred step).2
  cases (s.consumeTotpStep o.persist cred step).1 with
  | error e => exact herror e _ hsame
  | ok won =>
    cases won with
    | true => exact hok _ hsame
    | false => exact herror _ _ hsame

theorem wp_storeTotpCredential_bind (hconflict : ∀ e, Q (.error e) s)
    (hstored : (∀ c, s.enrolled cred.id = some c → c.userId = cred.userId) → ∀ t,
      t.enrolled = Function.update s.enrolled cred.id (some cred.unstepped) →
        (∀ e, Q (.error e) t) ∧ Program.Wp answer Q (f ()) t) :
    Program.Wp answer Q (storeTotpCredential cred >>= f : Login α) s := by
  refine wp_bind.mpr fun o => ?_
  show After answer Q f (s.storeTotpCredential o.persist cred).1
    (s.storeTotpCredential o.persist cred).2
  rcases s.enrolled_storeTotpCredential o.persist cred with
    ⟨e, hsame⟩ | ⟨hfree, henrolled⟩
  · rw [hsame]
    exact hconflict e
  · have hend := hstored hfree _ henrolled
    cases (s.storeTotpCredential o.persist cred).1 with
    | error e => exact hend.1 e
    | ok => exact hend.2

theorem wp_loadBrowserSession_bind {realm : String} {cookie : Option String} {now : Nat}
    {f : RuntimeRealm × LoginSession → Login α} (herror : ∀ e, Q (.error e) s)
    (hok : ∀ realmConfig session,
      browserSession st s realm cookie now = .ok (realmConfig, session) →
        Program.Wp answer Q (f (realmConfig, session)) s) :
    Program.Wp answer Q
      (loadBrowserSession st.toSharedState realm cookie now >>= f : Login α) s := by
  rw [wp_bind]
  refine wp_check_bind (fun e _ => herror e) fun realmConfig hrealm => ?_
  refine wp_check_bind (fun e _ => herror e) fun sessionId hid => ?_
  refine wp_bind.mpr fun _ => ?_
  refine wp_check_bind (fun e _ => herror e) fun session hsession => ?_
  refine wp_check_bind (fun e _ => herror e) fun _ hcheck => hok realmConfig session ?_
  change okOr ((s.sessions.find sessionId).filter _) _ = _ at hsession
  simp [browserSession, Bind.bind, Except.bind, Pure.pure, Except.pure, hrealm, hid, hsession,
    hcheck]

/-- A confirmation fails and leaves the credentials alone, or it enables one of the user. -/
theorem wp_totpVerify (q : TotpVerifyRun) :
    Program.Wp answer
      (fun r t => TotpMove s.enrolled (requestUser st s (.verify q)) (.verify q)
        (r.map .verified) t.enrolled)
      (totpVerify st.toSharedState q) s := by
  have hfail : ∀ e, TotpMove s.enrolled (requestUser st s (.verify q)) (.verify q)
      ((Except.error e : QidResult String).map .verified) s.enrolled :=
    fun e => .none _ _ _ fun _ _ _ => nofun
  refine wp_loadBrowserSession_bind hfail fun realmConfig session hsession => ?_
  have huser : requestUser st s (.verify q) = some session.userId := by
    rw [requestUser, hsession]
    rfl
  refine wp_check_bind (fun e _ => hfail e) fun _ _ => ?_
  refine wp_bind.mpr fun env => ?_
  refine wp_check_bind (fun e _ => hfail e) fun cred hcred => ?_
  obtain ⟨hfind, howned⟩ := Store.of_getTotpCredential (okOr_eq_ok.mp hcred)
  refine wp_check_bind (fun e _ => hfail e) fun _ _ => ?_
  refine wp_check_bind (fun e _ => hfail e) fun step _ => ?_
  refine wp_claimStep_bind (fun e t' hsame => hsame ▸ hfail e) fun t' hsame => ?_
  refine wp_storeTotpCredential_bind (fun e => hsame ▸ hfail e) fun _ t'' henrolled => ?_
  -- whether or not the save succeeds, the credential is enabled in memory
  have hmove : ∀ r, TotpMove s.enrolled (requestUser st s (.verify q)) (.verify q) r
      t''.enrolled := by
    intro r
    rw [huser, henrolled, hsame]
    exact .confirm _ q r cred.unstepped (Store.enrolled_of_find hfind) howned
  exact ⟨fun e => hmove _, hmove _⟩

theorem wp_totpEnroll (q : TotpEnrollRun) :
    Program.Wp answer
      (fun r t => TotpMove s.enrolled (requestUser st s (.enroll q)) (.enroll q)
        (r.map .enrolled) t.enrolled)
      (totpEnroll st q) s := by
  have hfail : ∀ e, TotpMove s.enrolled (requestUser st s (.enroll q)) (.enroll q)
      ((Except.error e : QidResult TotpEnrollResponse).map .enrolled) s.enrolled :=
    fun e => .none _ _ _ fun _ _ _ => nofun
  refine wp_loadBrowserSession_bind hfail fun realmConfig session hsession => ?_
  have huser : requestUser st s (.enroll q) = some session.userId := by
    rw [requestUser, hsession]
    rfl
  refine wp_check_bind (fun e _ => hfail e) fun _ _ => ?_
  refine wp_bind.mpr fun _ => ?_
  refine wp_check_bind (fun e _ => hfail e) fun account _ => ?_
  refine wp_check_bind (fun e _ => hfail e) fun _ _ => ?_
  refine wp_storeTotpCredential_bind hfail fun hfree t' henrolled => ?_
  have hmove : ∀ r, TotpMove s.enrolled (requestUser st s (.enroll q)) (.enroll q) r
      t'.enrolled := by
    intro r
    rw [huser, henrolled]
    exact .enroll _ q r hfree
  exact ⟨fun e => hmove _, hmove _⟩

/-- A login leaves the credentials alone, but for their steps. -/
theorem wp_totpAuthenticate (q : TotpAuthenticateRun) :
    Program.Wp answer (fun _ t => Store.enrolled t = s.enrolled)
      (totpAuthenticate st.toSharedState q) s := by
  have hmakes := makes_totpAuthenticate st.toSharedState (fun c _ hstore => hstore) q
  refine hmakes.wp (fun o t c hstore ht => ?_) rfl
  rw [← ht]
  rcases totpCredentials_answer o t c with ⟨cred, hc⟩ | ⟨cred, step, rfl⟩ | hsame
  · exact absurd hc (hstore cred)
  · exact t.enrolled_consumeTotpStep ..
  · funext id
    rw [Store.enrolled, Store.enrolled, hsame]

variable (st s) in
theorem totpStep_move (a : TotpAct) :
    TotpMove s.enrolled (requestUser st s a.1) a.1 (totpStep st s a).1
      (totpStep st s a).2.enrolled := by
  obtain ⟨q, oracle⟩ := a
  -- the endpoint answers with the result of its handler, under a tag of its own
  have hreply : ∀ {β : Type} {x : Login β} (tag : β → TotpResponse)
      (P : QidResult TotpResponse → Store → Prop),
      Program.Wp answer (fun r t => P (r.map tag) t) x s →
        P (Program.exec answer oracle s (x >>= fun b => pure (tag b) : Login TotpResponse)).1
          (Program.exec answer oracle s (x >>= fun b => pure (tag b) : Login TotpResponse)).2 := by
    intro β x tag P hx
    refine Program.Wp.exec (wp_bind.mpr (hx.mono fun r t hr => ?_)) oracle
    cases r with
    | _ => exact hr
  cases q with
  | enroll q => exact hreply .enrolled (fun r t => TotpMove _ _ _ r t.enrolled) (wp_totpEnroll q)
  | verify q => exact hreply .verified (fun r t => TotpMove _ _ _ r t.enrolled) (wp_totpVerify q)
  | authenticate q =>
    refine hreply .session (fun r t => TotpMove _ _ _ r t.enrolled)
      ((wp_totpAuthenticate q).mono fun r t ht => ?_)
    rw [ht]
    exact .none _ _ _ fun _ hq => nomatch hq

end

/-! ## The only credential -/

section

variable {E E' : String → Option TotpCredential} {w : Option String} {q : TotpRequest}
  {r : QidResult TotpResponse} {user : String} {c d : TotpCredential}

/-- A credential of another user, which replaces none of the user. -/
theorem HasOnly.update (h : HasOnly E user c) (hd : d.userId ≠ user)
    (hold : ∀ c', E d.id = some c' → c'.userId ≠ user) :
    HasOnly (Function.update E d.id (some d)) user c := by
  refine ⟨?_, h.owned, fun id c' hc' huser => ?_⟩
  · have hid : c.id ≠ d.id := fun hid => hold c (hid ▸ h.stored) h.owned
    rw [Function.update_of_ne hid, h.stored]
  · rw [Function.update_apply] at hc'
    split at hc'
    · cases hc'
      exact absurd huser hd
    · exact h.only id c' hc' huser

/-- A credential of the user that replaces the one there is, if there is one. -/
theorem AtMostOne.update (h : AtMostOne E user)
    (hd : d.userId = user → ∀ id c, E id = some c → c.userId = user → id = d.id) :
    AtMostOne (Function.update E d.id (some d)) user := by
  intro id id' c c' hc hc' huser huser'
  rw [Function.update_apply] at hc hc'
  split at hc
  · rename_i hid
    cases hc
    split at hc'
    · rename_i hid'
      rw [hid, hid']
    · rw [hid, hd huser id' c' hc' huser']
  · split at hc'
    · rename_i hid'
      cases hc'
      rw [hid', hd huser' id c hc huser]
    · exact h id id' c c' hc hc' huser huser'

/-- A confirmed credential stays as it is if the user enrols no other. -/
theorem TotpMove.hasOnly (hmove : TotpMove E w q r E') (h : HasOnly E user c)
    (henabled : c.enabled = true) (hfirst : ∀ run, q = .enroll run → w ≠ some user) :
    HasOnly E' user c := by
  cases hmove with
  | none => exact h
  | enroll v run r hfree =>
    have hv : v ≠ user := fun hv => hfirst run rfl (congrArg some hv)
    exact h.update (d := run.credential v) hv fun c' hc' huser =>
      hv ((hfree c' hc').symm.trans huser)
  | confirm v run r d hstored howned =>
    by_cases hv : v = user
    · have hd : d = c := h.only d.id d hstored (howned.trans hv)
      have hsame : ({ c with enabled := true } : TotpCredential) = c := by rw [← henabled]
      rw [hd, hsame, Function.update_eq_self_iff.mpr h.stored.symm]
      exact h
    · refine h.update (d := { d with enabled := true }) (howned ▸ hv) fun c' hc' huser => hv ?_
      rw [← howned, ← huser, Option.some.inj (hstored.symm.trans hc')]

/-- The user keeps having at most one credential, if each enrolment is the first. -/
theorem TotpMove.atMostOne (hmove : TotpMove E w q r E') (h : AtMostOne E user)
    (hfirst : ∀ run, q = .enroll run → w = some user → ∀ id c, E id = some c → c.userId ≠ user) :
    AtMostOne E' user := by
  cases hmove with
  | none => exact h
  | enroll v run =>
    exact h.update (d := run.credential v) fun hv id c hc hcuser =>
      absurd hcuser (hfirst run rfl (congrArg some hv) id c hc)
  | confirm v run r d hstored =>
    exact h.update (d := { d with enabled := true }) fun hv id c hc hcuser =>
      h id d.id c d hc hstored hcuser hv

theorem TotpMove.confirmed (hmove : TotpMove E (some user) q r E') (h : AtMostOne E user)
    {run : TotpVerifyRun} (hq : q = .verify run) {v : TotpResponse} (hr : r = .ok v) :
    ∃ c, c.enabled = true ∧ HasOnly E' user c := by
  cases hmove with
  | none w q r hverify => exact absurd hr (hverify run hq v)
  | enroll => cases hq
  | confirm w run r d hstored howned =>
    refine ⟨{ d with enabled := true }, rfl, Function.update_self _ _ _, howned, ?_⟩
    intro id c' hc' hc'user
    by_cases hid : id = d.id
    · rw [hid, Function.update_self, Option.some.injEq] at hc'
      exact hc'.symm
    · rw [Function.update_of_ne hid] at hc'
      exact absurd (h id d.id c' d hc' hstored hc'user howned) hid

end

/-! ## Every sequence of requests -/

section

variable (st : EnrollState) (user : String)

/-- If the request enrols a credential of the user, the user has none. -/
def FirstEnrollment (s : Store) (a : TotpAct) : Prop :=
  ∀ q, a.1 = .enroll q → requestUser st s a.1 = some user →
    ∀ id c, s.enrolled id = some c → c.userId ≠ user

def Confirms (e : Event Store TotpAct (QidResult TotpResponse)) : Prop :=
  ∃ q v, e.call.1 = .verify q ∧ requestUser st e.before e.call.1 = some user ∧ e.reply = .ok v

variable {st user}

/-- Where a user enrols a credential only while there is none, the credential that a confirmation
has enabled is the one that every later lookup finds, whatever the repository meets first: enabled,
and as it was but for its steps. -/
theorem confirmed_totp_stays {s : Store} {acts : List TotpAct} (hstart : AtMostOne s.enrolled user)
    (hfirst : ∀ e ∈ run (totpStep st) s acts, FirstEnrollment st user e.before e.call)
    {xs ys : List (Event Store TotpAct (QidResult TotpResponse))}
    {e : Event Store TotpAct (QidResult TotpResponse)}
    (hrun : run (totpStep st) s acts = xs ++ e :: ys) (hconfirms : Confirms st user e) :
    ∃ c, c.enabled = true ∧ c.userId = user ∧ e.after.enrolled c.id = some c ∧
      ∀ e' ∈ ys, ∀ first, ∃ c', e'.before.getTotpCredential first user = some c' ∧
        c'.unstepped = c := by
  have hone := (run_invariant (totpStep st)
    (fun s a h hG => (totpStep_move st s a).atMostOne h hG) hstart hfirst).1
  obtain ⟨acts₁, a, acts₂, rfl, hxs, rfl, hys⟩ := run_eq_append_cons (totpStep st) hrun
  obtain ⟨q, v, hq, huser, hreply⟩ := hconfirms
  rw [hrun] at hone hfirst
  have hbefore := (hone _ List.mem_append_cons_self).1
  have hmove := totpStep_move st (final (totpStep st) s acts₁) a
  rw [show requestUser st (final (totpStep st) s acts₁) a.1 = some user from huser] at hmove
  obtain ⟨c, henabled, hc⟩ := hmove.confirmed hbefore hq hreply
  refine ⟨c, henabled, hc.owned, hc.stored, fun e' he' first => ?_⟩
  have hlater : ∀ e ∈ run (totpStep st) (totpStep st (final (totpStep st) s acts₁) a).2 acts₂,
      FirstEnrollment st user e.before e.call := by
    intro e he
    rw [hys] at he
    exact hfirst e (List.mem_append_right _ (List.mem_cons_of_mem _ he))
  have hkept := (run_invariant (totpStep st)
    (I := fun s => HasOnly s.enrolled user c ∧ c.enabled = true)
    (fun s a h hG => ⟨(totpStep_move st s a).hasOnly h.1 h.2 fun run hrun huser =>
      hG run hrun huser c.id c h.1.stored h.1.owned, h.2⟩) ⟨hc, henabled⟩ hlater).1
  rw [hys] at hkept
  exact Store.getTotpCredential_of_hasOnly (hkept e' he').1.1 first

end

def sampleEnrollState : EnrollState := { sampleState with issuer := fun realm => realm.id }

def signedInStore : Store :=
  { sampleStore with
    sessions := Table.empty.put
      { id := "s1", realmId := "main", userId := "u1", idleExpiresAt := 1000
        absoluteExpiresAt := 1000, revoked := false, authTime := 0, acr := none, amr := []
        createdAt := 0 } }

def enrollAct (id secret : String) : TotpAct :=
  (.enroll { realm := "main", cookie := some "qid=s1", loadedAt := 0, secret := secret, id := id
             now := 0 }, fun _ => Env.saved)

/-- Confirm with the code of the second time step. -/
def verifyAct : TotpAct :=
  (.verify { realm := "main", cookie := some "qid=s1", code := "2", admitted := true
             loadedAt := 60, now := 60 }, fun _ => Env.saved)

/-- Log in with the code of the fourth time step, where a lookup meets the given entry. -/
def authenticateAct (first : Nat) : TotpAct :=
  (.authenticate { realm := "main", cookie := none, userId := "u1", code := "4", admitted := true
                   now := 120, createdAt := 120, sessionId := "s2" },
    fun _ => { persist := .done, first := first })

theorem confirmed_totp_stays_sample :
    ∃ c, c.enabled = true ∧ c.userId = "u1" ∧
      (final (totpStep sampleEnrollState) signedInStore
        [enrollAct "t1" "JBSWY3DP", verifyAct]).enrolled c.id = some c ∧
      ∀ e' ∈ run (totpStep sampleEnrollState)
          (final (totpStep sampleEnrollState) signedInStore
            [enrollAct "t1" "JBSWY3DP", verifyAct]) [authenticateAct 0],
        ∀ first, ∃ c', e'.before.getTotpCredential first "u1" = some c' ∧ c'.unstepped = c := by
  have hnone : ∀ id c, signedInStore.enrolled id = some c → c.userId ≠ "u1" := by
    intro id c hc
    cases hc
  have hrun : run (totpStep sampleEnrollState) signedInStore
      [enrollAct "t1" "JBSWY3DP", verifyAct, authenticateAct 0] =
      run (totpStep sampleEnrollState) signedInStore [enrollAct "t1" "JBSWY3DP"] ++
        _ :: run (totpStep sampleEnrollState) _ [authenticateAct 0] := rfl
  refine confirmed_totp_stays (fun id id' c c' hc => by cases hc) (fun e he => ?_) hrun ?_
  · rcases List.mem_cons.mp he with rfl | he
    · exact fun q _ _ => hnone
    · rcases List.mem_cons.mp he with rfl | he
      · exact fun q hq => nomatch hq
      · rw [List.mem_singleton.mp he]
        exact fun q hq => nomatch hq
  · exact ⟨_, .verified "verified", rfl, by decide +kernel, by decide +kernel⟩

/-- After a second enrolment, which is not confirmed, the lookup may find the credential that is not
enabled: the login is refused although the confirmed credential is still there. -/
theorem second_enrolment_shadows :
    (run (totpStep sampleEnrollState) signedInStore
        [enrollAct "t1" "JBSWY3DP", verifyAct, enrollAct "t2" "MFRGGZDF",
          authenticateAct 0]).map (fun e => e.reply.toOption.isSome) = [true, true, true, false] ∧
      (totpStep sampleEnrollState
        (final (totpStep sampleEnrollState) signedInStore
          [enrollAct "t1" "JBSWY3DP", verifyAct, enrollAct "t2" "MFRGGZDF"])
        (authenticateAct 0)).1 = .error (.badRequest "TOTP not enabled for this user") ∧
      ((final (totpStep sampleEnrollState) signedInStore
          [enrollAct "t1" "JBSWY3DP", verifyAct, enrollAct "t2" "MFRGGZDF"]).enrolled "t1").map
        (·.enabled) = some true ∧
      (totpStep sampleEnrollState
        (final (totpStep sampleEnrollState) signedInStore
          [enrollAct "t1" "JBSWY3DP", verifyAct, enrollAct "t2" "MFRGGZDF"])
        (authenticateAct 1)).1.toOption.isSome = true := by
  decide +kernel

end Qid.Session
