/-
Safety of authorization codes.

`authorization_code_grant` as an automaton over its calls: it reads the code, checks its copy, marks
the stored code as used and issues tokens only then. The mark is a claim in the sense of
`Lib.Claim`.
-/
import Qid.Lib.Claim
import Qid.OAuth.Endpoint

namespace Qid.OAuth

open Lib Lib.Service Models Storage

variable {s : Store} {c : AuthorizationCode} {i : Nat} {q : CodeRun}

/-! ## The protocol of an exchange -/

inductive CodePhase where
  | start
  | checked (c : AuthorizationCode)
  | consumed (c : AuthorizationCode)
  | refused
  /-- Any request that is not an exchange. -/
  | other

def Call.marksCode : Call → Bool
  | .markAuthorizationCodeUsed _ => true
  | _ => false

section

variable (st : SharedState) (q : CodeRun) (found : Option AuthorizationCode)

def checkedCode : QidResult AuthorizationCode := do
  let (_, redirectUri) ← presentedCode q
  checkAuthorizationCode st q redirectUri found

def codeAfterRead : CodePhase :=
  match checkedCode st q found with
  | .ok c => .checked c
  | .error _ => .refused

inductive CodeCall : CodePhase → Call → Prop
  | read {code redirectUri : String} (hp : presentedCode q = .ok (code, redirectUri)) :
      CodeCall .start (.getAuthorizationCode (st.sha256Base64url code))
  | mark {c : AuthorizationCode} : CodeCall (.checked c) (.markAuthorizationCodeUsed c)
  | issue {a : AuthorizationCode} {c : Call} (hc : c.issues = true) : CodeCall (.consumed a) c

def codeNext : CodePhase → (c : Call) → c.Answer → CodePhase
  | .start, .getAuthorizationCode _, .ok found => codeAfterRead st q found
  | .checked c, .markAuthorizationCodeUsed _, .ok () | .consumed c, _, _ => .consumed c
  | _, _, _ => .refused

def codeReturns : CodePhase → QidResult TokenResponse → Prop
  | .consumed _, _ => True
  | _, .ok _ => False
  | _, .error _ => True

def codeExchange : Protocol CodePhase Call Call.Answer :=
  { calls := CodeCall st q, next := codeNext st q }

theorem leads_authorizationCodeGrant :
    (codeExchange st q).Leads codeReturns .start (authorizationCodeGrant st q) := by
  refine Protocol.leads_check_bind (fun e _ => trivial) fun presented hp => ?_
  obtain ⟨code, redirectUri⟩ := presented
  refine ⟨.read hp, fun r => ?_⟩
  cases r with
  | error => exact trivial
  | ok found =>
    have hchecked : checkedCode st q found = checkAuthorizationCode st q redirectUri found := by
      rw [checkedCode, hp]
      rfl
    show (codeExchange st q).Leads _ (codeAfterRead st q found) _
    rw [codeAfterRead, hchecked]
    refine Protocol.leads_check_bind (fun e he => ?_) fun c hc => ?_
    · rw [he]
      exact trivial
    · rw [hc]
      refine ⟨.mark, fun r => ?_⟩
      cases r with
      | error => exact trivial
      | ok =>
        have hissue : (codeExchange st q).Leads (fun ph _ => ph = .consumed c) (.consumed c)
            (issueForCode st q code c) :=
          (makes_issueForCode st q code c).leads (fun _ hc => CodeCall.issue hc) fun _ _ _ => rfl
        refine hissue.mono fun ph resp hph => ?_
        rw [hph]
        exact trivial

def exchangeProtocol : Request → Protocol CodePhase Call Call.Answer
  | .authorizationCode q => codeExchange st q
  | _ => { calls := fun _ c => c.marksCode = false, next := fun s _ _ => s }

def exchangeStart : Request → CodePhase
  | .authorizationCode _ => .start
  | _ => .other

def exchangeReturns : Request → CodePhase → QidResult Response → Prop
  | .authorizationCode _, ph, .ok (.tokens r) => codeReturns ph (.ok r)
  | _, _, _ => True

theorem exchange_serve (q : Request) :
    (exchangeProtocol st q).Leads (exchangeReturns q) (exchangeStart q) (serve st q) := by
  cases q with
  | authorizationCode q =>
    rw [serve, answerTokens, Protocol.leads_bind]
    refine (leads_authorizationCodeGrant st q).mono fun ph r hr => ?_
    cases r with
    | ok => exact hr
    | error => exact trivial
  | _ =>
    refine leads_serve_of_mayCall st fun c hc => ?_
    cases c with
    | markAuthorizationCodeUsed => cases hc
    | _ => rfl

end

/-! ## What a call does to a code -/

def acceptedMark (hash : String) : Option ((c : Call) × c.Answer) → Bool
  | some ⟨.markAuthorizationCodeUsed code, .ok ()⟩ => code.codeHash = hash
  | _ => false

inductive CodeStep (s : Store) (hash : String) :
    (c : Call) → c.Answer → Option AuthorizationCode → Prop
  | kept {c : Call} {a : c.Answer} (h : acceptedMark hash (some ⟨c, a⟩) = false) :
      CodeStep s hash c a (s.authorizationCodes.find hash)
  | used {code stored : AuthorizationCode} {a : QidResult Unit} (hhash : code.codeHash = hash)
      (hstored : s.authorizationCodes.find hash = some stored) (hunused : stored.used = false) :
      CodeStep s hash (.markAuthorizationCodeUsed code) a (some { stored with used := true })

theorem codeStep (persist : Persist) (s : Store) (hash : String) (c : Call) :
    CodeStep s hash c (answer persist s c).1
      ((answer persist s c).2.authorizationCodes.find hash) := by
  by_cases hc : ∀ code, c ≠ .markAuthorizationCodeUsed code
  · rw [authorizationCodes_answer persist s hc]
    refine .kept ?_
    cases c with
    | markAuthorizationCodeUsed code => exact absurd rfl (hc code)
    | _ => rfl
  · obtain ⟨code, rfl⟩ := not_forall_not.mp hc
    show CodeStep s hash (.markAuthorizationCodeUsed code)
      (s.markAuthorizationCodeUsed persist code).1
      ((s.markAuthorizationCodeUsed persist code).2.authorizationCodes.find hash)
    rw [Store.markAuthorizationCodeUsed]
    cases hf : (s.authorizationCodes.find code.codeHash).filter
        (Store.authCodeOwnerMatches · code) with
    | none => exact .kept rfl
    | some stored =>
      dsimp only
      have hfind := (Option.filter_eq_some_iff.mp hf).1
      have hkey : stored.codeHash = code.codeHash := s.authorizationCodes.keyed _ _ hfind
      split_ifs with hused
      · exact .kept rfl
      · rw [Table.find_put]
        by_cases hhash : code.codeHash = hash
        · subst hhash
          rw [if_pos hkey.symm]
          exact .used rfl hfind (Bool.not_eq_true _ ▸ hused)
        · rw [if_neg fun heq => hhash (hkey.symm.trans heq.symm)]
          refine .kept ?_
          cases persist.result with
          | error => rfl
          | ok => exact decide_eq_false hhash

def CodeUsed (hash : String) (s : Store) : Prop :=
  ∃ c, s.authorizationCodes.find hash = some c ∧ c.used = true

theorem CodeUsed.answer {hash : String} (h : CodeUsed hash s) (persist : Persist) (c : Call) :
    CodeUsed hash (answer persist s c).2 := by
  obtain ⟨code, hfind, hused⟩ := h
  have hstep := codeStep persist s hash c
  show ∃ code, (OAuth.answer persist s c).2.authorizationCodes.find hash = some code ∧ _
  generalize (OAuth.answer persist s c).2.authorizationCodes.find hash = found at hstep ⊢
  cases hstep with
  | kept => exact ⟨code, hfind, hused⟩
  | used _ _ _ => exact ⟨_, rfl, rfl⟩

/-! ## The claim on a code -/

variable {st : SharedState} {hash : String}

def Consumes (hash : String) (_ : Request) (ph : CodePhase) : Prop :=
  ∃ c, ph = .consumed c ∧ c.codeHash = hash

theorem claims_code (persist : Persist) (s : Store) (q : Request) (ph : CodePhase) (c : Call)
    (hcall : (exchangeProtocol st q).calls ph c) (hph : ¬ Consumes hash q ph)
    (hnext : Consumes hash q ((exchangeProtocol st q).next ph c (answer persist s c).1)) :
    ¬ CodeUsed hash s ∧ CodeUsed hash (answer persist s c).2 := by
  cases q with
  | authorizationCode =>
    cases hcall with
    | read =>
      obtain ⟨c, hc, -⟩ := hnext
      change codeAfterRead _ _ _ = _ at hc
      rw [codeAfterRead] at hc
      split at hc <;> cases hc
    | issue => exact absurd hnext hph
    | @mark code =>
      have hstep := codeStep persist s hash (.markAuthorizationCodeUsed code)
      generalize (answer persist s (.markAuthorizationCodeUsed code)).1 = a at hstep hnext
      cases a with
      | error =>
        obtain ⟨c, hc, -⟩ := hnext
        cases hc
      | ok =>
        obtain ⟨c, hc, hhash⟩ := hnext
        cases hc
        show _ ∧ ∃ c, (answer persist s (.markAuthorizationCodeUsed code)).2.authorizationCodes.find
          hash = some c ∧ c.used = true
        generalize (answer persist s (.markAuthorizationCodeUsed code)).2.authorizationCodes.find
          hash = found at hstep ⊢
        cases hstep with
        | kept h => exact absurd hhash (of_decide_eq_false h)
        | used _ hstored hunused =>
          refine ⟨fun ⟨c, hfind, hused⟩ => ?_, _, rfl, rfl⟩
          rw [hstored] at hfind
          cases hfind
          rw [hunused] at hused
          cases hused
  | _ => exact absurd hnext hph

/-! ## The trail of a code -/

variable {ph : CodePhase} {h : List StoreEvent} {m m' : Served Store Request CodePhase}
  {e : StoreEvent}

section

variable (st : SharedState)

def CodeRun.Presents (q : CodeRun) (hash : String) : Prop :=
  ∃ code, q.code = some code ∧ st.sha256Base64url code = hash

structure CodeRun.Matches (q : CodeRun) (c : AuthorizationCode) : Prop where
  code : q.Presents st c.codeHash
  redirectUri : q.redirectUri = some c.redirectUri
  client : c.clientId = q.client.clientId
  realm : c.realmId = q.client.realmId
  verifier : verifyCodeVerifier st c.codeChallenge c.codeChallengeMethod
    (q.codeVerifier.getD "") = true
  unexpired : q.run.now < c.expiresAt
  unused : c.used = false

variable {st} in
theorem matches_of_checkedCode {code redirectUri : String}
    (hp : presentedCode q = .ok (code, redirectUri))
    (h : checkedCode st q (s.authorizationCodes.find (st.sha256Base64url code)) = .ok c) :
    s.authorizationCodes.find (st.sha256Base64url code) = some c ∧ q.Matches st c := by
  rw [checkedCode, hp] at h
  have h : checkAuthorizationCode st q redirectUri
    (s.authorizationCodes.find (st.sha256Base64url code)) = .ok c := h
  simp only [presentedCode, checkAuthorizationCode, bind_eq_ok, okOr_eq_ok, ensure_eq_ok,
    pure_eq_ok] at hp h
  obtain ⟨code', hcode, uri, huri, heq⟩ := hp
  cases heq
  obtain ⟨c', hfind, -, ⟨hunused, hnow, hredirect, hclient, hrealm⟩, -, hverifier, rfl⟩ := h
  have hkey : c'.codeHash = st.sha256Base64url code := s.authorizationCodes.keyed _ _ hfind
  exact ⟨hfind, ⟨code, hcode, hkey.symm⟩, hredirect ▸ huri, hclient, hrealm, hverifier, hnow,
    hunused⟩

def CodePhase.copy : CodePhase → Option AuthorizationCode
  | .checked c | .consumed c => some c
  | _ => none

def CodePhase.isOver : CodePhase → Bool
  | .consumed _ | .refused => true
  | _ => false

variable (hash : String) (c₀ : AuthorizationCode)

def ReadBy (h : List StoreEvent) (i : Nat) : Prop :=
  ∃ e ∈ h, ∃ persist, e.call = .advance i persist ∧
    e.reply = some ⟨.getAuthorizationCode hash, .ok (some c₀)⟩

structure HeldCode (h : List StoreEvent) (i : Nat) (q : CodeRun) (c : AuthorizationCode) :
    Prop where
  presented : q.Presents st c.codeHash
  read : c.codeHash = hash → c = c₀ ∧ q.Matches st c₀ ∧ ReadBy hash c₀ h i

/-- A request that is entitled to the code and makes no mark any more has used it up, or another
endpoint. -/
def SpentCode (h : List StoreEvent) (m : Served Store Request CodePhase) : Prop :=
  (∃ (i : Nat) (q : CodeRun) (ph : CodePhase), m.jobs[i]? = some (.authorizationCode q, ph) ∧
    q.Matches st c₀ ∧ ph.isOver = true) ∨
  ∃ e ∈ h, ∃ code persist, e.call = .outside (.markAuthorizationCodeUsed code) persist

structure CodeTrail (h : List StoreEvent) (m : Served Store Request CodePhase) : Prop where
  stored : m.shared.authorizationCodes.find hash = some c₀ ∨
    m.shared.authorizationCodes.find hash = some { c₀ with used := true } ∧ SpentCode st c₀ h m
  held : ∀ (i : Nat) (q : CodeRun) (ph : CodePhase) (c : AuthorizationCode),
    m.jobs[i]? = some (.authorizationCode q, ph) → ph.copy = some c → HeldCode st hash c₀ h i q c

variable {st hash c₀}

theorem HeldCode.mono (hc : HeldCode st hash c₀ h i q c) (e : StoreEvent) :
    HeldCode st hash c₀ (h ++ [e]) i q c := by
  refine ⟨hc.presented, fun hhash => ?_⟩
  obtain ⟨heq, hmatches, e', he', hread⟩ := hc.read hhash
  exact ⟨heq, hmatches, e', List.mem_append_left _ he', hread⟩

theorem SpentCode.moved (hspent : SpentCode st c₀ h m)
    (hmoved : Moved (exchangeProtocol st) exchangeStart answer m e m') :
    SpentCode st c₀ (h ++ [e]) m' := by
  rcases hspent with ⟨i, q, ph, hjob, hmatches, hover⟩ | ⟨e', he', hout⟩
  · refine Or.inl ?_
    rcases hmoved.job hjob with hjob' | ⟨persist, c, hcall, -, hjob'⟩
    · exact ⟨i, q, ph, hjob', hmatches, hover⟩
    · refine ⟨i, q, _, hjob', hmatches, ?_⟩
      cases hcall with
      | read | mark => cases hover
      | issue => rfl
  · exact Or.inr ⟨e', List.mem_append_left _ he', hout⟩

variable (hm : CodeTrail st hash c₀ h m)
include hm

theorem CodeTrail.eq_of_unused (hfind : m.shared.authorizationCodes.find hash = some c)
    (hunused : c.used = false) : c = c₀ := by
  rcases hm.stored with hstored | ⟨hstored, -⟩
  · rw [hfind] at hstored
    exact Option.some.inj hstored
  · rw [hfind] at hstored
    cases hstored
    cases hunused

theorem CodeTrail.held_next {c : Call} (persist : Persist)
    (hjob : m.jobs[i]? = some (.authorizationCode q, ph)) (hcall : CodeCall st q ph c)
    {copy : AuthorizationCode}
    (hcopy : (codeNext st q ph c (answer persist m.shared c).1).copy = some copy)
    (he : e = { before := m.shared
                call := .advance i persist
                reply := some ⟨c, (answer persist m.shared c).1⟩
                after := (answer persist m.shared c).2 }) :
    HeldCode st hash c₀ (h ++ [e]) i q copy := by
  cases hcall with
  | @read code redirectUri hp =>
    obtain ⟨hfind, hmatches⟩ := matches_of_checkedCode hp (by
      change (codeAfterRead st q _).copy = _ at hcopy
      rw [codeAfterRead] at hcopy
      split at hcopy
      · cases hcopy
        assumption
      · cases hcopy)
    have hkey : copy.codeHash = st.sha256Base64url code :=
      m.shared.authorizationCodes.keyed _ _ hfind
    refine ⟨hmatches.code, fun hhash => ?_⟩
    rw [hkey] at hhash
    subst hhash
    have heq := hm.eq_of_unused hfind hmatches.unused
    subst heq
    refine ⟨rfl, hmatches, e, List.mem_append_cons_self, persist, ?_⟩
    rw [he]
    refine ⟨rfl, ?_⟩
    show some (⟨.getAuthorizationCode _, .ok (m.shared.authorizationCodes.find _)⟩ :
      (c : Call) × c.Answer) = _
    rw [hfind]
  | @mark code =>
    have hheld := hm.held i q _ code hjob rfl
    generalize (answer persist m.shared (.markAuthorizationCodeUsed code)).1 = a at hcopy
    cases a with
    | error => cases hcopy
    | ok =>
      cases hcopy
      exact hheld.mono e
  | issue =>
    cases hcopy
    exact (hm.held i q _ copy hjob rfl).mono e

theorem CodeTrail.stored_answer (persist : Persist) (c : Call) :
    (answer persist m.shared c).2.authorizationCodes.find hash =
        m.shared.authorizationCodes.find hash ∨
      ∃ code, c = .markAuthorizationCodeUsed code ∧ code.codeHash = hash ∧
        (answer persist m.shared c).2.authorizationCodes.find hash =
          some { c₀ with used := true } := by
  have hstep := codeStep persist m.shared hash c
  generalize (answer persist m.shared c).2.authorizationCodes.find hash = found at hstep ⊢
  cases hstep with
  | kept => exact Or.inl rfl
  | @used code stored a hhash hstored hunused =>
    rw [hm.eq_of_unused hstored hunused]
    exact Or.inr ⟨code, rfl, hhash, rfl⟩

variable (hmoved : Moved (exchangeProtocol st) exchangeStart answer m e m')
include hmoved

theorem CodeTrail.stored_moved :
    m'.shared.authorizationCodes.find hash = some c₀ ∨
      m'.shared.authorizationCodes.find hash = some { c₀ with used := true } ∧
        SpentCode st c₀ (h ++ [e]) m' := by
  have hkept (heq : m'.shared.authorizationCodes.find hash =
      m.shared.authorizationCodes.find hash) :
      m'.shared.authorizationCodes.find hash = some c₀ ∨
        m'.shared.authorizationCodes.find hash = some { c₀ with used := true } ∧
          SpentCode st c₀ (h ++ [e]) m' := by
    rw [heq]
    exact hm.stored.imp_right fun hstored => ⟨hstored.1, hstored.2.moved hmoved⟩
  cases hmoved with
  | arrive | idle => exact hkept rfl
  | outside c persist =>
    rcases hm.stored_answer persist c with heq | ⟨code, rfl, -, hused⟩
    · exact hkept heq
    · refine Or.inr ⟨hused, Or.inr ⟨_, List.mem_append_cons_self, ?_⟩⟩
      exact ⟨code, persist, rfl⟩
  | advance i persist q ph c hjob hcall =>
    rcases hm.stored_answer persist c with heq | ⟨code, rfl, hhash, hused⟩
    · exact hkept heq
    · refine Or.inr ⟨hused, Or.inl ?_⟩
      cases q with
      | authorizationCode q =>
        cases hcall with
        | mark =>
          have hmatches := ((hm.held i q _ code hjob rfl).read hhash).2.1
          refine ⟨i, q, _, List.getElem?_set_self (List.getElem?_eq_some_iff.mp hjob).1,
            hmatches, ?_⟩
          generalize (answer persist m.shared (.markAuthorizationCodeUsed code)).1 = a
          cases a with
          | _ => rfl
        | issue hc => cases hc
      | _ => cases hcall

theorem CodeTrail.moved : CodeTrail st hash c₀ (h ++ [e]) m' := by
  refine ⟨hm.stored_moved hmoved, fun i q ph c hi hcopy => ?_⟩
  rcases hmoved.of_job hi with hi | ⟨hstart, -⟩ | ⟨ph₀, persist, call, hi, hcall, he, hnext⟩
  · exact (hm.held i q ph c hi hcopy).mono e
  · rw [hstart] at hcopy
    cases hcopy
  · rw [hnext] at hcopy
    exact hm.held_next persist hi hcall hcopy he

end

section

variable {later : List Request}

/-- Nobody else is entitled to the code or marks it. -/
structure SoleClaimant (st : SharedState) (c₀ : AuthorizationCode) (acts : List Act) (i : Nat) :
    Prop where
  others : ∀ (j : Nat) (q : CodeRun), j ≠ i → (arrivals acts)[j]? = some (.authorizationCode q) →
    ¬ q.Matches st c₀
  outside : ∀ code persist, Service.Act.outside (.markAuthorizationCodeUsed code) persist ∉ acts

/-- What holds of a code `c₀`, stored under `hash` at the start. -/
structure CodeSafe (st : SharedState) (hash : String) (c₀ : AuthorizationCode) (start : Store)
    (acts : List Act) : Prop where
  /-- At most one request that presents the code returns tokens. -/
  once : ∀ {i j : Nat} {q q' : CodeRun} {r r' : TokenResponse},
    (arrivals acts)[i]? = some (.authorizationCode q) → q.Presents st hash →
    (arrivals acts)[j]? = some (.authorizationCode q') → q'.Presents st hash →
    Succeeded (final (step st) (opened start) acts) i r →
    Succeeded (final (step st) (opened start) acts) j r' → i = j
  /-- It is entitled to the code, which was unused when it was read. -/
  entitled : ∀ {i : Nat} {q : CodeRun} {r : TokenResponse},
    (arrivals acts)[i]? = some (.authorizationCode q) → q.Presents st hash →
    Succeeded (final (step st) (opened start) acts) i r →
    q.Matches st c₀ ∧ ReadBy hash c₀ (trace st (opened start) acts) i
  /-- A request that is not entitled to the code leaves it as it is. -/
  failing : ∀ e ∈ trace st (opened start) acts, ∀ (i : Nat) (persist : Persist) (req : Request),
    e.call = .advance i persist → (arrivals acts)[i]? = some req →
    (∀ q, req = .authorizationCode q → ¬ q.Matches st c₀) →
    e.after.authorizationCodes.find hash = e.before.authorizationCodes.find hash
  /-- So one that is reads the code as it was stored, and its mark is accepted. -/
  available : ∀ e ∈ trace st (opened start) acts, ∀ (i : Nat) (q : CodeRun),
    e.call = .advance i .done → (arrivals acts)[i]? = some (.authorizationCode q) →
    SoleClaimant st c₀ acts i →
    (∀ a, e.reply = some ⟨.getAuthorizationCode hash, a⟩ → a = .ok (some c₀)) ∧
    ∀ c a, c.codeHash = hash → e.reply = some ⟨.markAuthorizationCodeUsed c, a⟩ → a = .ok ()

variable {c₀ : AuthorizationCode} {start : Store} {acts : List Act}

theorem codeTrail_run (hstart : start.authorizationCodes.find hash = some c₀) (acts : List Act) :
    ∃ m, Reached (exchangeProtocol st) exchangeReturns
        (final (step st) (opened start) acts) m ∧
      m.jobs.map Prod.fst = arrivals acts ∧
      CodeTrail st hash c₀ (trace st (opened start) acts) m ∧
      Claimed (CodeUsed hash) (Consumes hash) m := by
  refine Service.track answer (exchange_serve st) (I := fun h m =>
      CodeTrail st hash c₀ h m ∧ Claimed (CodeUsed hash) (Consumes hash) m)
    (fun h m e m' hinv hmoved => ?_) (reached_opened start) (h := [])
    ⟨⟨Or.inl hstart, fun i q ph c hi => by cases hi⟩, claimed_opened start⟩ acts
  refine ⟨hinv.1.moved hmoved, hinv.2.moved ?_ (fun persist s c hs => hs.answer persist c)
    claims_code hmoved⟩
  intro q hq
  obtain ⟨c, hc, -⟩ := hq
  cases q <;> cases hc

theorem CodeTrail.consumed {w : Endpoint} (hm : CodeTrail st hash c₀ h m)
    (hw : Reached (exchangeProtocol st) exchangeReturns w m)
    (hrequests : m.jobs.map Prod.fst = arrivals acts) {r : TokenResponse}
    (hi : (arrivals acts)[i]? = some (.authorizationCode q)) (hq : q.Presents st hash)
    (hr : Succeeded w i r) :
    ∃ c, m.jobs[i]? = some (.authorizationCode q, .consumed c) ∧ c.codeHash = hash := by
  obtain ⟨req, ph, hjob, hlead⟩ := hw.job hr
  have hreq : Request.authorizationCode q = req :=
    request_eq hjob (by rw [List.append_nil, hrequests]; exact hi)
  subst hreq
  have hret : codeReturns ph (.ok r) := hlead
  cases ph with
  | consumed c =>
    refine ⟨c, hjob, ?_⟩
    obtain ⟨code, hcode, hhash⟩ := hq
    obtain ⟨code', hcode', hhash'⟩ := (hm.held i q _ c hjob rfl).presented
    rw [hcode] at hcode'
    cases hcode'
    rw [← hhash', hhash]
  | _ => exact hret.elim

/-- When nobody else is entitled to the code, a request that has yet to mark it finds it as
it was stored. -/
theorem CodeTrail.stored_of_sole (hm : CodeTrail st hash c₀ h m) (hsole : SoleClaimant st c₀ acts i)
    (hrequests : arrivals acts = m.jobs.map Prod.fst ++ later) (hcalls : ∀ e ∈ h, e.call ∈ acts)
    (hjob : m.jobs[i]? = some (.authorizationCode q, ph)) (hopen : ph.isOver = false) :
    m.shared.authorizationCodes.find hash = some c₀ := by
  rcases hm.stored with hstored | ⟨-, ⟨j, q', ph', hjob', hmatches, hover⟩ | ⟨e, he, hout⟩⟩
  · exact hstored
  · by_cases hij : j = i
    · subst hij
      rw [hjob] at hjob'
      cases hjob'
      rw [hopen] at hover
      cases hover
    · refine absurd hmatches (hsole.others j q' hij ?_)
      rw [hrequests, List.getElem?_append_left, List.getElem?_map, hjob']
      · rfl
      · rw [List.length_map]
        exact (List.getElem?_eq_some_iff.mp hjob').1
  · obtain ⟨code, persist, hcall⟩ := hout
    exact absurd (hcall ▸ hcalls e he) (hsole.outside code persist)

theorem CodeTrail.available (hm : CodeTrail st hash c₀ h m)
    (hmoved : Moved (exchangeProtocol st) exchangeStart answer m e m')
    (hact : e.call = .advance i .done) (hi : (arrivals acts)[i]? = some (.authorizationCode q))
    (hsole : SoleClaimant st c₀ acts i) (hrequests : arrivals acts = m.jobs.map Prod.fst ++ later)
    (hcalls : ∀ e ∈ h, e.call ∈ acts) :
    (∀ a, e.reply = some ⟨.getAuthorizationCode hash, a⟩ → a = .ok (some c₀)) ∧
    ∀ c a, c.codeHash = hash → e.reply = some ⟨.markAuthorizationCodeUsed c, a⟩ → a = .ok () := by
  cases hmoved with
  | arrive | outside => cases hact
  | idle => exact ⟨fun a ha => (by cases ha), fun c a _ ha => (by cases ha)⟩
  | advance i persist req ph c hjob hcall =>
    cases hact
    have hq := request_eq hjob (hrequests ▸ hi)
    subst hq
    have hstored := fun hopen => hm.stored_of_sole hsole hrequests hcalls hjob hopen
    refine ⟨fun a ha => ?_, fun code a hhash ha => ?_⟩
    · cases ha
      cases hcall with
      | read => exact congrArg Except.ok (hstored rfl)
      | issue hc => cases hc
    · cases ha
      cases hcall with
      | mark =>
        obtain ⟨rfl, hmatches, -⟩ := (hm.held i q _ code hjob rfl).read hhash
        subst hhash
        have hfilter : (m.shared.authorizationCodes.find code.codeHash).filter
            (Store.authCodeOwnerMatches · code) = some code := by
          rw [hstored rfl]
          exact Option.filter_eq_some_iff.mpr ⟨rfl, by simp [Store.authCodeOwnerMatches]⟩
        show (m.shared.markAuthorizationCodeUsed .done code).1 = .ok ()
        rw [Store.markAuthorizationCodeUsed, hfilter]
        dsimp only
        rw [hmatches.unused]
        rfl
      | issue hc => cases hc

/-- Authorization codes are safe in every run. -/
theorem code_exchange_safe (hstart : start.authorizationCodes.find hash = some c₀) :
    CodeSafe st hash c₀ start acts := by
  have hevent := fun e (he : e ∈ trace st (opened start) acts) =>
    Service.track_event answer (exchange_serve st)
      (I := fun h m => CodeTrail st hash c₀ h m ∧ Claimed (CodeUsed hash) (Consumes hash) m)
      (fun acts₁ _ _ => codeTrail_run hstart acts₁) he
  refine ⟨?_, ?_, ?_, ?_⟩
  · intro i j q q' r r' hi hq hj hq' hr hr'
    obtain ⟨m, hw, hrequests, hm, hclaimed⟩ := codeTrail_run hstart acts
    obtain ⟨c, hjob, hc⟩ := hm.consumed hw hrequests hi hq hr
    obtain ⟨c', hjob', hc'⟩ := hm.consumed hw hrequests hj hq' hr'
    exact hclaimed.unique hjob ⟨c, rfl, hc⟩ hjob' ⟨c', rfl, hc'⟩
  · intro i q r hi hq hr
    obtain ⟨m, hw, hrequests, hm, -⟩ := codeTrail_run hstart acts
    obtain ⟨c, hjob, hc⟩ := hm.consumed hw hrequests hi hq hr
    exact ((hm.held i q _ c hjob rfl).read hc).2
  · intro e he i persist req hact hi hnot
    obtain ⟨pre, post, m, m', later, -, ⟨hm, -⟩, hmoved, hrequests⟩ := hevent e he
    rw [hrequests] at hi
    cases hmoved with
    | arrive | outside => cases hact
    | idle => rfl
    | advance i persist q ph c hjob hcall =>
      cases hact
      have hq := request_eq hjob hi
      subst hq
      rcases hm.stored_answer persist c with heq | ⟨code, rfl, hhash, -⟩
      · exact heq
      · cases req with
        | authorizationCode q =>
          cases hcall with
          | mark => exact absurd ((hm.held i q _ code hjob rfl).read hhash).2.1 (hnot q rfl)
          | issue hc => cases hc
        | _ => cases hcall
  · intro e he i q hact hi hsole
    obtain ⟨pre, post, m, m', later, htrace, ⟨hm, -⟩, hmoved, hrequests⟩ := hevent e he
    refine hm.available hmoved hact hi hsole hrequests fun e' he' => ?_
    exact call_mem_of_mem_trace (htrace ▸ List.mem_append_left _ he')

end

def sampleCode : AuthorizationCode :=
  { codeHash := "code", clientId := "app", userId := "alice", realmId := "main"
    redirectUri := "https://app.example/cb", nonce := none, authTime := none, acr := none
    amr := [], codeChallenge := some "verifier", codeChallengeMethod := some "S256"
    scopes := ["openid"], resource := [], authorizationDetails := none, expiresAt := 300
    used := false, sessionId := none }

def sampleExchange (verifier ulid : String) : CodeRun :=
  { code := some "code", redirectUri := some "https://app.example/cb"
    codeVerifier := some verifier, client := sampleClient, cnf := none, run := sampleRun 200 ulid }

def sampleExchanges : List Act :=
  [.arrive (.authorizationCode (sampleExchange "guess" "1")),
    .arrive (.authorizationCode (sampleExchange "verifier" "2")),
    .advance 1 .done, .advance 0 .done, .advance 1 .done, .advance 1 .done, .advance 1 .done,
    .advance 1 .done]

def sampleCodeStore : Store := { sampleStore with authorizationCodes := Table.empty.put sampleCode }

theorem code_exchange_safe_sample :
    CodeSafe sampleState "code" sampleCode sampleCodeStore sampleExchanges ∧
    (∃ r, Succeeded (final (step sampleState) (opened sampleCodeStore) sampleExchanges) 1 r) ∧
    ReadBy "code" sampleCode (trace sampleState (opened sampleCodeStore) sampleExchanges) 1 := by
  have hsafe : CodeSafe sampleState "code" sampleCode sampleCodeStore sampleExchanges :=
    code_exchange_safe (Table.find_put_self _ _)
  have hr : ∃ r, Succeeded (final (step sampleState) (opened sampleCodeStore) sampleExchanges) 1
      r := ⟨_, rfl⟩
  exact ⟨hsafe, hr, (hsafe.entitled rfl ⟨"code", rfl, rfl⟩ hr.choose_spec).2⟩

end Qid.OAuth
