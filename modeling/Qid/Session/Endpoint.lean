/-
The login endpoints as a service.

Password logins, TOTP confirmations and TOTP logins run on one repository, interleaved at their
calls, beside calls from elsewhere.
-/
import Qid.Session.Totp

namespace Qid.Session

open Lib Storage

inductive Request where
  | login (q : LoginRun)
  | totpVerify (q : TotpVerifyRun)
  | totpAuthenticate (q : TotpAuthenticateRun)

inductive Response where
  | authenticated (r : AuthResult)
  | verified (status : String)
  | session (r : TotpAuthenticateResponse)
  deriving DecidableEq

variable (st : SharedState)

def serve : Request → Login Response
  | .login q => do
    let r ← authenticatePassword (st.authenticator q.realmId) q
    return .authenticated r
  | .totpVerify q => do
    let status ← totpVerify st q
    return .verified status
  | .totpAuthenticate q => do
    let r ← totpAuthenticate st q
    return .session r

abbrev Endpoint : Type := Pool Store Call Call.Answer (QidResult Response)

abbrev Act : Type := Service.Act Request Call Env

abbrev StoreEvent : Type := Event Store Act (Option ((c : Call) × c.Answer))

def step (w : Endpoint) (a : Act) : Option ((c : Call) × c.Answer) × Endpoint :=
  Service.step (serve st) answer w a

def trace (w : Endpoint) (acts : List Act) : List StoreEvent :=
  Service.trace (serve st) answer w acts

/-! ## A small endpoint

One realm, where the code of a time step is its number. -/

def sampleState : SharedState where
  plan := [{ id := "main", totpEnabled := true
             browserSession := { cookieName := "qid", sameSite := "Lax", idleTimeoutMinutes := 5
                                 absoluteTimeoutHours := 1 } }]
  authenticator _ := sampleAuthenticator
  generateCode _ _ step := .ok (toString step)
  headerValue := .ok

def savedStep (i : Nat) : Act := .advance i Env.saved

end Qid.Session
