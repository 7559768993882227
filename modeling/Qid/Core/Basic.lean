/-
Errors and text of the core crate.

The text functions are those of the Rust standard library, and lengths are counted in UTF-8 bytes.
-/
import Mathlib.Algebra.Group.Nat.Defs
import Mathlib.Data.List.Basic

namespace Qid

inductive QidError where
  | config (message : String)
  | crypto (message : String)
  | storage (message : String)
  | notFound (resource : String)
  | unauthorized (message : String)
  | badRequest (message : String)
  | internal (message : String)
  | tooManyRequests (message : String)
  | attemptBudgetSpent (message : String)
  | conflict (message : String)
  | dpopNonce (message : String)
  deriving DecidableEq

abbrev QidResult : Type → Type := Except QidError

def QidError.message : QidError → String
  | config message => "config error: " ++ message
  | crypto message => "crypto error: " ++ message
  | storage message => "storage error: " ++ message
  | notFound resource => resource ++ " not found"
  | unauthorized message => "unauthorized: " ++ message
  | badRequest message => "bad request: " ++ message
  | internal message => "internal error: " ++ message
  | tooManyRequests message => "too many requests: " ++ message
  | attemptBudgetSpent message => "attempt budget spent: " ++ message
  | conflict message => "conflict: " ++ message
  | dpopNonce message => "bad request: " ++ message

def QidError.statusCode : QidError → Nat
  | config _ => 422
  | crypto _ => 400
  | storage _ => 503
  | notFound _ => 404
  | unauthorized _ => 401
  | badRequest _ => 400
  | internal _ => 500
  | tooManyRequests _ | attemptBudgetSpent _ => 429
  | conflict _ => 409
  | dpopNonce _ => 400

/-- The Unicode property `White_Space`. -/
def isWhitespace (c : Char) : Bool :=
  let n := c.toNat
  (0x09 ≤ n && n ≤ 0x0D) || n == 0x20 || n == 0x85 || n == 0xA0 || n == 0x1680 ||
    (0x2000 ≤ n && n ≤ 0x200A) || n == 0x2028 || n == 0x2029 || n == 0x202F ||
    n == 0x205F || n == 0x3000

/-- The general category `Cc`. -/
def isControl (c : Char) : Bool :=
  let n := c.toNat
  n ≤ 0x1F || (0x7F ≤ n && n ≤ 0x9F)

def trim (s : String) : String :=
  String.ofList (((s.toList.dropWhile isWhitespace).reverse.dropWhile isWhitespace).reverse)

variable (p s : String)

def stripPrefix : Option String := (s.toList.dropPrefix? p.toList).map String.ofList

def stripSuffix : Option String := (s.toList.dropSuffix? p.toList).map String.ofList

def startsWith : Bool := p.toList.isPrefixOf s.toList

def endsWith : Bool := p.toList.isSuffixOf s.toList

section

variable {p s} {t : String}

theorem stripPrefix_eq_some : stripPrefix p s = some t ↔ s = p ++ t := by
  simp [stripPrefix, List.dropPrefix?_eq_some_iff, ← String.toList_inj]

theorem stripSuffix_eq_some : stripSuffix p s = some t ↔ s = t ++ p := by
  simp [stripSuffix, List.dropSuffix?_eq_some_iff, ← String.toList_inj]

theorem startsWith_eq_isSome : startsWith p s = (stripPrefix p s).isSome := by
  rw [startsWith, Bool.eq_iff_iff, List.isPrefixOf_iff_prefix, Option.isSome_iff_exists]
  constructor
  · rintro ⟨l, hl⟩
    exact ⟨String.ofList l, stripPrefix_eq_some.mpr (String.toList_inj.mp (by simp [hl]))⟩
  · rintro ⟨t, ht⟩
    simp [stripPrefix_eq_some.mp ht]

end

def toAsciiLowercase (s : String) : String := String.ofList (s.toList.map Char.toLower)

def toAsciiUppercase (s : String) : String := String.ofList (s.toList.map Char.toUpper)

def trimStartMatches (p s : String) : String := String.ofList (strip s.length s.toList)
where
  /-- Each round takes at least one character. -/
  strip : Nat → List Char → List Char
    | 0, s => s
    | n + 1, s => (s.dropPrefix? p.toList).elim s (strip n)

def splitOnce (c : Char) (s : String) : Option (String × String) :=
  let before := s.toList.takeWhile (· ≠ c)
  (s.toList.drop before.length).tail?.map fun after => (String.ofList before, String.ofList after)

def splitWhitespace (s : String) : List String :=
  ((s.toList.splitOnP isWhitespace).filter fun word => !word.isEmpty).map String.ofList

/-- `i64::try_from(n).is_ok()`. -/
def fitsI64 (n : Nat) : Bool := n < 2 ^ 63

/-- The part of a user record that the repository calls read. -/
structure User where
  realmId : String
  deriving DecidableEq

def requireNonEmpty (field value : String) : QidResult Unit :=
  if (trim value).isEmpty then
    throw (.badRequest (field ++ " must not be empty"))
  else
    return ()

end Qid
