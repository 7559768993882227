/-
JSON values.

`Value` is `serde_json::Value` without the `preserve_order` and `arbitrary_precision` features: a
number is an unsigned integer, a negative integer or a float, and an object is sorted by its keys.
-/
import Qid.Core.Basic

namespace Qid.Json

/-- `serde_json` refuses a float that is not finite. -/
structure FiniteFloat where
  toFloat : Float
  /-- Only a NaN differs from itself. -/
  self_eq : (toFloat == toFloat) = true

inductive Number where
  | posInt (n : UInt64)
  /-- Always below zero. -/
  | negInt (i : Int64)
  /-- Always finite. -/
  | float (f : FiniteFloat)

namespace Number

def beq : Number → Number → Bool
  | posInt a, posInt b | negInt a, negInt b => a == b
  | float a, float b => a.toFloat == b.toFloat
  | _, _ => false

instance : BEq Number := ⟨beq⟩

def asU64 : Number → Option UInt64
  | posInt n => some n
  | _ => none

def asI64 : Number → Option Int64
  | posInt n => if n.toNat < 2 ^ 63 then some n.toInt64 else none
  | negInt i => some i
  | float _ => none

def asF64 : Number → Option Float
  | posInt n => some n.toFloat
  | negInt i => some i.toFloat
  | float f => some f.toFloat

theorem beq_refl (n : Number) : (n == n) = true := by
  cases n with
  | posInt n => exact beq_self_eq_true n
  | negInt i => exact beq_self_eq_true i
  | float f => exact f.self_eq

end Number

inductive Value where
  | null
  | bool (b : Bool)
  | number (n : Number)
  | string (s : String)
  | array (items : List Value)
  | object (fields : List (String × Value))

namespace Value

mutual

def beq : Value → Value → Bool
  | null, null => true
  | bool a, bool b | number a, number b | string a, string b => a == b
  | array a, array b => beqItems a b
  | object a, object b => beqFields a b
  | _, _ => false

def beqItems : List Value → List Value → Bool
  | [], [] => true
  | a :: as, b :: bs => beq a b && beqItems as bs
  | _, _ => false

def beqFields : List (String × Value) → List (String × Value) → Bool
  | [], [] => true
  | (k, a) :: as, (l, b) :: bs => k == l && beq a b && beqFields as bs
  | _, _ => false

end

instance : BEq Value := ⟨beq⟩

mutual

theorem beq_refl : (v : Value) → beq v v = true
  | null => rfl
  | bool b => beq_self_eq_true b
  | number n => n.beq_refl
  | string s => beq_self_eq_true s
  | array items => beqItems_refl items
  | object fields => beqFields_refl fields

theorem beqItems_refl : (items : List Value) → beqItems items items = true
  | [] => rfl
  | v :: items => by rw [beqItems, beq_refl v, beqItems_refl items, Bool.and_self]

theorem beqFields_refl : (fields : List (String × Value)) → beqFields fields fields = true
  | [] => rfl
  | (k, v) :: fields => by
    rw [beqFields, beq_refl v, beqFields_refl fields, beq_self_eq_true, Bool.and_self,
      Bool.and_self]

end

@[simp] theorem beq_self (v : Value) : (v == v) = true := beq_refl v

def get (key : String) : Value → Option Value
  | object fields => fields.lookup key
  | _ => none

def asStr : Value → Option String
  | string s => some s
  | _ => none

def asU64 : Value → Option UInt64
  | number n => n.asU64
  | _ => none

def isObject : Value → Bool
  | object _ => true
  | _ => false

def insertField (key : String) (v : Value) : List (String × Value) → List (String × Value)
  | [] => [(key, v)]
  | (k, w) :: fields =>
    if key < k then (key, v) :: (k, w) :: fields else (k, w) :: insertField key v fields

/-- `entry(key).or_insert(v)`, for an object. -/
def entryOrInsert (key : String) (v : Value) : Value → Value
  | object fields =>
    if (fields.lookup key).isSome then object fields else object (insertField key v fields)
  | w => w

end Value

def hexDigit (n : Nat) : Char :=
  if n < 10 then Char.ofNat (0x30 + n) else Char.ofNat (0x61 + (n - 10))

/-- How `serde_json` writes one character of a string. -/
def escapeChar (c : Char) : String :=
  if c = '"' then "\\\""
  else if c = '\\' then "\\\\"
  else if c.toNat = 0x08 then "\\b"
  else if c.toNat = 0x09 then "\\t"
  else if c.toNat = 0x0A then "\\n"
  else if c.toNat = 0x0C then "\\f"
  else if c.toNat = 0x0D then "\\r"
  else if c.toNat < 0x20 then
    "\\u00" ++ String.ofList [hexDigit (c.toNat / 16), hexDigit (c.toNat % 16)]
  else String.ofList [c]

def encodeString (s : String) : String := "\"" ++ String.join (s.toList.map escapeChar) ++ "\""

def encodeObject (fields : List (String × String)) : String :=
  "\x7b" ++ ",".intercalate (fields.map fun f => encodeString f.1 ++ ":" ++ f.2) ++ "\x7d"

def encodeArray (items : List String) : String := "[" ++ ",".intercalate items ++ "]"

end Qid.Json
