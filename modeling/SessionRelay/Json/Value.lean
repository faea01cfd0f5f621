import SessionRelay.KeyTable
import SessionRelay.Number.Binary64

/-!
JSON values. A number is a whole number of 64 bits, with or without a sign, or a double.
-/

namespace SessionRelay.Json

/-- A number: whole, or a double. -/
inductive Number where
  | integer (n : Int)
  | double (x : Binary64)
  deriving DecidableEq, Repr, Inhabited

def Number.toDouble : Number → Binary64
  | .integer n => Binary64.ofInt n
  | .double x => x

/-- A JSON value. The members of an object are written in the order in which they stand; an object
that was read has them in the order of their names. -/
inductive Value where
  | null
  | bool (b : Bool)
  | number (n : Number)
  | string (s : String)
  | array (items : List Value)
  | object (members : List (String × Value))
  deriving Repr, BEq, Inhabited

namespace Value

/-- A whole number that is not negative. -/
def nat (n : Nat) : Value := .number (.integer n)

/-- A value, or null for none. -/
def ofOption (v : Option Value) : Value := v.getD .null

def text? : Value → Option String
  | .string s => some s
  | _ => none

def nat? : Value → Option Nat
  | .number (.integer n) => if 0 ≤ n then some n.toNat else none
  | _ => none

def bool? : Value → Option Bool
  | .bool b => some b
  | _ => none

def items? : Value → Option (List Value)
  | .array items => some items
  | _ => none

def members? : Value → Option (List (String × Value))
  | .object members => some members
  | _ => none

def member? (v : Value) (key : String) : Option Value :=
  v.members?.bind (KeyTable.value? key)

end Value

end SessionRelay.Json
