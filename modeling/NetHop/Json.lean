import Mathlib.Logic.Basic

/-!
# JSON values

Values as a JSON library holds them in memory.  A number is kept in the form it was
written in: a non-negative integer, a negative one, or the bits of a float.
-/

namespace NetHop

inductive Number where
  | unsigned (value : Nat)
  | negative (magnitude : Nat)
  | float (bits : UInt64)
  deriving DecidableEq

inductive Json where
  | null
  | bool (value : Bool)
  | number (value : Number)
  | string (value : String)
  | array (values : List Json)
  | object (members : List (String × Json))

namespace Json

def isNull : Json → Bool
  | .null => true
  | _ => false

def isObject : Json → Bool
  | .object _ => true
  | _ => false

mutual

def depth : Json → Nat
  | .array values => depthValues values + 1
  | .object members => depthMembers members + 1
  | _ => 0

def depthValues : List Json → Nat
  | [] => 0
  | value :: values => max (depth value) (depthValues values)

def depthMembers : List (String × Json) → Nat
  | [] => 0
  | (_, value) :: members => max (depth value) (depthMembers members)

end

end Json

/-- A JSON library: how values are written as text and read back.  A reader may refuse text
that is nested deeper than its limit. -/
structure JsonText where
  render : Json → String
  parse : String → Option Json
  limit : Option Nat

namespace JsonText

def WithinLimit (T : JsonText) (j : Json) : Prop := ∀ n ∈ T.limit, j.depth ≤ n

instance (T : JsonText) (j : Json) : Decidable (T.WithinLimit j) := by
  unfold WithinLimit
  infer_instance

/-- The text of the value is read as that value, up to the limit. -/
def Faithful (T : JsonText) (j : Json) : Prop :=
  T.parse (T.render j) = if T.WithinLimit j then some j else none

end JsonText

end NetHop
