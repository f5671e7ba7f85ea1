import Mathlib.Data.List.Basic
import NetHop.Json

/-!
# Editing JSON values

Members of objects by name, and places in a value that are reached through the names of
members.  An edit at one place leaves every place that is apart from it as it was.
-/

namespace NetHop.Json

/-! ## Members -/

def member (key : String) : Json → Option Json
  | .object members => members.lookup key
  | _ => none

/-- `Map::insert`. -/
def setMember (key : String) (value : Json) : List (String × Json) → List (String × Json)
  | [] => [(key, value)]
  | (name, old) :: members =>
    if name = key then (name, value) :: members else (name, old) :: setMember key value members

theorem lookup_setMember (key name : String) (value : Json) (members : List (String × Json)) :
    (setMember key value members).lookup name =
      if name = key then some value else members.lookup name := by
  induction members with
  | nil =>
    by_cases h : name = key
    · simp [setMember, h]
    · simp [setMember, List.lookup_cons, h, beq_eq_false_iff_ne.mpr h]
  | cons m members ih =>
    obtain ⟨first, old⟩ := m
    unfold setMember
    by_cases hfirst : first = key
    · subst hfirst
      by_cases h : name = first
      · simp [h]
      · simp [List.lookup_cons, h, beq_eq_false_iff_ne.mpr h]
    · rw [if_neg hfirst, List.lookup_cons, List.lookup_cons, ih]
      by_cases hname : name = first
      · subst hname
        simp [hfirst]
      · simp [beq_eq_false_iff_ne.mpr hname]

/-! ## Places -/

def getAt : List String → Json → Option Json
  | [], j => some j
  | key :: path, j => (member key j).bind (getAt path)

/-- Puts a value where there is one already. -/
def setAt (value : Json) : List String → Json → Option Json
  | [], _ => some value
  | key :: path, .object members =>
    (members.lookup key).bind fun old =>
      (setAt value path old).map fun new => .object (setMember key new members)
  | _ :: _, _ => none

/-- Two places of which none is inside the other. -/
def Apart : List String → List String → Prop
  | key :: path, key' :: path' => key ≠ key' ∨ Apart path path'
  | _, _ => False

instance : (path path' : List String) → Decidable (Apart path path')
  | key :: path, key' :: path' =>
    have := instDecidableApart path path'
    inferInstanceAs (Decidable (key ≠ key' ∨ Apart path path'))
  | [], _ => isFalse id
  | _ :: _, [] => isFalse id

variable {path : List String} {value j j' : Json}

theorem setAt_cons {key : String} (h : setAt value (key :: path) j = some j') :
    ∃ members old new, j = .object members ∧ members.lookup key = some old ∧
      setAt value path old = some new ∧ j' = .object (setMember key new members) := by
  cases j with
  | object members =>
    obtain ⟨old, hold, h⟩ := Option.bind_eq_some_iff.mp h
    obtain ⟨new, hnew, rfl⟩ := Option.map_eq_some_iff.mp h
    exact ⟨members, old, new, rfl, hold, hnew, rfl⟩
  | _ => cases h

theorem getAt_setAt (h : setAt value path j = some j') : getAt path j' = some value := by
  induction path generalizing j j' with
  | nil => exact h.symm
  | cons key path ih =>
    obtain ⟨members, old, new, rfl, -, hnew, rfl⟩ := setAt_cons h
    have hmember : member key (.object (setMember key new members)) = some new := by
      rw [member, lookup_setMember, if_pos rfl]
    rw [getAt, hmember]
    exact ih hnew

theorem getAt_setAt_apart {other : List String}
    (h : setAt value path j = some j') (hapart : Apart path other) :
    getAt other j' = getAt other j := by
  induction path generalizing other j j' with
  | nil => exact hapart.elim
  | cons key path ih =>
    cases other with
    | nil => exact hapart.elim
    | cons key' other =>
      obtain ⟨members, old, new, rfl, hold, hnew, rfl⟩ := setAt_cons h
      have hmember : member key' (.object (setMember key new members)) =
          if key' = key then some new else members.lookup key' := by
        rw [member, lookup_setMember]
      rw [getAt, getAt, hmember]
      by_cases hkey : key' = key
      · subst hkey
        have hrest : Apart path other := hapart.resolve_left fun hne => hne rfl
        rw [if_pos rfl, member, hold]
        exact ih hnew hrest
      · rw [if_neg hkey]
        rfl

/-! ## Equality -/

mutual

def beq : Json → Json → Bool
  | .null, .null => true
  | .bool a, .bool b => a == b
  | .number a, .number b => a == b
  | .string a, .string b => a == b
  | .array a, .array b => beqValues a b
  | .object a, .object b => beqMembers a b
  | _, _ => false

def beqValues : List Json → List Json → Bool
  | [], [] => true
  | a :: as, b :: bs => beq a b && beqValues as bs
  | _, _ => false

def beqMembers : List (String × Json) → List (String × Json) → Bool
  | [], [] => true
  | (k, a) :: as, (l, b) :: bs => k == l && beq a b && beqMembers as bs
  | _, _ => false

end

end NetHop.Json
