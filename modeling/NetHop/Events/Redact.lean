import NetHop.Json
import NetHop.Text

/-!
# Redaction of events

What the structured log keeps of an event: `redact_sensitive` puts a mark in the place of every
value that stands under a sensitive key, at any depth.
-/

namespace NetHop.Events

open List

def sensitiveKeys : List String := ["url", "password", "secret", "token", "uuid", "authorization"]

def isSensitive (key : String) : Bool := sensitiveKeys.contains (Text.asciiLower key)

def redactedMark : Json := .string "[REDACTED]"

mutual

def redactSensitive : Json → Json
  | .object members => .object (redactMembers members)
  | .array values => .array (redactValues values)
  | value => value

def redactValues : List Json → List Json
  | [] => []
  | value :: values => redactSensitive value :: redactValues values

def redactMembers : List (String × Json) → List (String × Json)
  | [] => []
  | (key, value) :: members =>
    (key, if isSensitive key then redactedMark else redactSensitive value) :: redactMembers members

end

/-! ## Places in a value -/

/-- The parts of a value in order, a member with its key. -/
def parts : Json → List (Option String × Json)
  | .object members => members.map fun m => (some m.1, m.2)
  | .array values => values.map fun value => (none, value)
  | _ => []

/-- What is found at a place, with the keys on the way there.  A place is the position of a part,
of a part of that part, and so on. -/
def follow (value : Json) : List Nat → Option (List (Option String) × Json)
  | [] => some ([], value)
  | i :: place =>
    (parts value)[i]?.bind fun (key, part) =>
      (follow part place).map fun (keys, found) => (key :: keys, found)

/-- A value without its parts: a leaf, the length of an array or the keys of an object. -/
def outline : Json → Json
  | .object members => .object (members.map fun m => (m.1, .null))
  | .array values => .array (values.map fun _ => .null)
  | leaf => leaf

/-- The second value has the mark where the first has a value under a sensitive key, and is the
same above and beside such keys. -/
structure Redacts (value value' : Json) : Prop where
  kept : ∀ place keys found, follow value place = some (keys, found) →
    (∀ key ∈ keys, key.any isSensitive = false) →
      ∃ found', follow value' place = some (keys, found') ∧ outline found' = outline found
  hidden : ∀ place keys key found, follow value place = some (keys ++ [some key], found) →
    (∀ key ∈ keys, key.any isSensitive = false) → isSensitive key = true →
      follow value' place = some (keys ++ [some key], redactedMark)

theorem follow_cons {value found : Json} {i : Nat} {place : List Nat}
    {keys : List (Option String)} : follow value (i :: place) = some (keys, found) ↔
      ∃ key part rest, (parts value)[i]? = some (key, part) ∧
        follow part place = some (rest, found) ∧ keys = key :: rest := by
  simp only [follow, Option.bind_eq_some_iff, Option.map_eq_some_iff, Prod.exists, Prod.mk.injEq]
  constructor
  · rintro ⟨key, part, hpart, rest, found', hfound, rfl, rfl⟩
    exact ⟨key, part, rest, hpart, hfound, rfl⟩
  · rintro ⟨key, part, rest, hpart, hfound, rfl⟩
    exact ⟨key, part, hpart, rest, found, hfound, rfl, rfl⟩

theorem redactValues_eq_map (values : List Json) :
    redactValues values = values.map redactSensitive := by
  induction values with
  | nil => rfl
  | cons value values ih => rw [redactValues, ih, map_cons]

theorem redactMembers_eq_map (members : List (String × Json)) : redactMembers members =
      members.map fun m =>
        (m.1, if isSensitive m.1 then redactedMark else redactSensitive m.2) := by
  induction members with
  | nil => rfl
  | cons m members ih => rw [redactMembers, ih, map_cons]

theorem parts_redactSensitive (value : Json) : parts (redactSensitive value) =
      (parts value).map fun p =>
        (p.1, if p.1.any isSensitive then redactedMark else redactSensitive p.2) := by
  cases value with
  | object members =>
    rw [redactSensitive, redactMembers_eq_map]
    simp [parts]
  | array values =>
    rw [redactSensitive, redactValues_eq_map]
    simp [parts]
  | _ => rfl

theorem outline_redactSensitive (value : Json) :
    outline (redactSensitive value) = outline value := by
  cases value with
  | object members =>
    rw [redactSensitive, redactMembers_eq_map]
    simp only [outline, map_map, Function.comp_def]
  | array values =>
    rw [redactSensitive, redactValues_eq_map]
    simp only [outline, map_map, Function.comp_def]
  | _ => rfl

theorem redacts_redactSensitive (value : Json) : Redacts value (redactSensitive value) where
  kept place := by
    induction place generalizing value with
    | nil =>
      rintro keys found ⟨⟩ -
      exact ⟨_, rfl, outline_redactSensitive value⟩
    | cons i place ih =>
      intro keys found h hopen
      obtain ⟨key, part, rest, hpart, hfollow, rfl⟩ := follow_cons.mp h
      obtain ⟨hkey, hrest⟩ := forall_mem_cons.mp hopen
      obtain ⟨found', hfound', houtline⟩ := ih part rest found hfollow hrest
      refine ⟨found', follow_cons.mpr ⟨key, redactSensitive part, rest, ?_, hfound', rfl⟩, houtline⟩
      simp [parts_redactSensitive, hpart, hkey]
  hidden place := by
    induction place generalizing value with
    | nil =>
      intro keys key found h
      simp [follow] at h
    | cons i place ih =>
      intro keys key found h hopen hkey
      obtain ⟨first, part, rest, hpart, hfollow, hkeys⟩ := follow_cons.mp h
      cases keys with
      | nil =>
        -- the sensitive key is the last one: nothing is followed below it
        cases hkeys
        have hplace : place = [] := by
          cases place with
          | nil => rfl
          | cons j place =>
            obtain ⟨_, _, _, -, -, hnil⟩ := follow_cons.mp hfollow
            cases hnil
        subst hplace
        exact follow_cons.mpr ⟨some key, redactedMark, [],
          by simp [parts_redactSensitive, hpart, hkey], rfl, rfl⟩
      | cons key' keys =>
        cases hkeys
        obtain ⟨hkey', hrest⟩ := forall_mem_cons.mp hopen
        refine follow_cons.mpr ⟨first, redactSensitive part, _, ?_,
          ih part keys key found hfollow hrest hkey, rfl⟩
        simp [parts_redactSensitive, hpart, hkey']

mutual

theorem redactSensitive_idem : ∀ value,
    redactSensitive (redactSensitive value) = redactSensitive value
  | .object members => congrArg Json.object (redactMembers_idem members)
  | .array values => congrArg Json.array (redactValues_idem values)
  | .null | .bool _ | .number _ | .string _ => rfl

theorem redactValues_idem : ∀ values, redactValues (redactValues values) = redactValues values
  | [] => rfl
  | value :: values => congrArg₂ cons (redactSensitive_idem value) (redactValues_idem values)

theorem redactMembers_idem : ∀ members,
    redactMembers (redactMembers members) = redactMembers members
  | [] => rfl
  | (key, value) :: members => by
    simp only [redactMembers, redactMembers_idem members]
    split
    · rfl
    · rw [redactSensitive_idem value]

end

/-- The redacted value differs from the value under sensitive keys only, where it has the mark, and
is not changed by a second redaction. -/
theorem redactSensitive_redacts (value : Json) : Redacts value (redactSensitive value) ∧
      redactSensitive (redactSensitive value) = redactSensitive value :=
  ⟨redacts_redactSensitive value, redactSensitive_idem value⟩

end NetHop.Events
