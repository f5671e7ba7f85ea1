import NetHop.Json
import Mathlib.Data.List.Nodup

/-!
# Reading and writing JSON values

A codec writes values of a type as JSON and reads them back.  Records are objects whose
members may be left out; a reader of records refuses members it does not know.  An optional
member is absent or `null` where there is no value, so a value that is itself written as
`null` does not come back.
-/

namespace NetHop

open List

/-- How a type is written as JSON and read back. -/
structure Codec (α : Type) where
  write : α → Json
  read : Json → Option α

namespace Codec

variable {α β : Type}

/-- Reading gives back what was written. -/
def RoundTrips (c : Codec α) (a : α) : Prop := c.read (c.write a) = some a

def string : Codec String where
  write := .string
  read
    | .string s => some s
    | _ => none

def bool : Codec Bool where
  write := .bool
  read
    | .bool b => some b
    | _ => none

def value : Codec Json where
  write := id
  read := some

def u8 : Codec UInt8 where
  write n := .number (.unsigned n.toNat)
  read
    | .number (.unsigned n) => if n < UInt8.size then some (.ofNat n) else none
    | _ => none

def u32 : Codec UInt32 where
  write n := .number (.unsigned n.toNat)
  read
    | .number (.unsigned n) => if n < UInt32.size then some (.ofNat n) else none
    | _ => none

def u64 : Codec UInt64 where
  write n := .number (.unsigned n.toNat)
  read
    | .number (.unsigned n) => if n < UInt64.size then some (.ofNat n) else none
    | _ => none

/-- A unit variant is written as its name. -/
def enum (all : List α) (name : α → String) : Codec α where
  write a := .string (name a)
  read
    | .string s => all.find? fun a => name a == s
    | _ => none

def list (c : Codec α) : Codec (List α) where
  write l := .array (l.map c.write)
  read
    | .array l => l.mapM c.read
    | _ => none

/-- `Option`: `null` stands for no value. -/
def option (c : Codec α) : Codec (Option α) where
  write
    | some a => c.write a
    | none => .null
  read
    | .null => some none
    | j => (c.read j).map some

/-- Every value comes back, and none is written as `null`. -/
def Lawful (c : Codec α) : Prop := ∀ a, c.RoundTrips a ∧ c.write a ≠ .null

@[simp] theorem string_lawful : string.Lawful := fun _ => ⟨rfl, nofun⟩

@[simp] theorem bool_lawful : bool.Lawful := fun _ => ⟨rfl, nofun⟩

@[simp] theorem u8_lawful : u8.Lawful := by
  intro n
  have hlt : n.toNat < UInt8.size := n.toNat_lt
  exact ⟨by simp [RoundTrips, u8, hlt], nofun⟩

@[simp] theorem u32_lawful : u32.Lawful := by
  intro n
  have hlt : n.toNat < UInt32.size := n.toNat_lt
  exact ⟨by simp [RoundTrips, u32, hlt], nofun⟩

@[simp] theorem u64_lawful : u64.Lawful := by
  intro n
  have hlt : n.toNat < UInt64.size := n.toNat_lt
  exact ⟨by simp [RoundTrips, u64, hlt], nofun⟩

/-- The variants of an enumeration come back when each is listed, under a name of its own. -/
theorem enum_lawful {all : List α} {name : α → String} (hall : ∀ a, a ∈ all)
    (hname : (all.map name).Nodup) : (enum all name).Lawful := by
  intro a
  refine ⟨?_, nofun⟩
  change (all.find? fun b => name b == name a) = some a
  have hfound : (all.find? fun b => name b == name a).isSome := by
    rw [find?_isSome]
    exact ⟨a, hall a, beq_self_eq_true _⟩
  obtain ⟨b, hb⟩ := Option.isSome_iff_exists.mp hfound
  have hnames : name b = name a := by simpa using find?_some hb
  have hsame : b = a := inj_on_of_nodup_map hname (mem_of_find?_eq_some hb) (hall a) hnames
  rw [hb, hsame]

@[simp] theorem list_lawful {c : Codec α} (h : c.Lawful) : c.list.Lawful := by
  intro l
  refine ⟨?_, nofun⟩
  change (l.map c.write).mapM c.read = some l
  induction l with
  | nil => rfl
  | cons a l ih =>
    have hhead : c.read (c.write a) = some a := (h a).1
    simp [mapM_cons, hhead, ih]

theorem option_read_write {c : Codec α} {a b : α} (hread : c.read (c.write a) = some b)
    (hnull : c.write a ≠ .null) : c.option.read (c.write a) = some (some b) := by
  cases hwritten : c.write a with
  | null => exact absurd hwritten hnull
  | _ =>
    change (c.read _).map some = some (some b)
    rw [← hwritten, hread]
    rfl

end Codec

open Codec

/-! ## Records -/

/-- The members of a record; an absent one has no value. -/
abbrev Members := List (String × Option Json)

def Members.present (members : Members) : List (String × Json) :=
  members.filterMap fun m => m.2.map fun j => (m.1, j)

def Members.write (members : Members) : Json := .object members.present

theorem Members.write_ne_null (members : Members) : members.write ≠ .null := nofun

/-- The members of an object that has no unknown ones, by name. -/
def readObject (known : List String) : Json → Option (String → Option Json)
  | .object members =>
    if members.all fun m => known.contains m.1 then some fun key => members.lookup key else none
  | _ => none

variable {members : Members} {key : String}

theorem Members.lookup_eq_none (h : key ∉ members.map Prod.fst) : members.lookup key = none := by
  rw [lookup_eq_none_iff]
  intro m hm
  rw [bne_iff_ne]
  rintro rfl
  exact h (mem_map_of_mem hm)

theorem Members.lookup_present (h : (members.map Prod.fst).Nodup) (key : String) :
    members.present.lookup key = (members.lookup key).join := by
  induction members with
  | nil => rfl
  | cons m members ih =>
    obtain ⟨name, value⟩ := m
    rw [map_cons, nodup_cons] at h
    have hrest := ih h.2
    by_cases hkey : key = name
    · subst hkey
      cases value with
      | none =>
        -- the member is left out, and no other has its name
        rw [Members.lookup_eq_none h.1] at hrest
        simpa [present, lookup_cons] using hrest
      | some j => simp [present]
    · have hne : (key == name) = false := beq_eq_false_iff_ne.mpr hkey
      cases value with
      | none | some j => simpa [present, lookup_cons, hne] using hrest

variable {known : List String}

theorem readObject_write (hknown : members.map Prod.fst = known) (h : known.Nodup) :
    readObject known members.write = some fun key => (members.lookup key).join := by
  subst hknown
  have hall : (members.present.all fun m => (members.map Prod.fst).contains m.1) = true := by
    rw [all_eq_true]
    intro m hm
    obtain ⟨m', hm', hsome⟩ := mem_filterMap.mp hm
    obtain ⟨j, -, rfl⟩ := Option.map_eq_some_iff.mp hsome
    rw [contains_iff_mem]
    exact mem_map_of_mem hm'
  unfold readObject Members.write
  simp only [hall, if_true]
  exact congrArg some (funext fun key => Members.lookup_present h key)

/-- A record: its members, and how it is built from those of an object that has no
others (`deny_unknown_fields`). -/
structure Record (α : Type) where
  known : List String
  members : α → Members
  build : (String → Option Json) → Option α

def Record.codec {α : Type} (r : Record α) : Codec α where
  write a := (r.members a).write
  read j := (readObject r.known j).bind r.build

variable {α : Type} {r : Record α}

theorem Record.read_write {a b : α} (h : r.known.Nodup)
    (hmembers : (r.members a).map Prod.fst = r.known)
    (hbuild : r.build (fun key => ((r.members a).lookup key).join) = some b) :
    r.codec.read (r.codec.write a) = some b := by
  change (readObject r.known (r.members a).write).bind r.build = some b
  rw [readObject_write hmembers h]
  exact hbuild

theorem Record.lawful (h : r.known.Nodup) (hmembers : ∀ a, (r.members a).map Prod.fst = r.known)
    (hbuild : ∀ a, r.build (fun key => ((r.members a).lookup key).join) = some a) :
    r.codec.Lawful := fun a => ⟨Record.read_write h (hmembers a) (hbuild a), nofun⟩

/-- The variant an internally tagged object names. -/
def tagOf (tag : String) : Json → Option String
  | .object members =>
    match members.lookup tag with
    | some (.string name) => some name
    | _ => none
  | _ => none

theorem tagOf_write (tag name : String) (members : Members) :
    tagOf tag (Members.write ((tag, some (.string name)) :: members)) = some name := by
  simp [tagOf, Members.write, Members.present]

/-! ## Members -/

section

variable {α : Type} {c : Codec α}

def required (c : Codec α) (member : Option Json) : Option α := member.bind c.read

/-- A member whose absence is `None`. -/
def optional (c : Codec α) : Option Json → Option (Option α)
  | none => some none
  | some j => c.option.read j

def defaulted (c : Codec α) (default : α) : Option Json → Option α
  | none => some default
  | some j => c.read j

/-- A member left out when it has no value. -/
def skipNone (c : Codec α) (o : Option α) : Option Json := o.map c.write

/-- A flag left out when it is not set. -/
def skipFalse (b : Bool) : Option Json := if b then some (bool.write b) else none

@[simp] theorem required_write (h : c.Lawful) (a : α) : required c (some (c.write a)) = some a :=
  (h a).1

@[simp] theorem required_value (v : Json) : required value (some (value.write v)) = some v := rfl

@[simp] theorem defaulted_write (h : c.Lawful) (a d : α) :
    defaulted c d (some (c.write a)) = some a := (h a).1

@[simp] theorem defaulted_skipFalse (b : Bool) : defaulted bool false (skipFalse b) = some b := by
  cases b <;> rfl

theorem optional_skipNone_map {f : α → α}
    (h : ∀ a, c.read (c.write a) = some (f a) ∧ c.write a ≠ .null) (o : Option α) :
    optional c (skipNone c o) = some (o.map f) := by
  cases o with
  | none => rfl
  | some a => exact option_read_write (h a).1 (h a).2

@[simp] theorem optional_skipNone (h : c.Lawful) (o : Option α) :
    optional c (skipNone c o) = some o := by
  simpa using optional_skipNone_map (f := id) h o

@[simp] theorem optional_write (h : c.Lawful) (o : Option α) :
    optional c (some (c.option.write o)) = some o := by
  cases o with
  | none => rfl
  | some a => exact option_read_write (h a).1 (h a).2

@[simp] theorem optional_skipNone_value (o : Option Json) :
    optional value (skipNone value o) = some (o.filter fun v => !v.isNull) := by
  cases o with
  | none => rfl
  | some v => cases v <;> rfl

end

end NetHop
