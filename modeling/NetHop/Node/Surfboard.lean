import NetHop.Fields
import NetHop.Text
import Mathlib.Data.List.Basic

/-!
# The fields of a Surfboard line

`split_fields` walks over the bytes of a line and makes a character of each of them, so what
is written between quotes comes back exactly when it is ASCII.
-/

namespace NetHop.Surfboard

open Framing Text List
open String (ofList utf8EncodeChar)

/-- The variables of `split_fields`. -/
structure Splitter where
  fields : List (List Char)
  current : List Char
  quote : Option UInt8
  escaped : Bool

/-- `byte as char`. -/
def asChar (byte : UInt8) : Char := .ofNat byte.toNat

namespace Splitter

variable (s : Splitter)

def push (byte : UInt8) : Splitter := { s with current := s.current ++ [asChar byte] }

/-- One turn of the loop; 92 is the backslash, 34 and 39 are the quotes, 44 is the comma. -/
def step (byte : UInt8) : Splitter :=
  if s.escaped then { s.push byte with escaped := false }
  else if byte = 92 ∧ s.quote.isSome then { s with escaped := true }
  else if some byte = s.quote then { s.push byte with quote := none }
  else if s.quote = none ∧ (byte = 39 ∨ byte = 34) then { s.push byte with quote := some byte }
  else if s.quote = none ∧ byte = 44 then
    { s with fields := s.fields ++ [trim s.current], current := [] }
  else s.push byte

def finish : Except Unit (List String) :=
  if s.escaped ∨ s.quote.isSome then .error ()
  else .ok ((s.fields ++ [trim s.current]).map ofList)

def feed (c : Char) : Splitter := (utf8EncodeChar c).foldl step s

end Splitter

open Splitter

def splitFields (value : String) : Except Unit (List String) :=
  finish ((textBytes value).foldl step ⟨[], [], none, false⟩)

/-- `unquote`, without a result for `InvalidIni`. -/
def unquote (value : String) : Option String :=
  let t := value.toList
  if 2 ≤ value.utf8ByteSize ∧ (t.head? = some '"' ∧ t.getLast? = some '"' ∨
      t.head? = some '\'' ∧ t.getLast? = some '\'') then some (ofList t.tail.dropLast)
  else if '"' ∈ t ∨ '\'' ∈ t then none
  else some value

def quoted (t : List Char) : List Char := '"' :: (t ++ ['"'])

def escape (c : Char) : List Char := if c = '\\' ∨ c = '"' then ['\\', c] else [c]

/-- Each text between double quotes, with commas between them. -/
def writeFields (fields : List String) : String :=
  ofList ([','].intercalate (fields.map fun t => quoted (t.toList.flatMap escape)))

def RoundTrips (fields : List String) : Prop :=
  (splitFields (writeFields fields)).toOption.map (map unquote) = some (fields.map some)

/-- The bytes of a text, each read as a character. -/
def byBytes (t : List Char) : List Char := (t.flatMap utf8EncodeChar).map asChar

variable {c : Char} {t current : List Char} {fields : List (List Char)}

theorem toNat_of_mem_utf8EncodeChar {byte : UInt8} (h : byte ∈ utf8EncodeChar c) :
    byte.toNat = c.toNat ∨ 128 ≤ byte.toNat := by
  simp only [utf8EncodeChar] at h
  split_ifs at h <;> simp only [mem_cons, not_mem_nil, or_false] at h
  · subst h
    exact .inl (Nat.mod_eq_of_lt (by omega))
  all_goals
    rcases h with rfl | rfl | rfl | rfl <;> simp <;> omega

theorem foldl_plain {bytes : List UInt8} (h : ∀ byte ∈ bytes, byte ≠ 92 ∧ byte ≠ 34) :
    bytes.foldl step ⟨fields, current, some 34, false⟩ =
      ⟨fields, current ++ bytes.map asChar, some 34, false⟩ := by
  induction bytes generalizing current with
  | nil => simp
  | cons byte bytes ih =>
    obtain ⟨⟨hslash, hquote⟩, hrest⟩ := forall_mem_cons.mp h
    simp [step, push, hslash, hquote, ih hrest]

theorem foldl_escape : (t.flatMap escape).foldl feed ⟨fields, current, some 34, false⟩ =
      ⟨fields, current ++ byBytes t, some 34, false⟩ := by
  induction t generalizing current with
  | nil => simp [byBytes]
  | cons c t ih =>
    have hfirst : (escape c).foldl feed ⟨fields, current, some 34, false⟩ =
        ⟨fields, current ++ (utf8EncodeChar c).map asChar, some 34, false⟩ := by
      unfold escape
      split_ifs with h
      · rcases h with rfl | rfl <;> rfl
      · refine foldl_plain fun byte hbyte => ?_
        have hcode := toNat_of_mem_utf8EncodeChar hbyte
        constructor <;> rintro rfl
        · exact h (.inl (Char.toNat_inj.mp (hcode.resolve_right (by decide)).symm))
        · exact h (.inr (Char.toNat_inj.mp (hcode.resolve_right (by decide)).symm))
    rw [flatMap_cons, foldl_append, hfirst, ih]
    simp [byBytes]

theorem foldl_quoted : (quoted (t.flatMap escape)).foldl feed ⟨fields, [], none, false⟩ =
      ⟨fields, quoted (byBytes t), none, false⟩ := by
  have hopen : feed ⟨fields, [], none, false⟩ '"' = ⟨fields, ['"'], some 34, false⟩ := rfl
  rw [quoted, foldl_cons, hopen, foldl_append, foldl_escape]
  rfl

theorem trim_quoted (t : List Char) : trim (quoted t) = quoted t := by
  have hquote : isWhitespace '"' = false := by decide
  simp [trim, quoted, hquote]

theorem finish_writeFields (first : String) (rest : List String) :
    finish ((writeFields (first :: rest)).toList.foldl feed ⟨fields, [], none, false⟩) =
      .ok ((fields ++ (first :: rest).map fun t => quoted (byBytes t.toList)).map ofList) := by
  rw [writeFields, String.toList_ofList]
  induction rest generalizing first fields with
  | nil => simp [foldl_quoted, trim_quoted, finish]
  | cons second rest ih =>
    have hcomma : feed ⟨fields, quoted (byBytes first.toList), none, false⟩ ',' =
        ⟨fields ++ [trim (quoted (byBytes first.toList))], [], none, false⟩ := rfl
    have hrest := @ih (fields ++ [quoted (byBytes first.toList)]) second
    rw [append_assoc] at hrest
    rw [map_cons, map_cons, intercalate_cons_cons, foldl_append, foldl_append, foldl_quoted,
      foldl_cons, hcomma, trim_quoted]
    exact hrest

theorem unquote_quoted (t : List Char) : unquote (ofList (quoted t)) = some (ofList t) := by
  have hquote : "\"".utf8ByteSize = 1 := rfl
  have hsize : 2 ≤ (ofList (quoted t)).utf8ByteSize := by
    simp [quoted, hquote]
    omega
  have hlast : (quoted t).getLast? = some '"' := by
    rw [quoted, ← cons_append, getLast?_concat]
  rw [unquote, String.toList_ofList, if_pos ⟨hsize, .inl ⟨rfl, hlast⟩⟩]
  simp [quoted]

theorem length_byBytes : t.length ≤ (byBytes t).length ∧
    ((byBytes t).length = t.length → ∀ c ∈ t, c.utf8Size = 1) := by
  induction t with
  | nil => simp [byBytes]
  | cons c t ih =>
    have hpos := c.utf8Size_pos
    have hlength : (byBytes (c :: t)).length = c.utf8Size + (byBytes t).length := by
      simp [byBytes]
    rw [hlength, length_cons]
    exact ⟨by omega, fun h => forall_mem_cons.mpr ⟨by omega, ih.2 (by omega)⟩⟩

theorem byBytes_eq_iff : byBytes t = t ↔ ∀ c ∈ t, c.utf8Size = 1 := by
  refine ⟨fun h => length_byBytes.2 (congrArg length h), fun h => ?_⟩
  rw [byBytes, flatMap_congr fun c hc => String.utf8EncodeChar_eq_singleton (h c hc),
    ← map_eq_flatMap, map_map]
  refine (map_congr_left fun c hc => ?_).trans (map_id t)
  have hval := UInt32.le_iff_toNat_le.mp (Char.utf8Size_eq_one_iff.mp (h c hc))
  change Char.ofNat (c.val.toNat % 256) = c
  rw [Nat.mod_eq_of_lt (Nat.lt_of_le_of_lt hval (by decide))]
  exact Char.ofNat_toNat c

/-- Fields are read back as they were written exactly when all their characters are of one
byte, that is, ASCII. -/
theorem roundTrips_iff (first : String) (rest : List String) :
    RoundTrips (first :: rest) ↔ ∀ t ∈ first :: rest, ∀ c ∈ t.toList, c.utf8Size = 1 := by
  have hbytes (t : String) : textBytes t = t.toList.flatMap utf8EncodeChar := by
    rw [textBytes, ← String.ofList_toList (s := t), String.toByteArray_ofList]
    simp [List.utf8Encode]
  rw [RoundTrips, splitFields, hbytes, foldl_flatMap]
  change (Except.toOption (finish (foldl feed _ _))).map _ = _ ↔ _
  rw [finish_writeFields]
  change some _ = some _ ↔ _
  rw [Option.some_inj, nil_append, map_map, map_map, map_inj_left]
  simp [unquote_quoted, ← String.toList_inj, byBytes_eq_iff]

theorem accent_lost : ¬ RoundTrips ["é"] := by
  unfold RoundTrips
  decide +kernel

end NetHop.Surfboard
