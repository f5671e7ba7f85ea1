import Mathlib.Tactic.Ring

/-!
# Numbers as text

The conversions the stores rely on when they keep a number in a file, formatting a
`u64` and `str::trim` followed by `str::parse::<u64>`, and those of `u32` values in
the output of network tools, decimal and hexadecimal.
-/

namespace NetHop.Text

open Nat List

/-- The Unicode `White_Space` property, which `str::trim` removes. -/
def isWhitespace (c : Char) : Bool :=
  let n := c.toNat
  (9 ≤ n && n ≤ 13) || n == 0x20 || n == 0x85 || n == 0xa0 || n == 0x1680 ||
    (0x2000 ≤ n && n ≤ 0x200a) || n == 0x2028 || n == 0x2029 || n == 0x202f ||
    n == 0x205f || n == 0x3000

def isControl (c : Char) : Bool := c.toNat < 0x20 || (0x7f ≤ c.toNat && c.toNat < 0xa0)

variable (t : List Char)

def trim : List Char :=
  ((t.dropWhile isWhitespace).reverse.dropWhile isWhitespace).reverse

/-- `str::parse::<u64>`: an optional plus sign, then digits, within range. -/
def parseU64 : Option Nat :=
  let digits := if t.head? = some '+' then t.tail else t
  if digits ≠ [] ∧ digits.all Char.isDigit ∧ Nat.ofDigitChars 10 digits 0 < 2 ^ 64 then
    some (Nat.ofDigitChars 10 digits 0)
  else
    none

def parseU8 : Option Nat := (parseU64 t).filter (· < 2 ^ 8)

def parseU16 : Option Nat := (parseU64 t).filter (· < 2 ^ 16)

def parseU32 : Option Nat := (parseU64 t).filter (· < 2 ^ 32)

def hexDigitValue (c : Char) : Option Nat :=
  if '0' ≤ c ∧ c ≤ '9' then some (c.toNat - '0'.toNat)
  else if 'a' ≤ c ∧ c ≤ 'f' then some (c.toNat - 'a'.toNat + 10)
  else if 'A' ≤ c ∧ c ≤ 'F' then some (c.toNat - 'A'.toNat + 10)
  else none

def hexValue : Option Nat :=
  t.foldlM (fun value c => (hexDigitValue c).map (16 * value + ·)) 0

/-- `u32::from_str_radix` with radix 16. -/
def parseHexU32 : Option Nat :=
  let digits := if t.head? = some '+' then t.tail else t
  if digits = [] then none else (hexValue digits).filter (· < 2 ^ 32)

/-- `str::to_ascii_lowercase`. -/
def asciiLower (t : String) : String := String.ofList (t.toList.map Char.toLower)

def startsWith (t front : String) : Bool := front.toList.isPrefixOf t.toList

/-- `format!("{n}")`. -/
def formatU64 (n : Nat) : List Char := Nat.toDigits 10 n

variable {c : Char}

theorem isWhitespace_eq_false_of_isDigit (h : c.isDigit) : isWhitespace c = false := by
  have hrange : 48 ≤ c.toNat ∧ c.toNat ≤ 57 := Char.isDigit_iff_toNat.mp h
  simp only [isWhitespace, Bool.or_eq_false_iff, Bool.and_eq_false_iff, beq_eq_false_iff_ne,
    decide_eq_false_iff_not]
  omega

variable {n : Nat}

theorem isDigit_of_mem_formatU64 (h : c ∈ formatU64 n) : c.isDigit :=
  isDigit_of_mem_toDigits (by omega) (by omega) h

theorem formatU64_ne_nil (n : Nat) : formatU64 n ≠ [] := toDigits_ne_nil

theorem dropWhile_isWhitespace_of_digits {t u : List Char} (ht : t ≠ [])
    (hdigits : ∀ c ∈ t, c.isDigit) : (t ++ u).dropWhile isWhitespace = t ++ u := by
  cases t with
  | nil => exact absurd rfl ht
  | cons c t =>
    have hc := isWhitespace_eq_false_of_isDigit (hdigits c mem_cons_self)
    simp [hc]

theorem trim_digits_newline {t : List Char} (ht : t ≠ []) (hdigits : ∀ c ∈ t, c.isDigit) :
    trim (t ++ ['\n']) = t := by
  have hrev : t.reverse ≠ [] := by simpa using ht
  have hmem : ∀ c ∈ t.reverse, c.isDigit := by simpa using hdigits
  have hback := dropWhile_isWhitespace_of_digits (u := []) hrev hmem
  have hnl : isWhitespace '\n' = true := by decide
  rw [append_nil] at hback
  unfold trim
  rw [dropWhile_isWhitespace_of_digits ht hdigits]
  simp [hnl, hback]

theorem parseU64_format (hn : n < 2 ^ 64) : parseU64 (formatU64 n) = some n := by
  have hplus : (formatU64 n).head? ≠ some '+' := by
    intro h
    have hdigit := isDigit_of_mem_formatU64 (mem_of_mem_head? h)
    exact absurd hdigit (by decide)
  have hall : (formatU64 n).all Char.isDigit = true := by
    rw [all_eq_true]
    exact fun c hc => isDigit_of_mem_formatU64 hc
  have hvalue : ofDigitChars 10 (formatU64 n) 0 = n := ofDigitChars_ten_toDigits
  simp only [parseU64, if_neg hplus, hvalue]
  rw [if_pos ⟨formatU64_ne_nil n, hall, hn⟩]

theorem parseU64_trim_format (hn : n < 2 ^ 64) :
    parseU64 (trim (formatU64 n ++ ['\n'])) = some n := by
  rw [trim_digits_newline (formatU64_ne_nil n) fun c hc => isDigit_of_mem_formatU64 hc,
    parseU64_format hn]

theorem parseU32_toString (hn : n < 2 ^ 32) : parseU32 (toString n).toList = some n := by
  have htext : (toString n).toList = formatU64 n := by simp [formatU64]
  unfold parseU32
  rw [htext, parseU64_format (by omega)]
  exact Option.filter_eq_some_iff.mpr ⟨rfl, decide_eq_true hn⟩

/-! ## Hexadecimal numbers -/

theorem hexDigitValue_digitChar : ∀ d < 16, hexDigitValue (Nat.digitChar d) = some d := by decide

theorem mem_toDigits_sixteen (h : c ∈ Nat.toDigits 16 n) : ∃ d < 16, c = Nat.digitChar d := by
  induction n using Nat.strongRecOn with
  | ind n ih =>
    rw [toDigits_eq_if (by omega)] at h
    split at h
    · next hlt => exact ⟨n, hlt, mem_singleton.mp h⟩
    · rcases mem_append.mp h with h | h
      · exact ih (n / 16) (by omega) h
      · exact ⟨n % 16, by omega, mem_singleton.mp h⟩

theorem hexValue_toDigits (n : Nat) : hexValue (Nat.toDigits 16 n) = some n := by
  induction n using Nat.strongRecOn with
  | ind n ih =>
    rw [toDigits_eq_if (by omega)]
    split
    · next hlt => simp [hexValue, hexDigitValue_digitChar n hlt]
    · have hfront : hexValue (toDigits 16 (n / 16)) = some (n / 16) := ih _ (by omega)
      unfold hexValue at hfront ⊢
      rw [foldlM_append, hfront]
      simp [hexDigitValue_digitChar (n % 16) (by omega)]
      omega

theorem parseHexU32_toDigits (hn : n < 2 ^ 32) : parseHexU32 (Nat.toDigits 16 n) = some n := by
  have hplus : (toDigits 16 n).head? ≠ some '+' := by
    intro h
    obtain ⟨d, hd, hc⟩ := mem_toDigits_sixteen (mem_of_mem_head? h)
    exact absurd hc (by revert d; decide)
  unfold parseHexU32
  simp only [if_neg hplus]
  rw [if_neg toDigits_ne_nil, hexValue_toDigits]
  exact Option.filter_eq_some_iff.mpr ⟨rfl, decide_eq_true hn⟩

theorem isDigit_of_mem_toString (h : c ∈ (toString n).toList) : c.isDigit := by
  have hmem : c ∈ toDigits 10 n := by simpa using h
  exact isDigit_of_mem_formatU64 hmem

theorem length_toString_le (h : n < 2 ^ 64) : (toString n).length ≤ 20 := by
  have hdigits : (toDigits 10 n).length ≤ 20 :=
    (length_toDigits_le_iff (by omega) (by omega)).mpr (by omega)
  simpa [← String.length_toList] using hdigits

end NetHop.Text
