import Mathlib.Data.List.Induction
import Mathlib.Tactic.Ring

/-!
# Bytes with a length in front

Numbers as a fixed number of bytes, the most significant first, and a reader that hands
out the bytes of a stream in pieces.  A reader may be interrupted and may give fewer bytes
than it is asked for; a read of an exact number of bytes goes on until it has them.
-/

namespace NetHop.Framing

open List

/-! ## Numbers -/

def toBeBytes : Nat → Nat → List UInt8
  | 0, _ => []
  | width + 1, n => toBeBytes width (n / 256) ++ [UInt8.ofNat (n % 256)]

def fromBeBytes (bytes : List UInt8) : Nat := bytes.foldl (fun n b => 256 * n + b.toNat) 0

theorem fromBeBytes_concat (bytes : List UInt8) (b : UInt8) :
    fromBeBytes (bytes ++ [b]) = 256 * fromBeBytes bytes + b.toNat := by
  simp [fromBeBytes]

@[simp] theorem length_toBeBytes (width n : Nat) : (toBeBytes width n).length = width := by
  induction width generalizing n with
  | zero => rfl
  | succ width ih => rw [toBeBytes, length_append, ih, length_singleton]

theorem fromBeBytes_toBeBytes {width n : Nat} (h : n < 256 ^ width) :
    fromBeBytes (toBeBytes width n) = n := by
  induction width generalizing n with
  | zero =>
    have hzero : n = 0 := by simpa using h
    rw [hzero]
    rfl
  | succ width ih =>
    have hfront : n / 256 < 256 ^ width := by
      apply Nat.div_lt_of_lt_mul
      calc n < 256 ^ (width + 1) := h
        _ = 256 * 256 ^ width := by ring
    have hlast : (UInt8.ofNat (n % 256)).toNat = n % 256 :=
      UInt8.toNat_ofNat_of_lt (by simp only [UInt8.size]; omega)
    rw [toBeBytes, fromBeBytes_concat, ih hfront]
    omega

theorem toBeBytes_fromBeBytes (bytes : List UInt8) :
    toBeBytes bytes.length (fromBeBytes bytes) = bytes := by
  induction bytes using reverseRecOn with
  | nil => rfl
  | append_singleton bytes b ih =>
    have hb : b.toNat < 256 := b.toNat_lt
    have hfront : (256 * fromBeBytes bytes + b.toNat) / 256 = fromBeBytes bytes := by omega
    have hlast : (256 * fromBeBytes bytes + b.toNat) % 256 = b.toNat := by omega
    rw [length_append, length_singleton, fromBeBytes_concat, toBeBytes, hfront,
      hlast, ih, UInt8.ofNat_toNat]

/-! ## Readers -/

/-- What one read gives: nothing yet, or some of the bytes that are left, at least one. -/
inductive Delivery where
  | interrupted
  | atMost (more : Nat)

/-- The bytes that are left of a stream, and how the next reads go.  After those each read
gives all it is asked for. -/
structure Reader where
  rest : List UInt8
  deliveries : List Delivery

/-- `read_exact` for the number of bytes still to read. -/
def readExactFrom : List Delivery → Nat → List UInt8 → Option (List UInt8) × Reader
  | deliveries, 0, rest => (some [], ⟨rest, deliveries⟩)
  | [], need, rest =>
    if need ≤ rest.length then (some (rest.take need), ⟨rest.drop need, []⟩)
    else (none, ⟨[], []⟩)
  | .interrupted :: deliveries, need, rest => readExactFrom deliveries need rest
  | .atMost more :: deliveries, need, rest =>
    let n := min (min (more + 1) need) rest.length
    -- a read that gives no byte is the end of the stream
    if n = 0 then (none, ⟨rest, deliveries⟩)
    else
      let next := readExactFrom deliveries (need - n) (rest.drop n)
      (next.1.map (rest.take n ++ ·), next.2)

def Reader.readExact (need : Nat) (reader : Reader) : Option (List UInt8) × Reader :=
  readExactFrom reader.deliveries need reader.rest

theorem readExactFrom_spec {deliveries : List Delivery} {need : Nat} {rest : List UInt8}
    (h : need ≤ rest.length) : (readExactFrom deliveries need rest).1 = some (rest.take need) ∧
      (readExactFrom deliveries need rest).2.rest = rest.drop need := by
  induction deliveries generalizing need rest with
  | nil =>
    cases need with
    | zero => exact ⟨rfl, rfl⟩
    | succ need => simp only [readExactFrom, if_pos h, and_self]
  | cons delivery deliveries ih =>
    cases need with
    | zero => exact ⟨rfl, rfl⟩
    | succ need =>
      cases delivery with
      | interrupted => exact ih h
      | atMost more =>
        generalize hn : min (min (more + 1) (need + 1)) rest.length = n
        have hpos : n ≠ 0 := by omega
        have hleft : need + 1 - n ≤ (rest.drop n).length := by
          rw [length_drop]
          omega
        obtain ⟨htaken, hrest⟩ := ih hleft
        have hsum : n + (need + 1 - n) = need + 1 := by omega
        simp only [readExactFrom, hn, if_neg hpos]
        refine ⟨?_, ?_⟩
        · rw [htaken, Option.map_some, ← take_add, hsum]
        · rw [hrest, drop_drop, hsum]

theorem Reader.readExact_append {reader : Reader} {front back : List UInt8}
    (h : reader.rest = front ++ back) :
    ∃ deliveries, reader.readExact front.length = (some front, ⟨back, deliveries⟩) := by
  have hlength : front.length ≤ reader.rest.length := by
    rw [h, length_append]
    omega
  have hspec := @readExactFrom_spec reader.deliveries _ _ hlength
  rw [h, take_left, drop_left, ← h] at hspec
  exact ⟨(reader.readExact front.length).2.deliveries, Prod.ext hspec.1 (by rw [← hspec.2]; rfl)⟩

/-! ## Frames -/

variable (payload : List UInt8)

def frame : List UInt8 := toBeBytes 4 payload.length ++ payload

theorem length_frame : (frame payload).length = 4 + payload.length := by
  rw [frame, length_append, length_toBeBytes]

theorem take_frame : (frame payload).take 4 = toBeBytes 4 payload.length :=
  take_left' (length_toBeBytes 4 payload.length)

theorem drop_frame : (frame payload).drop 4 = payload :=
  drop_left' (length_toBeBytes 4 payload.length)

theorem eq_frame {bytes : List UInt8} (h : bytes.length = 4 + fromBeBytes (bytes.take 4)) :
    bytes = frame (bytes.drop 4) := by
  have hfront : (bytes.take 4).length = 4 := by
    rw [length_take]
    omega
  have hlength : (bytes.drop 4).length = fromBeBytes (bytes.take 4) := by
    rw [length_drop]
    omega
  calc bytes = bytes.take 4 ++ bytes.drop 4 := (take_append_drop 4 bytes).symm
    _ = toBeBytes (bytes.take 4).length (fromBeBytes (bytes.take 4)) ++ bytes.drop 4 := by
        rw [toBeBytes_fromBeBytes]
    _ = frame (bytes.drop 4) := by rw [frame, hfront, hlength]

end NetHop.Framing
