import Mathlib.Data.List.Lex
import Mathlib.Order.Lattice
import NetHop.SortedMap

/-!
# Addresses

The addresses a subscription is never fetched from: those of the device, of the local
network, and those set aside for other uses.
-/

namespace NetHop.Fetch

inductive IpAddr where
  | v4 (a b c d : UInt8)
  | v6 (s0 s1 s2 s3 s4 s5 s6 s7 : UInt16)
  deriving DecidableEq

namespace IpAddr

/-- Addresses are ordered by version first, then by their parts. -/
def key : IpAddr → List Nat
  | v4 a b c d => [4, a.toNat, b.toNat, c.toNat, d.toNat]
  | v6 s0 s1 s2 s3 s4 s5 s6 s7 =>
    [6, s0.toNat, s1.toNat, s2.toNat, s3.toNat, s4.toNat, s5.toNat, s6.toNat, s7.toNat]

theorem key_injective : Function.Injective key := by
  intro x y h
  cases x with
  | v4 a b c d =>
    cases y with
    | v4 a' b' c' d' => simpa [key, UInt8.toNat_inj] using h
    | v6 => simp [key] at h
  | v6 s0 s1 s2 s3 s4 s5 s6 s7 =>
    cases y with
    | v4 => simp [key] at h
    | v6 t0 t1 t2 t3 t4 t5 t6 t7 => simpa [key, UInt16.toNat_inj] using h

instance : LinearOrder IpAddr := LinearOrder.lift' key key_injective

/-- `Ipv6Addr::to_ipv4_mapped`, and an IPv4 address as it is. -/
def toIpv4Mapped : IpAddr → Option (UInt8 × UInt8 × UInt8 × UInt8)
  | v4 a b c d => some (a, b, c, d)
  | v6 s0 s1 s2 s3 s4 s5 s6 s7 =>
    if s0 = 0 ∧ s1 = 0 ∧ s2 = 0 ∧ s3 = 0 ∧ s4 = 0 ∧ s5 = 0xffff then
      some ((s6 >>> 8).toUInt8, s6.toUInt8, (s7 >>> 8).toUInt8, s7.toUInt8)
    else none

def isLoopback : IpAddr → Bool
  | v4 a _ _ _ => a == 127
  | v6 s0 s1 s2 s3 s4 s5 s6 s7 => (s0, s1, s2, s3, s4, s5, s6, s7) == (0, 0, 0, 0, 0, 0, 0, 1)

end IpAddr

def isDeniedIpv4 (a b c : UInt8) : Bool :=
  a == 0 || a == 10 || (a == 100 && (b &&& 0xc0) == 64) || a == 127 || (a == 169 && b == 254) ||
    (a == 172 && 16 ≤ b && b ≤ 31) || (a == 192 && b == 0 && c == 0) ||
    (a == 192 && b == 0 && c == 2) || (a == 192 && b == 88 && c == 99) || (a == 192 && b == 168) ||
    (a == 198 && (b == 18 || b == 19)) || (a == 198 && b == 51 && c == 100) ||
    (a == 203 && b == 0 && c == 113) || a ≥ 224

def isDeniedSsrfAddress (address : IpAddr) : Bool :=
  match address with
  | .v4 a b c _ => isDeniedIpv4 a b c
  | .v6 s0 s1 s2 s3 s4 s5 s6 s7 =>
    match address.toIpv4Mapped with
    | some (a, b, c, _) => isDeniedIpv4 a b c
    | none =>
      address.isLoopback ||
      (s0, s1, s2, s3, s4, s5, s6, s7) == (0, 0, 0, 0, 0, 0, 0, 0) ||
      (s0 &&& 0xff00) == 0xff00 || (s0 &&& 0xfe00) == 0xfc00 || (s0 &&& 0xffc0) == 0xfe80 ||
      (s0 == 0x0100 && s1 == 0 && s2 == 0 && s3 == 0) || (s0 == 0x2001 && s1 == 0x0002) ||
      (s0 == 0x2001 && s1 == 0x0db8) || (s0 == 0x2001 && (s1 &&& 0xfff0) == 0x0010) ||
      (s0 == 0x2001 && (s1 &&& 0xfff0) == 0x0020) || s0 == 0x2002 ||
      (s0 == 0x0064 && s1 == 0xff9b)

/-! ## Embedded addresses -/

namespace IpAddr

def ofSegments (hi lo : UInt16) : IpAddr :=
  v4 (hi >>> 8).toUInt8 hi.toUInt8 (lo >>> 8).toUInt8 lo.toUInt8

/-- The IPv6 addresses that carry an IPv4 address.  A local NAT64 address may do so at any
place behind its first three segments. -/
inductive Embeds : IpAddr → IpAddr → Prop
  | mapped (hi lo) : Embeds (ofSegments hi lo) (v6 0 0 0 0 0 0xffff hi lo)
  | compatible (hi lo) : Embeds (ofSegments hi lo) (v6 0 0 0 0 0 0 hi lo)
  | sixToFour (hi lo s3 s4 s5 s6 s7) : Embeds (ofSegments hi lo) (v6 0x2002 hi lo s3 s4 s5 s6 s7)
  | nat64 (hi lo) : Embeds (ofSegments hi lo) (v6 0x64 0xff9b 0 0 0 0 hi lo)
  | localNat64 (a b c d s3 s4 s5 s6 s7) : Embeds (v4 a b c d) (v6 0x64 0xff9b 1 s3 s4 s5 s6 s7)
  | teredo (s2 s3 s4 s5 hi lo) :
    Embeds (ofSegments (~~~hi) (~~~lo)) (v6 0x2001 0 s2 s3 s4 s5 hi lo)

/-- The addresses that carry a denied IPv4 address, and those of a local network: unique
local, link-local and site-local ones. -/
inductive Inward : IpAddr → Prop
  | embeds {v address} (h : Embeds v address) (hv : isDeniedSsrfAddress v = true) : Inward address
  | network {s0} (s1 s2 s3 s4 s5 s6 s7)
    (h : s0 &&& 0xfe00 = 0xfc00 ∨ s0 &&& 0xffc0 = 0xfe80 ∨ s0 &&& 0xffc0 = 0xfec0) :
    Inward (v6 s0 s1 s2 s3 s4 s5 s6 s7)

/-- IPv4-compatible, Teredo and site-local addresses, which the list has no entry for. -/
def Overlooked : IpAddr → Prop
  | v4 .. => False
  | v6 s0 s1 s2 s3 s4 s5 s6 s7 =>
    ((s0, s1, s2, s3, s4, s5) = (0, 0, 0, 0, 0, 0) ∧ (s6, s7) ≠ (0, 0) ∧ (s6, s7) ≠ (0, 1)) ∨
      (s0 = 0x2001 ∧ s1 = 0) ∨ s0 &&& 0xffc0 = 0xfec0

section

variable {s m n v : UInt16} (h : s &&& m = v)

include h

theorem and_eq_of_coarser (hm : m &&& n = n) : s &&& n = v &&& n := by
  rw [← h, UInt16.and_assoc, hm]

theorem ne_of_and_eq {t : UInt16} (ht : t &&& m ≠ v) : s ≠ t := by
  rintro rfl
  exact ht h

end

attribute [local simp] isDeniedSsrfAddress toIpv4Mapped isLoopback Overlooked

/-- Of the addresses that lead inward the list denies all but those it has no entry for. -/
theorem isDenied_iff_not_overlooked {address : IpAddr} (h : Inward address) :
    isDeniedSsrfAddress address = true ↔ ¬ Overlooked address := by
  cases h with
  | embeds h hv =>
    cases h with
    | mapped hi lo =>
      change isDeniedIpv4 _ _ _ = true at hv
      simpa using hv
    | compatible hi lo =>
      -- of these only `::` and `::1` are on the list
      simp +decide
      tauto
    | sixToFour | nat64 | localNat64 | teredo => simp +decide
  | network s1 s2 s3 s4 s5 s6 s7 h =>
    rcases h with h | h | h
    · have hsite : ¬ _ &&& 0xffc0 = (0xfec0 : UInt16) := fun hsite =>
        absurd (h.symm.trans (and_eq_of_coarser hsite (by decide))) (by decide)
      simp +decide [h, hsite, ne_of_and_eq h (t := 0) (by decide),
        ne_of_and_eq h (t := 0x2001) (by decide)]
    · simp +decide [h, ne_of_and_eq h (t := 0) (by decide),
        ne_of_and_eq h (t := 0x2001) (by decide)]
    · have hmulticast := and_eq_of_coarser h (n := 0xff00) (by decide)
      have hunique := and_eq_of_coarser h (n := 0xfe00) (by decide)
      simp +decide [h, hmulticast, hunique, ne_of_and_eq h (t := 0) (by decide),
        ne_of_and_eq h (t := 0x0100) (by decide), ne_of_and_eq h (t := 0x2001) (by decide),
        ne_of_and_eq h (t := 0x2002) (by decide), ne_of_and_eq h (t := 0x0064) (by decide)]

theorem linkLocal_denied : isDeniedSsrfAddress (v6 0xfe80 0 0 0 0 0 0 1) = true := by
  refine (isDenied_iff_not_overlooked (.network 0 0 0 0 0 0 1 (by decide))).mpr ?_
  simp +decide

theorem overlooked_inward : Inward (v6 0 0 0 0 0 0 0x0a00 1) ∧
    isDeniedSsrfAddress (v6 0 0 0 0 0 0 0x0a00 1) = false :=
  ⟨.embeds (.compatible _ _) (by decide), by decide⟩

end IpAddr

structure SocketAddr where
  ip : IpAddr
  port : UInt16
  deriving DecidableEq

end NetHop.Fetch
