import NetHop.Capture.Capability
import NetHop.Checked
import NetHop.Fields
import NetHop.Text

/-!
# Interfaces of a plan

Which interfaces of the device a policy selects.
-/

namespace NetHop.Capture

open Text Framing

inductive NetworkPlanError where
  | invalidGeneration
  | unsupportedCaptureMode
  | platformUnavailable
  | inboundPortMismatch
  | inboundPortConflict
  | existingTunnelConflict
  | ipv4TproxyUnavailable
  | ipv6LeakRisk
  | resourceConflict
  | tunUnavailable
  | bypassMarkConflict
  | interfaceSelectionEmpty
  | forwardingInterfaceSelectionEmpty

def isWifiInterface (name : String) : Bool :=
  ["wlan", "wifi", "swlan"].any fun front => startsWith name front

def isMobileInterface (name : String) : Bool :=
  ["rmnet", "ccmni", "pdp", "wwan", "v4-rmnet", "r_rmnet", "clat"].any fun front =>
    startsWith name front

def isHotspotInterface (name : String) : Bool :=
  (["ap", "softap", "swlan"].any fun front => startsWith name front) ||
    (startsWith name "wlan" && (parseU8 (name.toList.drop 4)).any fun index => index > 0)

def isUsbTetherInterface (name : String) : Bool :=
  ["rndis", "usb"].any fun front => startsWith name front

/-- The loop of `glob_matches`.  `star` is what follows the last star that was
passed, with the part of the value from which it was last tried. -/
def globLoop (pattern value : List UInt8) (star : Option (List UInt8 × List UInt8))
    (hstar : ∀ s ∈ star, value.length ≤ s.2.length) : Bool :=
  match value with
  | [] => pattern.all (· == '*'.toUInt8)
  | v :: rest =>
    if pattern.head?.any fun c => c == '?'.toUInt8 || c == v then
      globLoop pattern.tail rest star fun s hs => Nat.le_of_succ_le (hstar s hs)
    else if pattern.head? = some '*'.toUInt8 then
      globLoop pattern.tail (v :: rest) (some (pattern.tail, v :: rest)) (by simp)
    else
      match star with
      | some (after, _ :: tried) => globLoop after tried (some (after, tried)) (by simp)
      | some (_, []) => false
      | none => false
  termination_by (star.elim (value.length + 1) fun s => s.2.length, value.length + pattern.length)
  decreasing_by
  · cases star <;> simp [Prod.lex_def]
    omega
  · next hc =>
    obtain ⟨_, rfl⟩ := List.head?_eq_some_iff.mp hc
    cases star with
    | none => simp [Prod.lex_def]
    | some s =>
      have := hstar s rfl
      simp_all [Prod.lex_def]
      omega
  · simp [Prod.lex_def]

def globMatches (pattern value : String) : Bool :=
  globLoop (textBytes pattern) (textBytes value) none (by simp)

/-- The value splits as the pattern says: a question mark takes one byte, a star any run of
bytes, and every other byte itself. -/
def GlobMatch : List UInt8 → List UInt8 → Prop
  | [], value => value = []
  | c :: pattern, value =>
    if c = '*'.toUInt8 then ∃ rest, rest <:+ value ∧ GlobMatch pattern rest
    else ∃ v rest, value = v :: rest ∧ (c = '?'.toUInt8 ∨ c = v) ∧ GlobMatch pattern rest

variable {pattern value : List UInt8}

theorem exists_suffix {P : List UInt8 → Prop} :
    (∃ w, w <:+ value ∧ P w) ↔ P value ∨ ∃ w, w <:+ value.tail ∧ P w := by
  cases value <;> simp [List.suffix_cons_iff, or_and_right, exists_or]

theorem globMatch_nil : GlobMatch pattern [] ↔ pattern.all (· == '*'.toUInt8) := by
  induction pattern with
  | nil => simp [GlobMatch]
  | cons c pattern ih => by_cases hc : c = '*'.toUInt8 <;> simp [GlobMatch, hc, ih]

theorem not_globMatch {v : UInt8} (hc : ¬ pattern.head?.any fun c => c == '?'.toUInt8 || c == v)
    (hstar : pattern.head? ≠ some '*'.toUInt8) : ¬ GlobMatch pattern (v :: value) := by
  cases pattern with
  | nil => simp [GlobMatch]
  | cons c pattern =>
    simp only [List.head?_cons, ne_eq, Option.some.injEq] at hstar
    simp_all [GlobMatch]

/-- What follows a star matches from a later start than the one it was tried from. -/
def MatchesLater (s : List UInt8 × List UInt8) : Prop :=
  ∃ rest, rest <:+ s.2.tail ∧ GlobMatch s.1 rest

/-- The loop finds a match of what is left, or one from a later start of the last star.  No
other star needs to be tried again: a later start of it leaves a match within the value that is
left, which the last star finds. -/
theorem globLoop_iff {star : Option (List UInt8 × List UInt8)}
    {hstar : ∀ s ∈ star, value.length ≤ s.2.length} (hv : '*'.toUInt8 ∉ value)
    (hs : ∀ s ∈ star, '*'.toUInt8 ∉ s.2 ∧
      (MatchesLater s → ∃ rest, rest <:+ value ∧ GlobMatch pattern rest)) :
    globLoop pattern value star hstar = true ↔
      GlobMatch pattern value ∨ ∃ s ∈ star, MatchesLater s := by
  fun_induction globLoop pattern value star hstar with
  | case1 pattern star =>
    rw [← globMatch_nil, iff_self_or]
    rintro ⟨s, hstar, hlater⟩
    obtain ⟨rest, hrest, h⟩ := (hs s hstar).2 hlater
    exact List.suffix_nil.mp hrest ▸ h
  | case2 pattern star v value hstar hc _ ih =>
    obtain ⟨c, pattern, rfl⟩ : ∃ c p, pattern = c :: p := by cases pattern <;> simp_all
    simp only [List.head?_cons, Option.any_some, Bool.or_eq_true, beq_iff_eq] at hc
    obtain ⟨hv', hv⟩ := not_or.mp (List.mem_cons.not.mp hv)
    have hc' : c ≠ '*'.toUInt8 := by
      rintro rfl
      exact hc.elim (by decide) hv'
    rw [ih hv fun s hmem => ⟨(hs s hmem).1, fun hlater => ?_⟩]
    · simp [GlobMatch, hc, hc']
    · obtain ⟨_, hrest, h⟩ := (hs s hmem).2 hlater
      obtain ⟨_, rest, rfl, -, h⟩ := (if_neg hc').mp h
      rcases List.suffix_cons_iff.mp hrest with heq | hrest
      · exact ⟨value, List.suffix_rfl, (List.cons.inj heq).2 ▸ h⟩
      · exact ⟨rest, (List.suffix_cons _ _).trans hrest, h⟩
  | case3 pattern star v value hstar hc hc' _ ih =>
    obtain ⟨pattern, rfl⟩ : ∃ p, pattern = '*'.toUInt8 :: p := by cases pattern <;> simp_all
    have hmatch : GlobMatch ('*'.toUInt8 :: pattern) (v :: value) ↔
        GlobMatch pattern (v :: value) ∨ MatchesLater (pattern, v :: value) := by
      rw [GlobMatch, if_pos rfl, exists_suffix]
      rfl
    rw [ih hv (by rintro _ ⟨⟩; exact ⟨hv, fun h => exists_suffix.mpr (.inr h)⟩), hmatch]
    simp only [Option.mem_some, exists_eq_left', List.tail_cons, iff_self_or]
    rintro ⟨s, hstar, hlater⟩
    obtain ⟨rest, hrest, h⟩ := (hs s hstar).2 hlater
    obtain ⟨rest', hrest', h⟩ := (if_pos rfl).mp h
    exact exists_suffix.mp ⟨rest', hrest'.trans hrest, h⟩
  | case4 pattern v value hc hc' after x tried hstar _ ih =>
    have hv : '*'.toUInt8 ∉ tried := fun h => (hs _ rfl).1 (List.mem_cons_of_mem x h)
    rw [ih hv (by rintro _ ⟨⟩; exact ⟨hv, fun h => exists_suffix.mpr (.inr h)⟩)]
    simp only [Option.mem_some, exists_eq_left', not_globMatch hc hc', false_or]
    exact exists_suffix.symm
  | case5 pattern v value hc hc' after hstar => cases hstar _ rfl
  | case6 pattern v value hc hc' hstar => simp [not_globMatch hc hc']

/-- A value without a star, as every interface name is, is matched exactly when it splits as
the pattern says. -/
theorem globMatches_iff {pattern value : String} (hv : '*'.toUInt8 ∉ textBytes value) :
    globMatches pattern value = true ↔ GlobMatch (textBytes pattern) (textBytes value) := by
  simpa [globMatches] using @globLoop_iff _ _ none (by simp) hv (by simp)

theorem globMatches_wlan : '*'.toUInt8 ∉ textBytes "wlan0" ∧
      (globMatches "w*0" "wlan0" = true ↔ GlobMatch (textBytes "w*0") (textBytes "wlan0")) :=
  ⟨by decide, globMatches_iff (by decide)⟩

def InterfacePolicy.selects (policy : InterfacePolicy) (name : String) : Bool :=
  name != "lo" &&
    (if policy.included.isEmpty then
      (policy.mobile && isMobileInterface name) || (policy.wifi && isWifiInterface name)
    else policy.included.any fun pattern => globMatches pattern name) &&
    !policy.excluded.any fun pattern => globMatches pattern name

/-- `None` when the policy leaves every interface open. -/
def resolveInterfaces (policy : InterfacePolicy) (available : List String) :
    Except NetworkPlanError (Option (List String)) :=
  if policy.isUnrestricted then .ok none
  else
    let selected := sortDedup (· ≤ ·) (available.filter policy.selects)
    if selected.isEmpty then .error .interfaceSelectionEmpty else .ok (some selected)

def resolveForwardingInterfaces (policy : ForwardingPolicy) (available : List String) :
    Except NetworkPlanError (List String) :=
  if policy.enabled = false then .ok []
  else
    let selected := sortDedup (· ≤ ·) <| available.filter fun name =>
      (policy.hotspot && isHotspotInterface name) || (policy.usb && isUsbTetherInterface name)
    if selected.isEmpty || selected.length > 8 then .error .forwardingInterfaceSelectionEmpty
    else .ok selected

section

variable {policy : InterfacePolicy} {available : List String}

theorem resolveInterfaces_eq_some {names : List String}
    (h : resolveInterfaces policy available = .ok (some names)) :
    names ≠ [] ∧ ∀ name ∈ names, name ∈ available ∧ name ≠ "lo" := by
  unfold resolveInterfaces at h
  split at h
  · cases h
  · dsimp only at h
    split at h
    · cases h
    · next hempty =>
        obtain rfl := Option.some.inj (Except.ok.inj h)
        refine ⟨by simpa using hempty, fun name hname => ?_⟩
        simp only [mem_sortDedup, List.mem_filter, InterfacePolicy.selects, Bool.and_eq_true,
          bne_iff_ne] at hname
        exact ⟨hname.1, hname.2.1.1⟩

end

end NetHop.Capture
