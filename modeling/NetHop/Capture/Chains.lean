import NetHop.Capture.Plan
import NetHop.Netfilter.Traversal

/-!
# What each generated chain does

One equation for each chain: how a packet leaves it and with which mark.
-/

namespace NetHop.Capture

open Netfilter List Match CapturePolicy

def isDns (p : Packet) : Bool :=
  (p.protocol == .tcp || p.protocol == .udp) && p.destinationPort == 53

/-- What the DNS guard drops: plain DNS and DNS over TLS. -/
def isGuarded (p : Packet) : Bool :=
  isDns p || (p.protocol == .tcp && p.destinationPort == 853)

/-- Some interface of the selection matches; all of them do when there is none. -/
def reaches (interfaces : Option (List String)) (name : String) : Bool :=
  match interfaces with
  | some names => names.any fun pattern => interfaceMatches pattern name
  | none => true

variable (family : IpFamily)

def reserved (p : Packet) : Bool :=
  (reservedDestinations family).any fun range => range.covers p.destination

def CapturePolicy.includes (policy : CapturePolicy) (uid : UInt32) : Bool :=
  policy.includeUids.isEmpty || policy.includeUids.contains uid

theorem CapturePolicy.capturesUid_eq (policy : CapturePolicy) (uid : UInt32) :
    policy.capturesUid uid = (policy.includes uid && !policy.excludeUids.contains uid) := rfl

section

variable {jump : String → Mark → Verdict × Mark} {p : Packet} {mark : Mark}
  {policy : CapturePolicy} {allocation : ResourceCandidate}
  {interfaces : Option (List String)}

attribute [local simp] runRules Rule.matches holds

/-! ## Parts that chains share -/

theorem runRules_map_ret {α : Type} {xs : List α} {test : α → Match} :
    runRules jump p (xs.map fun x => ⟨[test x], .ret⟩) mark =
      if xs.any fun x => (test x).holds p mark then (.returned, mark) else (.passed, mark) := by
  refine (runRules_map_final fun tests rest h => by rw [runRules, if_pos h]).trans ?_
  simp

theorem runRules_outputUidBypasses : runRules jump p (outputUidBypasses policy) mark =
      if policy.excludeUids.contains p.uid then (.returned, mark) else (.passed, mark) := by
  unfold outputUidBypasses
  rw [runRules_map_ret]
  simp only [holds, contains_eq_any_beq]
  rfl

theorem runRules_reserved :
    runRules jump p ((reservedDestinations family).map fun range => ⟨[.destination range], .ret⟩)
        mark = if reserved family p then (.returned, mark) else (.passed, mark) := runRules_map_ret

/-- The tests of the capture rules, without the mark they set. -/
def captureTests (policy : CapturePolicy) (interfaces : Option (List String)) :
    List (List Match) :=
  match interfaces with
  | some names =>
    names.flatMap fun name =>
      if policy.includeUids.isEmpty then [[.outInterface name]]
      else policy.includeUids.map fun uid => [.outInterface name, .uidOwner uid]
  | none =>
    if policy.includeUids.isEmpty then [[]]
    else policy.includeUids.map fun uid => [.uidOwner uid]

theorem outputCaptureRules_eq : outputCaptureRules policy allocation interfaces =
      (captureTests policy interfaces).map fun tests => ⟨tests, setMark allocation⟩ := by
  unfold outputCaptureRules captureTests
  cases interfaces with
  | none =>
    dsimp only
    split <;> simp
  | some names =>
    dsimp only
    rw [map_flatMap]
    congr 1
    funext name
    split <;> simp

theorem exists_captureTests {m : Mark} :
    (∃ tests ∈ captureTests policy interfaces, tests.all (holds p m) = true) ↔
      (policy.includes p.uid && reaches interfaces p.outInterface) = true := by
  unfold captureTests includes reaches
  cases interfaces with
  | none =>
    by_cases hinclude : policy.includeUids.isEmpty = true
    · simp [hinclude]
    · simp [hinclude]
  | some names =>
    by_cases hinclude : policy.includeUids.isEmpty = true
    · simp [hinclude]
    · simp only [hinclude, Bool.false_eq_true, if_false, mem_flatMap, mem_map,
        Bool.false_or, Bool.and_eq_true, contains_iff_mem, any_eq_true]
      constructor
      · rintro ⟨tests, ⟨name, hname, uid, huid, rfl⟩, hall⟩
        simp only [all_cons, holds, all_nil, Bool.and_true, Bool.and_eq_true, beq_iff_eq] at hall
        rw [hall.2]
        exact ⟨huid, name, hname, hall.1⟩
      · rintro ⟨huid, name, hname, hmatch⟩
        refine ⟨_, ⟨name, hname, p.uid, huid, rfl⟩, ?_⟩
        simp [hmatch]

theorem captureTests_blind {tests : List Match} (h : tests ∈ captureTests policy interfaces)
    (m : Mark) : tests.all (holds p m) = tests.all (holds p 0) := by
  have hblind : ∀ t ∈ tests, t.holds p m = t.holds p 0 := by
    unfold captureTests at h
    cases interfaces with
    | none =>
      dsimp only at h
      split at h
      · simp_all
      · obtain ⟨uid, -, rfl⟩ := mem_map.mp h
        simp
    | some names =>
      obtain ⟨name, -, h⟩ := mem_flatMap.mp h
      split at h
      · obtain rfl := mem_singleton.mp h
        simp
      · obtain ⟨uid, -, rfl⟩ := mem_map.mp h
        simp
  rw [Bool.eq_iff_iff, all_eq_true, all_eq_true]
  exact forall₂_congr fun t ht => by rw [hblind t ht]

theorem runRules_outputCaptureRules :
    runRules jump p (outputCaptureRules policy allocation interfaces) mark = (.passed,
        if policy.includes p.uid && reaches interfaces p.outInterface then
          xmark allocation.mark allocation.mask mark else mark) := by
  rw [outputCaptureRules_eq]
  unfold setMark
  rw [runRules_map_setXmark allocation.within fun tests h m => captureTests_blind h m]
  simp only [exists_captureTests]

/-! ## Output chains -/

def tproxyOutputRules (policy : CapturePolicy) (allocation : ResourceCandidate)
    (family : IpFamily) (interfaces : Option (List String)) : List Rule :=
  [bypassRule policy allocation, replyRule] ++
    tproxyOutputTail policy allocation family interfaces

def dnsMark (allocation : ResourceCandidate) (p : Packet) (mark : Mark) : Mark :=
  if isDns p then xmark allocation.mark allocation.mask mark else mark

theorem runRules_dnsMark : runRules jump p
        [⟨[.protocol .tcp, .destinationPort 53], setMark allocation⟩,
          ⟨[.protocol .udp, .destinationPort 53], setMark allocation⟩] mark =
      (.passed, dnsMark allocation p mark) := by
  simp only [runRules, setMark, dnsMark, isDns, Rule.matches, all_cons, all_nil,
    holds, Bool.and_true]
  by_cases hport : p.destinationPort = 53
  · by_cases htcp : p.protocol = .tcp
    · simp [hport, htcp]
    · by_cases hudp : p.protocol = .udp
      · simp [hport, hudp]
      · simp [hport, htcp, hudp]
  · simp [hport]

theorem runRules_tproxyOutputTail :
    runRules jump p (tproxyOutputTail policy allocation family interfaces) mark =
      if policy.excludeUids.contains p.uid || reserved family p then
        (.returned, dnsMark allocation p mark) else (.passed,
          if policy.includes p.uid && reaches interfaces p.outInterface then
            xmark allocation.mark allocation.mask (dnsMark allocation p mark)
          else dnsMark allocation p mark) := by
  unfold tproxyOutputTail
  rw [append_assoc, append_assoc, runRules_append_of_passed runRules_dnsMark]
  cases hexclude : policy.excludeUids.contains p.uid with
  | true =>
    have hreturned : runRules jump p (outputUidBypasses policy) (dnsMark allocation p mark) =
        (.returned, dnsMark allocation p mark) := by
      rw [runRules_outputUidBypasses, hexclude, if_pos rfl]
    rw [runRules_append, hreturned, if_neg (by simp), Bool.true_or, if_pos rfl]
  | false =>
    have hpassed : runRules jump p (outputUidBypasses policy) (dnsMark allocation p mark) =
        (.passed, dnsMark allocation p mark) := by
      rw [runRules_outputUidBypasses, hexclude, if_neg Bool.false_ne_true]
    rw [runRules_append_of_passed hpassed, runRules_append, runRules_reserved]
    cases reserved family p with
    | true => rfl
    | false => exact runRules_outputCaptureRules

theorem runRules_tproxyOutputRules :
    runRules jump p (tproxyOutputRules policy allocation family interfaces) mark =
      if markMatches (bypassMarkOf policy) allocation.mask mark then (.returned, mark)
      else if p.reply then (.accepted, mark)
      else runRules jump p (tproxyOutputTail policy allocation family interfaces) mark := by
  simp [tproxyOutputRules, bypassRule, replyRule]

theorem runRules_tunRules : runRules jump p (tunRules policy allocation interfaces) mark =
      if markMatches (bypassMarkOf policy) allocation.mask mark ||
          interfaceMatches "lo" p.outInterface then (.returned, mark)
      else if p.reply then (.accepted, mark) else (.returned,
          if policy.capturesUid p.uid && reaches interfaces p.outInterface then
            xmark allocation.mark allocation.mask mark else mark) := by
  unfold tunRules
  rw [append_assoc]
  simp only [cons_append, nil_append, runRules, bypassRule, replyRule, Rule.matches,
    all_cons, all_nil, holds, Bool.and_true]
  cases markMatches (bypassMarkOf policy) allocation.mask mark with
  | true => rfl
  | false =>
    cases interfaceMatches "lo" p.outInterface with
    | true => rfl
    | false =>
      cases p.reply with
      | true => rfl
      | false =>
        rw [runRules_append, runRules_outputUidBypasses, capturesUid_eq]
        cases policy.excludeUids.contains p.uid with
        | true => simp
        | false =>
          rw [runRules_append_of_passed runRules_outputCaptureRules]
          simp

/-! ## Guard chains -/

theorem runRules_dnsDrops (protocol : Protocol) (port : Nat) :
    runRules jump p (dnsDrops interfaces protocol port) mark =
      if p.protocol == protocol && p.destinationPort == port && reaches interfaces p.outInterface
      then (.dropped, mark) else (.passed, mark) := by
  unfold dnsDrops reaches
  cases interfaces with
  | none => simp
  | some names =>
    refine (runRules_map_final fun tests rest h => by rw [runRules, if_pos h]).trans ?_
    congr 1
    apply propext
    simp only [all_cons, all_nil, holds, Bool.and_true, Bool.and_eq_true, any_eq_true]
    constructor
    · rintro ⟨name, hname, hmatch, hquery⟩
      exact ⟨hquery, name, hname, hmatch⟩
    · rintro ⟨hquery, name, hname, hmatch⟩
      exact ⟨name, hname, hmatch, hquery⟩

/-- The packets that pass the guard whatever they ask for. -/
def guardPasses (policy : CapturePolicy) (allocation : ResourceCandidate) (p : Packet)
    (mark : Mark) : Bool :=
  interfaceMatches "lo" p.outInterface || markMatches allocation.mark allocation.mask mark ||
    mark == bypassMarkOf policy

theorem runRules_dnsGuardRules : runRules jump p (dnsGuardRules policy allocation interfaces) mark =
      if !guardPasses policy allocation p mark && isGuarded p && reaches interfaces p.outInterface
      then (.dropped, mark) else (.returned, mark) := by
  have hfull : markMatches (bypassMarkOf policy) 0xffffffff mark =
      (mark == bypassMarkOf policy) := by
    unfold markMatches
    congr 1
    exact BitVec.and_allOnes
  unfold dnsGuardRules guardPasses isGuarded isDns
  simp only [cons_append, nil_append, runRules, Rule.matches, hasMark, all_cons,
    all_nil, holds, Bool.and_true, hfull]
  by_cases hlo : interfaceMatches "lo" p.outInterface = true
  · simp [hlo]
  by_cases hmark : markMatches allocation.mark allocation.mask mark = true
  · simp [hmark]
  by_cases hbypass : (mark == bypassMarkOf policy) = true
  · simp [hbypass]
  simp only [hlo, hmark, hbypass, Bool.false_eq_true, if_false, Bool.or_self, Bool.not_false,
    Bool.true_and, runRules_append, runRules_dnsDrops]
  cases reaches interfaces p.outInterface with
  | false => simp
  | true =>
    by_cases h53 : p.destinationPort = 53
    · cases p.protocol <;> simp [h53]
    · by_cases h853 : p.destinationPort = 853
      · cases p.protocol <;> simp [h853]
      · simp [h53, h853]

def guardOpen (p : Packet) : Bool := guardDestinations.any fun range => range.covers p.destination

theorem runRules_ipv6BlockRules : runRules jump p ipv6BlockRules mark =
      if guardOpen p then (.returned, mark) else (.dropped, mark) := by
  have hopen : runRules jump p
      (guardDestinations.map fun range => ⟨[.destination range], .ret⟩) mark =
        if guardOpen p then (.returned, mark) else (.passed, mark) := runRules_map_ret
  unfold ipv6BlockRules
  rw [runRules_append, hopen]
  cases guardOpen p with
  | true => rfl
  | false => rfl

/-- Where the block chain drops, the guard chain drops what the policy captures. -/
theorem runRules_ipv6GuardRules {slot : PlanSlot}
    (hblock : jump ("NH_V6B_" ++ slot.suffix) mark = (.dropped, mark)) :
    runRules jump p (ipv6GuardRules slot policy) mark =
      if policy.capturesUid p.uid then (.dropped, mark) else (.returned, mark) := by
  have hfinal : ∀ (tests : List Match) (rest : List Rule),
      (Rule.mk tests (.jump ("NH_V6B_" ++ slot.suffix))).matches p mark = true →
      runRules jump p (⟨tests, .jump ("NH_V6B_" ++ slot.suffix)⟩ :: rest) mark =
        (.dropped, mark) := by
    intro tests rest h
    rw [runRules, if_pos h]
    dsimp only
    rw [hblock]
    rfl
  unfold ipv6GuardRules
  rw [runRules_append, runRules_outputUidBypasses, capturesUid_eq]
  cases policy.excludeUids.contains p.uid with
  | true => simp
  | false =>
    simp only [Bool.false_eq_true, if_false, if_true, Bool.not_false, Bool.and_true]
    unfold includes
    by_cases hinclude : policy.includeUids.isEmpty = true
    · rw [if_pos hinclude, hfinal [] [] rfl, hinclude, Bool.true_or, if_pos rfl]
    · rw [if_neg hinclude, runRules_append, runRules_map_final hfinal]
      have hexists : (∃ uid ∈ policy.includeUids,
          [uidOwner uid].all (holds p mark) = true) ↔ p.uid ∈ policy.includeUids := by
        simp
      simp only [hexists, hinclude, Bool.false_or, contains_iff_mem]
      by_cases hmem : p.uid ∈ policy.includeUids
      · simp [hmem]
      · simp [hmem]

/-! ## Prerouting chain -/

def preroutingRules (slot : PlanSlot) (policy : CapturePolicy) (allocation : ResourceCandidate)
    (inboundPort : UInt16) : List Rule :=
  replyRule :: preroutingTail slot policy allocation inboundPort

def proxied (policy : CapturePolicy) (p : Packet) : Bool :=
  isDns p || (p.protocol == .tcp && policy.proxyTcp) || (p.protocol == .udp && policy.proxyUdp)

/-- A packet of the original direction that carries the mark. -/
theorem runRules_preroutingRules {slot : PlanSlot} {inboundPort : UInt16}
    (hdivert : jump ("NH_DIV_" ++ slot.suffix) mark =
      (.accepted, xmark allocation.mark allocation.mask mark))
    (hreply : p.reply = false) (hmark : markMatches allocation.mark allocation.mask mark = true) :
    (runRules jump p (preroutingRules slot policy allocation inboundPort) mark).1 =
      if p.protocol == .tcp && policy.proxyTcp && p.transparentSocket then .accepted
      else if proxied policy p then .proxied inboundPort.toNat else .passed := by
  unfold preroutingRules preroutingTail proxied isDns
  rw [runRules_skip (by simp [replyRule, hreply])]
  by_cases htcp : p.protocol = .tcp
  · cases policy.proxyTcp with
    | true =>
      by_cases hsocket : p.transparentSocket = true
      · simp [htcp, hsocket, hdivert, Verdict.comesBack]
      · by_cases hport : p.destinationPort = 53 <;>
          simp [hasMark, toTproxy, hmark, htcp, hsocket, hport]
    | false =>
      by_cases hport : p.destinationPort = 53
      · simp [hasMark, toTproxy, hmark, htcp, hport]
      · cases policy.proxyUdp <;> simp [hmark, htcp, hport]
  · by_cases hudp : p.protocol = .udp
    · by_cases hport : p.destinationPort = 53
      · cases policy.proxyTcp <;>
          simp [hasMark, toTproxy, hmark, hudp, hport]
      · cases policy.proxyTcp <;> cases policy.proxyUdp <;>
          simp [hasMark, toTproxy, hmark, hudp, hport]
    · cases policy.proxyTcp <;> cases policy.proxyUdp <;>
        simp [hmark, htcp, hudp]

end

end NetHop.Capture
