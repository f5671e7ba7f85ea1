import NetHop.Capture.Healthy

/-!
# Verifying the network with a plan in place

What the tools show of the network after a plan has been applied, and what the
verifier makes of it.
-/

namespace NetHop.Capture

open Generation Netfilter Words List PlanStep Probe Except PolicyRule

/-! ## What the tools show -/

/-- One of the lines has the words of the rule, and perhaps more behind them. -/
def PolicyRule.ShownIn (lines : List String) : PolicyRule → Prop
  | .fwmark priority mark mask table =>
    ∃ line ∈ lines, ∃ rest, split line =
      [toString priority.toNat ++ ":", "from", "all", "fwmark", markMask mark mask, "lookup",
        toString table.toNat] ++ rest
  | .other _ _ => True

def routeWords (device : String) (isLocal : Bool) : List String :=
  (if isLocal then ["local"] else []) ++ ["default", "dev", device]

/-- One of the lines has the words of the route, and perhaps more behind them. -/
def RouteEntry.ShownIn (lines : List String) : RouteEntry → Prop
  | .default device isLocal => ∃ rest, join (routeWords device isLocal ++ rest) ∈ lines
  | .other _ => True

/-- The probes show the network as it is, with the core listening on the port. -/
structure Shows (n : Network) (port : UInt16) (probe : Probe) : Prop where
  sockets : ∃ lines, probe .listeningSockets = some lines ∧
    ∃ line ∈ lines, ∃ token ∈ split line, endsWith token (":" ++ toString port.toNat) = true
  tables : ∀ family table, ∃ lines, probe (.netfilterSnapshot family table) = some lines ∧
    (n.tables (family, table)).table.Printed table.asStr lines
  rules : ∀ family, ∃ lines, probe (.policyRules family) = some lines ∧
    ∀ rule ∈ n.rules family, rule.ShownIn lines
  routes : ∀ family table, ∃ lines, probe (.routeTable family table) = some lines ∧
    ∀ route ∈ n.routes family, route.table = table → route.entry.ShownIn lines

structure SnapshotOf (plan : NetworkPlan) (family : IpFamily) (table : NetfilterTable)
    (snapshot : List String) : Prop where
  chain : ∀ {chain : String}, isWord chain = true → chain ∉ builtins table →
    plan.rulesOf family table chain ≠ [] →
    Shown snapshot chain (plan.rulesOf family table chain)
  rule : ∀ {chain : String} {rule : Rule}, rule ∈ plan.rulesOf family table chain →
    ruleLine chain rule ∈ snapshot
  declares : ∀ line ∈ snapshot, (split line).head? ≠ some "-N"

variable {l : Layout} {bypass : Mark} {allocation : ResourceCandidate}

section

variable {policy : CapturePolicy} {capabilities : CapabilityReport} {plan : NetworkPlan}
  {n n' : Network} {port : UInt16} {probe : Probe} {family : IpFamily} {table : NetfilterTable}

theorem Planned.snapshot (h : Planned policy capabilities plan)
    (hrun : runAll n (plan.steps.map apply) = some n') (hshows : Shows n' port probe)
    (family : IpFamily) (table : NetfilterTable) :
    ∃ snapshot, probe (.netfilterSnapshot family table) = some snapshot ∧
      SnapshotOf plan family table snapshot := by
  obtain ⟨snapshot, hsnapshot, hprinted⟩ := hshows.tables family table
  refine ⟨snapshot, hsnapshot, ?_, ?_, hprinted.head_ne⟩
  · intro chain hword hown hne
    obtain ⟨front, back, heq, hothers⟩ :=
      hprinted.chain_eq (n'.tables (family, table)).named (h.holds hrun hown hne)
    rw [map_map] at heq
    exact ⟨hword, front, back, heq, hothers⟩
  · intro chain rule hrule
    exact hprinted.mem_of_hasRule (hasRule_of_runAll h.orderly.isAction hrun (.inr hrule))

variable {snapshot : List String}

theorem SnapshotOf.shown (hof : SnapshotOf plan family table snapshot) {chain : String}
    {rule : Rule} {rules : List Rule} (hown : isWord chain = true ∧ chain ∉ builtins table)
    (h : plan.rulesOf family table chain = rule :: rules) :
    Shown snapshot chain (rule :: rules) := by
  rw [← h]
  refine hof.chain hown.1 hown.2 ?_
  rw [h]
  exact cons_ne_nil _ _

theorem SnapshotOf.hook (hof : SnapshotOf plan family table snapshot) {source : String}
    {rule : Rule} (h : plan.rulesOf family table source = [rule]) :
    ruleLine source rule ∈ snapshot := by
  refine hof.rule ?_
  rw [h]
  exact mem_singleton.mpr rfl

theorem socketOutputContainsPort_of_shows (hshows : Shows n port probe) :
    ∃ sockets, probe .listeningSockets = some sockets ∧
      socketOutputContainsPort sockets port = true := by
  obtain ⟨sockets, hsockets, line, hline, token, htoken, hend⟩ := hshows.sockets
  refine ⟨sockets, hsockets, any_eq_true.mpr ⟨token, ?_, ?_⟩⟩
  · exact mem_flatMap.mpr ⟨line, hline, htoken⟩
  · rw [hend, Bool.true_or]

theorem policyRuleMatches_of_split {line number table : String} {candidate : ResourceCandidate}
    {rest : List String}
    (hpriority : Text.parseU32 number.toList = some candidate.rulePriority.toNat)
    (htable : Text.parseU32 table.toList = some candidate.routeTable.toNat)
    (h : split line = [number ++ ":", "from", "all", "fwmark",
      markMask candidate.mark candidate.mask, "lookup", table] ++ rest) :
    policyRuleMatches line candidate = true := by
  have hcolon : endsWith (number ++ ":") ":" = true := endsWith_iff.mpr ⟨number.toList, by simp⟩
  have hfirst : number ++ ":" ≠ "fwmark" := by
    intro heq
    rw [heq] at hcolon
    exact absurd hcolon (by decide)
  unfold policyRuleMatches argumentMatches
  rw [h]
  simp [pairs, hcolon, hfirst, hpriority, htable, parseMarkMask_markMask]

theorem policyRuleMatches_of_shows (hshows : Shows n port probe)
    (hrule : .fwmark plan.allocation.rulePriority plan.allocation.mark plan.allocation.mask
      plan.allocation.routeTable ∈ n.rules family) :
    ∃ rules, probe (.policyRules family) = some rules ∧
      (rules.any fun line => policyRuleMatches line plan.allocation) = true := by
  obtain ⟨rules, hrules, hshown⟩ := hshows.rules family
  obtain ⟨line, hline, rest, hsplit⟩ := hshown _ hrule
  refine ⟨rules, hrules, any_eq_true.mpr ⟨line, hline, ?_⟩⟩
  exact policyRuleMatches_of_split (Text.parseU32_toString plan.allocation.rulePriority.toNat_lt)
    (Text.parseU32_toString plan.allocation.routeTable.toNat_lt) hsplit

theorem route_of_shows (hshows : Shows n port probe) {table : UInt32} {device : String}
    {isLocal : Bool} (hroute : ⟨table, .default device isLocal⟩ ∈ n.routes family) :
    ∃ routes, probe (.routeTable family table) = some routes ∧ ∀ needles : List String,
        (∀ needle ∈ needles, contains (join (routeWords device isLocal)) needle = true) →
        (routes.any fun line => needles.all fun needle => contains line needle) = true := by
  obtain ⟨routes, hroutes, hshown⟩ := hshows.routes family table
  obtain ⟨rest, hline⟩ := hshown _ hroute rfl
  refine ⟨routes, hroutes, fun needles hneedles => ?_⟩
  refine any_eq_true.mpr ⟨_, hline, all_eq_true.mpr fun needle hneedle => ?_⟩
  exact contains_join_left (hneedles needle hneedle)

/-! ## The checks -/

variable {lines : List String}

theorem Probe.run_eq {command : ProbeCommand}
    (h : probe command = some lines) : probe.run command = .ok lines := by
  unfold run
  rw [h]
  rfl

theorem snapshotContains_hook {source owner chain : String}
    (h : ruleLine source (hookRule owner chain) ∈ snapshot) :
    snapshotContains snapshot owner = true ∧ snapshotContains snapshot chain = true := by
  have howner : contains (" " ++ join [owner] ++ " ") owner = true :=
    contains_iff.mpr ⟨[' '], [' '], by simp [join_singleton]⟩
  have hchain : contains (" " ++ join ["-j", chain]) chain = true :=
    contains_iff.mpr ⟨" -j ".toList, [], by simp [join_cons_cons, join_singleton]⟩
  have htarget : (hookRule owner chain).target = .jump chain := rfl
  have hend : endsWith (ruleLine source (hookRule owner chain)) _ = true := endsWith_target htarget
  constructor
  · refine any_eq_true.mpr ⟨_, h, ?_⟩
    exact contains_ruleLine ["-m", "comment", "--comment"] [owner] ["-j", chain] rfl nofun nofun
      howner
  · refine any_eq_true.mpr ⟨_, h, ?_⟩
    exact contains_iff.mpr ((contains_iff.mp hchain).trans
      (contains_iff.mp (contains_of_endsWith hend)))

theorem own_chain (slot : PlanSlot) :
    ∀ stem ∈ ["NH_OUT_", "NH_PRE_", "NH_TUN_", "NH_DNS_"], ∀ table : NetfilterTable,
      isWord (stem ++ slot.suffix) = true ∧ stem ++ slot.suffix ∉ builtins table := by
  intro stem hstem table
  revert stem
  cases slot <;> cases table <;> decide

theorem Layout.Fits.interfaces_ne (fits : l.Fits capabilities) : l.interfaces ≠ some [] := by
  intro hempty
  have hresolve := fits.interfaces
  rw [hempty] at hresolve
  exact (resolveInterfaces_eq_some hresolve).1 rfl

variable {capture : List Rule} {interfaces : Option (List String)}

theorem verifyDnsGuard_eq_ok (hsnapshot : probe (.netfilterSnapshot family .filter) = some snapshot)
    (hof : SnapshotOf plan family .filter snapshot)
    (hinstalls : Installs plan family capture (dnsGuardRules policy plan.allocation interfaces))
    (hbypass : plan.bypassMark = bypassMarkOf policy) (hinterfaces : interfaces ≠ some []) :
    verifyDnsGuard probe plan family = .ok () := by
  have hshown : Shown snapshot plan.dnsGuardChain
      (dnsGuardRules policy plan.allocation interfaces) :=
    hof.shown (own_chain plan.slot "NH_DNS_" (by decide) .filter) hinstalls.guard
  unfold verifyDnsGuard
  split
  · simp only [bind_eq_ok, ensure_eq_ok]
    exact ⟨snapshot, run_eq hsnapshot,
      dnsGuardPresent_of_shown hshown hbypass hinterfaces (hof.hook hinstalls.guardHook)⟩
  · rfl

theorem verifyOwner_eq_ok (fits : l.Fits capabilities)
    (hcaptures : (l.tproxyPlan bypass).Captures family)
    (hsnapshot : probe (.netfilterSnapshot family .mangle) = some snapshot)
    (hof : SnapshotOf (l.tproxyPlan bypass) family .mangle snapshot) :
    verifyOwner probe (l.tproxyPlan bypass) family = .ok () ↔ l.policy.proxyTcp = true := by
  have hinstalls := tproxyPlan_installs fits hcaptures
  obtain ⟨hpre, -⟩ := tproxyPlan_prerouting fits hcaptures
  have hentry : (l.tproxyPlan bypass).captureChain family = "NH_OUT_" ++ l.slot.suffix :=
    tproxyPlan_captureChain fits hcaptures
  have hout : Shown snapshot ("NH_OUT_" ++ l.slot.suffix)
      (tproxyOutputRules l.policy l.allocation family l.interfaces) :=
    hof.shown (own_chain l.slot "NH_OUT_" (by decide) .mangle) (hentry ▸ hinstalls.capture)
  have hprerouting : Shown snapshot ("NH_PRE_" ++ l.slot.suffix)
      (preroutingRules l.slot l.policy l.allocation l.inboundPort) :=
    hof.shown (own_chain l.slot "NH_PRE_" (by decide) .mangle) hpre
  obtain ⟨howner, hchain⟩ := snapshotContains_hook (hof.hook hinstalls.captureHook)
  have hcaptured : (family == .ipv4 || (l.tproxyPlan bypass).ipv6Captured) = true := by
    cases family with
    | ipv4 => rfl
    | ipv6 => exact hcaptures
  have htable : (if family = .ipv6 ∧ (l.tproxyPlan bypass).ipv6Captured = false then
      NetfilterTable.filter else .mangle) = .mangle := by
    refine if_neg ?_
    rintro ⟨rfl, hfalse⟩
    rw [hfalse] at hcaptured
    cases hcaptured
  have hrun := run_eq hsnapshot
  unfold verifyOwner
  simp only [htable, hrun, hcaptured, bind_eq_ok, ensure_eq_ok, exists_const, ok.injEq,
    exists_eq_left', Bool.not_true, Bool.false_or,
    replyBypassPrecedesCapture_of_shown hout hprerouting,
    loopbackBypassPrecedesCapture_of_shown hprerouting, dnsCapturePresent_of_shown hout hprerouting,
    howner, Bool.true_and, and_true, true_and]
  exact and_iff_right hchain

theorem verifyOwner_guarded (hguarded : l.ipv6Guarded = true) (hcaptured : l.ipv6Captured = false)
    (hsnapshot : probe (.netfilterSnapshot .ipv6 .filter) = some snapshot)
    (hof : SnapshotOf (l.tproxyPlan bypass) .ipv6 .filter snapshot) :
    verifyOwner probe (l.tproxyPlan bypass) .ipv6 = .ok () := by
  have hentry : (l.tproxyPlan bypass).entryChain .ipv6 = "NH_V6G_" ++ l.slot.suffix :=
    if_pos ⟨rfl, hguarded⟩
  obtain ⟨howner, hchain⟩ :
      snapshotContains snapshot (l.tproxyPlan bypass).ownerMarker = true ∧ _ :=
    snapshotContains_hook (hof.hook (tproxyPlan_guardHook hguarded hcaptured))
  have hfree : (l.tproxyPlan bypass).ipv6Captured = false := hcaptured
  have hother : (.ipv6 == IpFamily.ipv4) = false := rfl
  have hrun := run_eq hsnapshot
  unfold verifyOwner
  simp [hfree, hother, hentry, hrun, howner, hchain]

theorem chainLine_capture {chain : String} (tests : List Match) :
    chainLine chain [" -j MARK "] (ruleLine chain ⟨tests, setMark allocation⟩) = true := by
  refine chainLine_ruleLine (forall_mem_singleton.mpr ?_)
  refine contains_ruleLine (tests.flatMap Match.words) ["-j", "MARK"]
    ["--set-xmark", markMask allocation.mark allocation.mask] ?_ nofun nofun (by decide)
  simp [Rule.words, setMark, Target.words]

theorem exists_captureRule (h : interfaces ≠ some []) :
    ∃ tests, ⟨tests, setMark allocation⟩ ∈ tunRules policy allocation interfaces := by
  have htests : captureTests policy interfaces ≠ [] := by
    unfold captureTests
    cases interfaces with
    | none =>
      dsimp only
      split
      · exact cons_ne_nil _ _
      · next hinclude => simpa using hinclude
    | some names =>
      obtain ⟨name, rest, rfl⟩ := exists_cons_of_ne_nil fun hnil => h (congrArg some hnil)
      refine append_ne_nil_of_left_ne_nil ?_ _
      split
      · exact cons_ne_nil _ _
      · next hinclude => simpa using hinclude
  obtain ⟨tests, hmem⟩ := exists_mem_of_ne_nil _ htests
  refine ⟨tests, ?_⟩
  unfold tunRules
  rw [outputCaptureRules_eq]
  exact mem_append_left _ (mem_append_right _ (mem_map.mpr ⟨tests, hmem, rfl⟩))

theorem verifyTunOwner_eq_ok (fits : l.Fits capabilities)
    (hcaptures : (l.tunPlan bypass).Captures family)
    (hsnapshot : probe (.netfilterSnapshot family .mangle) = some snapshot)
    (hof : SnapshotOf (l.tunPlan bypass) family .mangle snapshot) :
    verifyTunOwner probe (l.tunPlan bypass) family = .ok () := by
  have hinstalls := tunPlan_installs fits hcaptures
  obtain ⟨howner, hchain⟩ := snapshotContains_hook (hof.hook hinstalls.captureHook)
  obtain ⟨tests, htests⟩ : ∃ tests, ⟨tests, setMark l.allocation⟩ ∈
      tunRules l.policy l.allocation l.interfaces := exists_captureRule fits.interfaces_ne
  have hmark : snapshot.any (chainLine ((l.tunPlan bypass).captureChain family) [" -j MARK "]) =
      true := by
    rw [← hinstalls.capture] at htests
    exact any_eq_true.mpr ⟨_, hof.rule htests, chainLine_capture tests⟩
  have hrun := run_eq hsnapshot
  unfold verifyTunOwner
  simp only [hrun, bind_eq_ok, ensure_eq_ok, howner, hchain, hmark, Bool.and_self, and_self,
    ok.injEq, exists_eq_left', exists_const]

theorem verifyForwarding_ne_ok
    (hsnapshot : probe (.netfilterSnapshot .ipv4 .filter) = some snapshot)
    (hof : SnapshotOf plan .ipv4 .filter snapshot) : verifyForwarding probe plan ≠ .ok () := by
  have hline : split ("-N " ++ ("NH_FWD_" ++ plan.slot.suffix)) =
      ["-N", "NH_FWD_" ++ plan.slot.suffix] := by
    cases plan.slot <;> decide
  have hmissing : snapshot.contains ("-N " ++ ("NH_FWD_" ++ plan.slot.suffix)) = false := by
    rw [← Bool.not_eq_true, contains_iff_mem]
    intro hmem
    exact hof.declares _ hmem (congrArg head? hline)
  have hrun := run_eq hsnapshot
  unfold verifyForwarding
  simp only [hrun, bind_eq_ok, ensure_eq_ok, hmissing, ok.injEq, exists_eq_left',
    exists_const, Bool.false_eq_true, false_and, ne_eq, not_false_eq_true]

/-! ## Routing -/

theorem tproxySteps_policy (l : Layout) (h : family = .ipv6 → l.ipv6Captured = true) :
    policySteps family l.allocation "lo" true ⊆ l.tproxySteps := by
  intro s hs
  unfold Layout.tproxySteps
  cases family with
  | ipv4 => simp [hs]
  | ipv6 => simp [hs, h rfl]

theorem tunSteps_policy (l : Layout) (h : family = .ipv6 → l.ipv6Captured = true) :
    policySteps family l.allocation "nethop0" false ⊆ l.tunSteps := by
  intro s hs
  unfold Layout.tunSteps
  cases family with
  | ipv4 => simp [hs]
  | ipv6 => simp [hs, h rfl]

variable (h : Planned policy capabilities plan)
  (hrun : runAll n (plan.steps.map apply) = some n') (hshows : Shows n' port probe)

include h hrun hshows

theorem Planned.routing {device : String} {isLocal : Bool}
    (hsteps : policySteps family plan.allocation device isLocal ⊆ plan.steps) :
    (∃ rules, probe (.policyRules family) = some rules ∧
      (rules.any fun line => policyRuleMatches line plan.allocation) = true) ∧
    ∃ routes, probe (.routeTable family plan.allocation.routeTable) = some routes ∧
      ∀ needles : List String,
        (∀ needle ∈ needles, contains (join (routeWords device isLocal)) needle = true) →
        (routes.any fun line => needles.all fun needle => contains line needle) = true := by
  have hbrings : ∀ s ∈ policySteps family plan.allocation device isLocal, Brings n' s.apply :=
    fun s hs => h.brings hrun (mem_map.mpr ⟨s, hsteps hs, rfl⟩)
  obtain ⟨hroute, hlast⟩ := forall_mem_cons.mp hbrings
  have hrule := forall_mem_singleton.mp hlast
  exact ⟨policyRuleMatches_of_shows hshows hrule, route_of_shows hshows hroute⟩

theorem verifyRouting_eq_ok (hsteps : policySteps family plan.allocation "lo" true ⊆ plan.steps) :
    verifyRouting probe plan family = .ok () := by
  obtain ⟨⟨rules, hrules, hmatches⟩, routes, hroutes, hline⟩ := h.routing hrun hshows hsteps
  have htarget : (routes.any fun line => contains line "local" && contains line "dev lo") =
      true := by
    simpa using hline ["local", "dev lo"] (by decide)
  have hrun := run_eq hrules
  have hrun' := run_eq hroutes
  unfold verifyRouting
  simp only [hrun, hrun', hmatches, htarget, bind_eq_ok, ensure_eq_ok, ok.injEq,
    exists_eq_left', exists_const, and_self]

theorem verifyTunRouting_eq_ok
    (hsteps : policySteps family plan.allocation "nethop0" false ⊆ plan.steps)
    (hinterface : plan.captureInterface = some "nethop0") :
    verifyTunRouting probe plan family = .ok () := by
  obtain ⟨⟨rules, hrules, hmatches⟩, routes, hroutes, hline⟩ := h.routing hrun hshows hsteps
  have htarget : (routes.any fun line => contains line "default" &&
      contains line ("dev " ++ "nethop0")) = true := by
    simpa using hline ["default", "dev nethop0"] (by decide)
  have hrun := run_eq hrules
  have hrun' := run_eq hroutes
  unfold verifyTunRouting
  simp only [hrun, hrun', hmatches, hinterface, htarget, bind_eq_ok, ensure_eq_ok, okOr_eq_ok,
    Option.some.injEq, ok.injEq, exists_eq_left', exists_const, and_self]

end

/-! ## The verifier -/

section

variable {policy : CapturePolicy} {capabilities : CapabilityReport} {plan : NetworkPlan}
  {n n' : Network} {port : UInt16} {probe : Probe}

theorem forwardingInterfaces_eq_nil_iff {forwarding : ForwardingPolicy}
    {available names : List String}
    (h : resolveForwardingInterfaces forwarding available = .ok names) :
    names = [] ↔ forwarding.enabled = false := by
  unfold resolveForwardingInterfaces at h
  cases henabled : forwarding.enabled with
  | false =>
    rw [henabled] at h
    cases h
    simp
  | true =>
    rw [henabled, if_neg (by decide)] at h
    dsimp only at h
    split at h
    · cases h
    next hselected =>
      cases h
      simp only [Bool.or_eq_true, List.isEmpty_iff, not_or] at hselected
      simpa using hselected.1

theorem verify_tunPlan (fits : l.Fits capabilities) (unguarded : l.ipv6Guarded = false)
    (hbypass : bypass = bypassMarkOf l.policy) (h : Planned policy capabilities (l.tunPlan bypass))
    (hrun : runAll n ((l.tunPlan bypass).steps.map apply) = some n')
    (hshows : Shows n' port probe) : verify probe (l.tunPlan bypass) port = .ok () := by
  obtain ⟨sockets, hsockets, hport⟩ := socketOutputContainsPort_of_shows hshows
  have hfamily : ∀ family, (l.tunPlan bypass).Captures family →
      verifyTunOwner probe (l.tunPlan bypass) family = .ok () ∧
        verifyTunRouting probe (l.tunPlan bypass) family = .ok () ∧
        verifyDnsGuard probe (l.tunPlan bypass) family = .ok () := by
    intro family hcaptures
    obtain ⟨mangle, hmangle, hofMangle⟩ := h.snapshot hrun hshows family .mangle
    obtain ⟨filter, hfilter, hofFilter⟩ := h.snapshot hrun hshows family .filter
    refine ⟨verifyTunOwner_eq_ok fits hcaptures hmangle hofMangle,
      verifyTunRouting_eq_ok h hrun hshows (tunSteps_policy l ?_) rfl,
      verifyDnsGuard_eq_ok hfilter hofFilter (tunPlan_installs fits hcaptures) hbypass
        fits.interfaces_ne⟩
    rintro rfl
    exact hcaptures
  obtain ⟨howner, hrouting, hguard⟩ := hfamily .ipv4 trivial
  have hmode : (l.tunPlan bypass).mode = .tun := rfl
  have hfree : (l.tunPlan bypass).ipv6Guarded = false := unguarded
  unfold verify
  simp only [hmode, if_true, run_eq hsockets, hport, howner, hrouting, hguard, bind_eq_ok,
    ensure_eq_ok, ok.injEq, exists_eq_left', exists_const, true_and]
  cases hcaptured : (l.tunPlan bypass).ipv6Captured with
  | true =>
    obtain ⟨howner6, hrouting6, hguard6⟩ := hfamily .ipv6 hcaptured
    simp [howner6, hrouting6, hguard6]
  | false => simp only [hfree, Bool.false_eq_true, if_false]

/-- A TPROXY plan is found in place when it forwards nothing and has a socket rule. -/
theorem verify_tproxyPlan (fits : l.Fits capabilities) (hbypass : bypass = bypassMarkOf l.policy)
    (h : Planned policy capabilities (l.tproxyPlan bypass))
    (hrun : runAll n ((l.tproxyPlan bypass).steps.map apply) = some n')
    (hshows : Shows n' port probe) : verify probe (l.tproxyPlan bypass) port = .ok () ↔
      l.forwardingInterfaces = [] ∧ l.policy.proxyTcp = true := by
  obtain ⟨sockets, hsockets, hport⟩ := socketOutputContainsPort_of_shows hshows
  have hfamily : ∀ family, (l.tproxyPlan bypass).Captures family →
      (verifyOwner probe (l.tproxyPlan bypass) family = .ok () ↔ l.policy.proxyTcp = true) ∧
        verifyRouting probe (l.tproxyPlan bypass) family = .ok () ∧
        verifyDnsGuard probe (l.tproxyPlan bypass) family = .ok () := by
    intro family hcaptures
    obtain ⟨mangle, hmangle, hofMangle⟩ := h.snapshot hrun hshows family .mangle
    obtain ⟨filter, hfilter, hofFilter⟩ := h.snapshot hrun hshows family .filter
    refine ⟨verifyOwner_eq_ok fits hcaptures hmangle hofMangle,
      verifyRouting_eq_ok h hrun hshows (tproxySteps_policy l ?_),
      verifyDnsGuard_eq_ok hfilter hofFilter (tproxyPlan_installs fits hcaptures) hbypass
        fits.interfaces_ne⟩
    rintro rfl
    exact hcaptures
  obtain ⟨howner, hrouting, hguard⟩ := hfamily .ipv4 trivial
  obtain ⟨filter4, hfilter4, hof4⟩ := h.snapshot hrun hshows .ipv4 .filter
  have hmode : ¬ (l.tproxyPlan bypass).mode = .tun := nofun
  have hforwarding : (l.tproxyPlan bypass).forwardingInterfaces = l.forwardingInterfaces := rfl
  -- what the verifier asks of IPv6 holds when the checks of IPv4 do
  have hipv6 : l.policy.proxyTcp = true → (if (l.tproxyPlan bypass).ipv6Captured = true then do
          verifyOwner probe (l.tproxyPlan bypass) .ipv6
          verifyDnsGuard probe (l.tproxyPlan bypass) .ipv6
          verifyRouting probe (l.tproxyPlan bypass) .ipv6
        else if (l.tproxyPlan bypass).ipv6Guarded = true then
          verifyOwner probe (l.tproxyPlan bypass) .ipv6
        else .ok ()) = .ok () := by
    intro htcp
    cases hcaptured : (l.tproxyPlan bypass).ipv6Captured with
    | true =>
      obtain ⟨howner6, hrouting6, hguard6⟩ := hfamily .ipv6 hcaptured
      simp [howner6.mpr htcp, hrouting6, hguard6]
    | false =>
      rw [if_neg Bool.false_ne_true]
      split
      next hguarded =>
        obtain ⟨filter6, hfilter6, hof6⟩ := h.snapshot hrun hshows .ipv6 .filter
        exact verifyOwner_guarded hguarded hcaptured hfilter6 hof6
      · rfl
  unfold verify
  simp only [hmode, if_false, run_eq hsockets, hport, howner, hrouting, hguard, hforwarding,
    bind_eq_ok, ensure_eq_ok, ok.injEq, exists_eq_left', exists_const, true_and]
  cases hnames : l.forwardingInterfaces with
  | nil =>
    exact ⟨fun hok => ⟨rfl, hok.1⟩, fun hok => ⟨hok.2, hipv6 hok.2⟩⟩
  | cons name names =>
    refine iff_of_false ?_ fun hnone => cons_ne_nil _ _ hnone.1
    rintro ⟨-, hok⟩
    obtain ⟨_, hfound, -⟩ := bind_eq_ok.mp hok
    exact verifyForwarding_ne_ok hfilter4 hof4 hfound

theorem Built.captureHook (h : Built capabilities policy plan) :
    plan.rulesOf .ipv4 .mangle "OUTPUT" =
      [hookRule plan.ownerMarker (plan.captureChain .ipv4)] := by
  cases h with
  | tproxy l fits mode port =>
    exact (tproxyPlan_installs fits (NetworkPlan.captures_ipv4 _)).captureHook
  | tun l fits mode unguarded =>
    exact (tunPlan_installs fits (NetworkPlan.captures_ipv4 _)).captureHook

theorem verifyDisabled_eq_error (h : Planned policy capabilities plan)
    (hrun : runAll n (plan.steps.map apply) = some n') (hshows : Shows n' port probe) :
    verifyDisabled probe plan = .error .captureStillAttached := by
  obtain ⟨mangle, hmangle, hof⟩ := h.snapshot hrun hshows .ipv4 .mangle
  have hattached : captureAttachmentPresent mangle plan = true := by
    unfold captureAttachmentPresent
    rw [(snapshotContains_hook (hof.hook h.built.captureHook)).1, Bool.true_or]
  unfold verifyDisabled
  rw [run_eq hmangle]
  change (ensure (!captureAttachmentPresent mangle plan) _ >>= _) = _
  rw [hattached]
  rfl

/-- A plan in place is never taken for a disabled one.  It is found healthy when it is a TUN plan,
or a TPROXY plan that forwards for nobody and takes TCP, and in no other case. -/
theorem planned_verify_iff (h : Planned policy capabilities plan)
    (hrun : runAll n (plan.steps.map apply) = some n') (hshows : Shows n' port probe) :
    verifyDisabled probe plan = .error .captureStillAttached ∧ (verify probe plan port = .ok () ↔
        policy.mode = .tun ∨ policy.forwardingPolicy.enabled = false ∧ policy.proxyTcp = true) := by
  refine ⟨verifyDisabled_eq_error h hrun hshows, ?_⟩
  cases h.built with
  | tproxy l fits mode inbound =>
    rw [verify_tproxyPlan fits rfl h hrun hshows, mode,
      forwardingInterfaces_eq_nil_iff fits.forwarding]
    simp
  | tun l fits mode unguarded =>
    exact iff_of_true (verify_tunPlan fits unguarded rfl h hrun hshows) (.inl mode)

end

/-! ### Probes of a concrete network -/

def PolicyRule.line : PolicyRule → String
  | .fwmark priority mark mask table =>
    toString priority.toNat ++ ":\t" ++
      join ["from", "all", "fwmark", markMask mark mask, "lookup", toString table.toNat]
  | .other priority text => toString priority.toNat ++ ":\t" ++ text

def RouteEntry.line : RouteEntry → String
  | .default device isLocal =>
    join (routeWords device isLocal ++ ["scope", if isLocal then "host" else "link"])
  | .other text => text

/-- The output of the tools for a network in which the core listens on the port. -/
def Network.probe (n : Network) (port : UInt16) : Probe
  | .listeningSockets => some [join ["tcp", "LISTEN", "0", "128", "*:" ++ toString port.toNat]]
  | .netfilterSnapshot family table =>
    some ((n.tables (family, table)).table.saved table.asStr fun _ => "- [0:0]")
  | .policyRules family => some ((n.rules family).map line)
  | .routeTable family table =>
    some (((n.routes family).filter fun route => route.table == table).map fun route =>
      route.entry.line)
  | .links => some []

theorem PolicyRule.shownIn {rule : PolicyRule} (h : rule.line ∈ lines) : rule.ShownIn lines := by
  cases rule with
  | other priority text => trivial
  | fwmark priority mark mask table =>
    let words := ["from", "all", "fwmark", markMask mark mask, "lookup", toString table.toNat]
    have hdigits : ∀ n : Nat, isWord (toString n) = true := fun n =>
      isWord_iff.mpr ⟨by simp, fun c hc => (digit_plain (Text.isDigit_of_mem_toString hc)).1⟩
    have hcolon : ∀ c ∈ ":".toList, isSpace c = false := by
      simp only [String.reduceToList, forall_mem_cons]
      exact ⟨by decide, nofun⟩
    have hnumber : isWord (toString priority.toNat ++ ":") = true := by
      obtain ⟨hne, hspace⟩ := isWord_iff.mp (hdigits priority.toNat)
      rw [isWord_iff, String.toList_append, forall_mem_append]
      exact ⟨append_ne_nil_of_left_ne_nil hne _, hspace, hcolon⟩
    have hwords : ∀ w ∈ words, isWord w = true := by
      simp only [words, forall_mem_cons]
      exact ⟨by decide, by decide, by decide, isWord_markMask, by decide, hdigits _, nofun⟩
    have htext : (fwmark priority mark mask table).line.toList =
        (toString priority.toNat ++ ":").toList ++ '\t' :: (join words).toList := by
      simp [line, words]
    refine ⟨_, h, [], ?_⟩
    have hsplit : split (join words) = words := split_join hwords
    unfold split at hsplit ⊢
    rw [htext, splitFrom_word hnumber (by decide), hsplit]
    rfl

theorem Network.shows_probe (n : Network) (port : UInt16) : Shows n port (n.probe port) where
  sockets := by
    have hport : isWord ("*:" ++ toString port.toNat) = true :=
      (word_append_toString (by decide) (by decide) _).1
    have hwords : ∀ w ∈ ["tcp", "LISTEN", "0", "128", "*:" ++ toString port.toNat],
        isWord w = true := by
      simp only [forall_mem_cons]
      exact ⟨by decide, by decide, by decide, by decide, hport, nofun⟩
    refine ⟨_, rfl, _, mem_singleton.mpr rfl, "*:" ++ toString port.toNat, ?_, ?_⟩
    · rw [split_join hwords]
      simp
    · exact endsWith_iff.mpr ⟨['*'], by simp⟩
  tables family table := ⟨_, rfl, fun _ => "- [0:0]", [], [], by simp, nofun⟩
  rules family := ⟨_, rfl, fun rule hrule => shownIn (mem_map.mpr ⟨rule, hrule, rfl⟩)⟩
  routes family table := by
    refine ⟨_, rfl, fun route hroute htable => ?_⟩
    have hline : route.entry.line ∈ ((n.routes family).filter fun route =>
        route.table == table).map fun route => route.entry.line :=
      mem_map.mpr ⟨route, mem_filter.mpr ⟨hroute, beq_iff_eq.mpr htable⟩, rfl⟩
    cases hentry : route.entry with
    | other text => trivial
    | default device isLocal =>
      rw [hentry] at hline
      exact ⟨_, hline⟩

theorem samplePlan_verified : ∃ n', runAll busyNetwork (samplePlan.steps.map apply) = some n' ∧
      verify (n'.probe 7893) samplePlan 7893 = .ok () ∧
      verifyDisabled (n'.probe 7893) samplePlan = .error .captureStillAttached := by
  obtain ⟨n', hrun⟩ : ∃ n', runAll busyNetwork (samplePlan.steps.map apply) = some n' :=
    (PlannedSteps.capture samplePlan_planned).exists_runAll (by decide)
  obtain ⟨hattached, hhealthy⟩ := planned_verify_iff samplePlan_planned hrun (n'.shows_probe 7893)
  exact ⟨n', hrun, hhealthy.mpr (.inr ⟨rfl, rfl⟩), hattached⟩

def hotspotReport : CapabilityReport :=
  { sampleReport with
    interfaces := ["ap0"]
    interfaces_bounded := by decide
    interfaces_valid := by decide
    interfaces_sorted := .singleton _ }

def hotspotPolicy : CapturePolicy :=
  { samplePolicy .tproxy 0x200 sampleMark_ne_zero with
    forwardingPolicy := ⟨true, false⟩
    directUnforwarded := nofun }

def hotspotLayout : Layout :=
  { sampleLayout .tproxy 0x200 sampleMark_ne_zero with
    policy := hotspotPolicy
    forwardingInterfaces := ["ap0"] }

def udpPolicy : CapturePolicy :=
  { samplePolicy .tproxy 0x200 sampleMark_ne_zero with
    proxyTcp := false
    proxyUdp := true
    transport := fun _ => rfl }

def udpLayout : Layout := { sampleLayout .tproxy 0x200 sampleMark_ne_zero with policy := udpPolicy }

/-- Each of the two plans is in place, and the verifier does not find it healthy. -/
theorem hotspot_and_udp_unhealthy :
    (Planned hotspotPolicy hotspotReport (hotspotLayout.tproxyPlan 0x200) ∧
      ∃ n', runAll busyNetwork ((hotspotLayout.tproxyPlan 0x200).steps.map apply) =
          some n' ∧ Shows n' 7893 (n'.probe 7893) ∧
        verify (n'.probe 7893) (hotspotLayout.tproxyPlan 0x200) 7893 ≠ .ok ()) ∧
    Planned udpPolicy sampleReport (udpLayout.tproxyPlan 0x200) ∧
      ∃ n', runAll busyNetwork ((udpLayout.tproxyPlan 0x200).steps.map apply) = some n' ∧
        Shows n' 7893 (n'.probe 7893) ∧
        verify (n'.probe 7893) (udpLayout.tproxyPlan 0x200) 7893 ≠ .ok () := by
  have hhotspot : Planned hotspotPolicy hotspotReport (hotspotLayout.tproxyPlan 0x200) :=
    ⟨sampleGeneration, .a, .inl rfl⟩
  have hudp : Planned udpPolicy sampleReport (udpLayout.tproxyPlan 0x200) :=
    ⟨sampleGeneration, .a, .inl rfl⟩
  obtain ⟨n₁, hrun₁⟩ : ∃ n', runAll busyNetwork
      ((hotspotLayout.tproxyPlan 0x200).steps.map apply) = some n' :=
    (PlannedSteps.capture hhotspot).exists_runAll (by decide)
  obtain ⟨n₂, hrun₂⟩ : ∃ n', runAll busyNetwork
      ((udpLayout.tproxyPlan 0x200).steps.map apply) = some n' :=
    (PlannedSteps.capture hudp).exists_runAll (by decide)
  have hfits₁ : hotspotLayout.Fits hotspotReport := ⟨by decide, rfl, rfl, fun _ => rfl⟩
  have hfits₂ : udpLayout.Fits sampleReport := ⟨by decide, rfl, rfl, fun _ => rfl⟩
  refine ⟨⟨hhotspot, n₁, hrun₁, n₁.shows_probe 7893, fun hok => ?_⟩, hudp, n₂, hrun₂,
    n₂.shows_probe 7893, fun hok => ?_⟩
  · have hnone := (verify_tproxyPlan hfits₁ rfl hhotspot hrun₁ (n₁.shows_probe 7893)).mp hok
    cases hnone.1
  · have htcp := (verify_tproxyPlan hfits₂ rfl hudp hrun₂ (n₂.shows_probe 7893)).mp hok
    cases htcp.2

end NetHop.Capture
