import Mathlib.Data.List.TakeWhile
import NetHop.Capture.Health
import NetHop.Capture.Installed
import NetHop.Capture.Landing

/-!
# A plan in place is recognised

The verifier on the state that a plan leaves when all its steps have been applied:
which of its checks find what the plan has installed, and which do not.
-/

namespace NetHop.Capture

open Generation Netfilter Words List

variable {c : Char} {snapshot : List String} {chain : String} {rule : Rule}

/-! ## Numbers -/

def isMarkChar (c : Char) : Bool :=
  c == 'x' || c == '/' || (List.range 16).any fun d => c == Nat.digitChar d

section

variable {value mask : Mark}

theorem isMarkChar_of_mem_hex (h : c ∈ (hex value).toList) : isMarkChar c = true ∧ c ≠ '/' := by
  have hfront : ∀ c ∈ "0x".toList, isMarkChar c = true ∧ c ≠ '/' := by
    simp only [String.reduceToList, forall_mem_cons]
    exact ⟨by decide, by decide, nofun⟩
  have hdigit : ∀ d < 16, isMarkChar (Nat.digitChar d) = true ∧ Nat.digitChar d ≠ '/' := by decide
  unfold hex at h
  rw [String.toList_append] at h
  rcases mem_append.mp h with h | h
  · exact hfront c h
  · rw [String.toList_ofList] at h
    obtain ⟨d, hd, rfl⟩ := Text.mem_toDigits_sixteen h
    exact hdigit d hd

theorem isMarkChar_of_mem (h : c ∈ (markMask value mask).toList) : isMarkChar c = true := by
  unfold markMask at h
  rw [String.toList_append, String.toList_append] at h
  simp only [mem_append] at h
  rcases h with (h | h) | h
  · exact (isMarkChar_of_mem_hex h).1
  · have hslash : c = '/' := by simpa using h
    subst hslash
    decide
  · exact (isMarkChar_of_mem_hex h).1

theorem isWord_markMask : isWord (markMask value mask) = true := by
  have hdigit : ∀ d < 16, isSpace (Nat.digitChar d) = false := by decide
  refine isWord_iff.mpr ⟨by simp [markMask, hex], fun c hc => ?_⟩
  have hchar := isMarkChar_of_mem hc
  simp only [isMarkChar, Bool.or_eq_true, beq_iff_eq, any_eq_true, mem_range] at hchar
  rcases hchar with (rfl | rfl) | ⟨d, hd, rfl⟩
  · decide
  · decide
  · exact hdigit d hd

theorem parseU32_hex : parseU32 (hex value).toList = some value.toNat := by
  have htext : (hex value).toList = '0' :: 'x' :: Nat.toDigits 16 value.toNat := by
    simp [hex]
  rw [htext]
  exact Text.parseHexU32_toDigits value.isLt

theorem parseMarkMask_markMask :
    parseMarkMask (markMask value mask) = some (value.toNat, mask.toNat) := by
  have hsplit : splitOnce '/' (markMask value mask).toList =
      some ((hex value).toList, (hex mask).toList) := by
    have htext : (markMask value mask).toList = (hex value).toList ++ '/' :: (hex mask).toList := by
      simp [markMask]
    rw [htext]
    exact splitOnce_append fun h => (isMarkChar_of_mem_hex h).2 rfl
  unfold parseMarkMask
  rw [hsplit]
  simp [parseU32_hex]

end

/-! ## A chain in a snapshot -/

def ruleLine (chain : String) (rule : Rule) : String := savedRule chain (.known rule)

structure Shown (snapshot : List String) (chain : String) (rules : List Rule) : Prop where
  word : isWord chain = true
  parts : ∃ front back, snapshot = front ++ rules.map (ruleLine chain) ++ back ∧
    ∀ line ∈ front ++ back, ¬ OfChain chain line

namespace Shown

variable {rules before after : List Rule} {p q : String → Bool} {x y : Rule}

theorem any (h : Shown snapshot chain rules) (hx : x ∈ rules) (hp : p (ruleLine chain x) = true) :
    snapshot.any p = true := by
  obtain ⟨front, back, rfl, -⟩ := h.parts
  refine any_eq_true.mpr ⟨ruleLine chain x, ?_, hp⟩
  exact mem_append_left _ (mem_append_right _ (mem_map.mpr ⟨x, hx, rfl⟩))

theorem cut (h : Shown snapshot chain (before ++ after)) : ∃ front back, snapshot = front ++ back ∧
      (∀ rule ∈ before, ruleLine chain rule ∈ front) ∧
      (∀ rule ∈ after, ruleLine chain rule ∈ back) ∧
      ∀ line ∈ front, OfChain chain line → ∃ rule ∈ before, line = ruleLine chain rule := by
  obtain ⟨front, back, rfl, hothers⟩ := h.parts
  rw [forall_mem_append] at hothers
  refine ⟨front ++ before.map (ruleLine chain), after.map (ruleLine chain) ++ back, by simp,
    fun rule hrule => mem_append_right _ (mem_map.mpr ⟨rule, hrule, rfl⟩),
    fun rule hrule => mem_append_left _ (mem_map.mpr ⟨rule, hrule, rfl⟩), ?_⟩
  intro line hline hchain
  rcases mem_append.mp hline with hline | hline
  · exact absurd hchain (hothers.1 line hline)
  · obtain ⟨rule, hrule, rfl⟩ := mem_map.mp hline
    exact ⟨rule, hrule, rfl⟩

theorem le_findIdx {front back : List String} (hq : ∀ line, q line = true → OfChain chain line)
    (hfront : ∀ line ∈ front, OfChain chain line → ∃ rule ∈ before, line = ruleLine chain rule)
    (hbefore : ∀ rule ∈ before, q (ruleLine chain rule) = false)
    (hy : ruleLine chain y ∈ back) (hqy : q (ruleLine chain y) = true) :
    ∃ j, front.length ≤ j ∧ (front ++ back).findIdx? q = some j := by
  refine exists_le_findIdx? (fun line hline => ?_) hy hqy
  rw [← Bool.not_eq_true]
  intro hqline
  obtain ⟨rule, hrule, rfl⟩ := hfront line hline (hq line hqline)
  rw [hbefore rule hrule] at hqline
  cases hqline

section

variable (h : Shown snapshot chain (before ++ after))
  (hq : ∀ line, q line = true → OfChain chain line) (hx : x ∈ before)

include h hq hx

theorem found_lt {find : List String → Option Nat} (hfind : ∀ {front back},
      ruleLine chain x ∈ front → ∃ i < front.length, find (front ++ back) = some i)
    (hbefore : ∀ rule ∈ before, q (ruleLine chain rule) = false) (hy : y ∈ after)
    (hqy : q (ruleLine chain y) = true) :
    ∃ i j, find snapshot = some i ∧ snapshot.findIdx? q = some j ∧ i < j := by
  obtain ⟨front, back, rfl, hfirst, hlast, hfront⟩ := h.cut
  obtain ⟨i, hi, hpi⟩ := @hfind front back (hfirst x hx)
  obtain ⟨j, hj, hqj⟩ := le_findIdx hq hfront hbefore (hlast y hy) hqy
  exact ⟨i, j, hpi, hqj, by omega⟩

theorem findIdx_lt (hp : p (ruleLine chain x) = true)
    (hbefore : ∀ rule ∈ before, q (ruleLine chain rule) = false) (hy : y ∈ after)
    (hqy : q (ruleLine chain y) = true) :
    ∃ i j, snapshot.findIdx? p = some i ∧ snapshot.findIdx? q = some j ∧ i < j :=
  h.found_lt hq hx (fun hmem => exists_findIdx?_lt hmem hp) hbefore hy hqy

theorem linesBefore_lt (hbefore : ∀ rule ∈ before, q (ruleLine chain rule) = false) (hy : y ∈ after)
    (hqy : q (ruleLine chain y) = true) :
    ∃ i j, linesBefore (ruleLine chain x) snapshot = some i ∧ snapshot.findIdx? q = some j ∧
      i < j :=
  h.found_lt hq hx (fun hmem => exists_linesBefore_lt hmem (startsWith_iff.mpr (prefix_refl _)))
    hbefore hy hqy

end

theorem findIdx_eq_none (h : Shown snapshot chain rules)
    (hq : ∀ line, q line = true → OfChain chain line)
    (hrules : ∀ rule ∈ rules, q (ruleLine chain rule) = false) : snapshot.findIdx? q = none := by
  obtain ⟨front, back, rfl, hothers⟩ := h.parts
  rw [findIdx?_eq_none_iff]
  intro line hline
  rw [← Bool.not_eq_true]
  intro hqline
  rw [mem_append, mem_append] at hline
  rcases hline with (hline | hline) | hline
  · exact hothers line (mem_append_left _ hline) (hq line hqline)
  · obtain ⟨rule, hrule, rfl⟩ := mem_map.mp hline
    rw [hrules rule hrule] at hqline
    cases hqline
  · exact hothers line (mem_append_right _ hline) (hq line hqline)

end Shown

/-! ## Lines of rules -/

section

variable {line needle : String} {needles : List String}

theorem ofChain_of_chainLine (hword : isWord chain = true)
    (h : chainLine chain needles line = true) : OfChain chain line := by
  unfold chainLine at h
  rw [Bool.and_eq_true] at h
  exact ofChain_of_startsWith hword h.1

theorem chainLine_ruleLine (h : ∀ needle ∈ needles, contains (ruleLine chain rule) needle = true) :
    chainLine chain needles (ruleLine chain rule) = true := by
  unfold chainLine
  rw [Bool.and_eq_true, all_eq_true]
  exact ⟨startsWith_savedRule rule, h⟩

theorem contains_ruleLine (front middle back : List String)
    (hwords : rule.words = front ++ middle ++ back) (hmiddle : middle ≠ []) (hback : back ≠ [])
    (hneedle : contains (" " ++ join middle ++ " ") needle = true) :
    contains (ruleLine chain rule) needle = true :=
  contains_savedRule (r := .known rule) hwords hmiddle hback hneedle

theorem chainLine_eq_false (hc : c ≠ ' ') (hneedle : c ∈ needle.toList)
    (hchain : c ∉ ("-A " ++ chain).toList) (hwords : ∀ w ∈ rule.words, c ∉ w.toList) :
    chainLine chain [needle] (ruleLine chain rule) = false := by
  have hline : contains (ruleLine chain rule) needle = false :=
    contains_eq_false hneedle (notMem_savedRule hc hchain hwords)
  simp [chainLine, hline]

end

/-! ## The chains of a TPROXY plan -/

variable {bypass : Mark} {l : Layout} {port : Nat}

section

variable {slot : PlanSlot} {policy : CapturePolicy} {allocation : ResourceCandidate}
  {family : IpFamily} {interfaces : Option (List String)} {inboundPort : UInt16}
  {protocol : Protocol}

theorem contains_protocol (word : String) :
    contains (" " ++ join ["-p", word] ++ " ") ("-p " ++ word ++ " ") = true :=
  contains_iff.mpr ⟨[' '], [], by simp [join_cons_cons, join_singleton]⟩

/-- The rule of the output chain that marks the DNS queries of a protocol. -/
def dnsMarkRule (allocation : ResourceCandidate) (protocol : Protocol) : Rule :=
  ⟨[.protocol protocol, .destinationPort 53], setMark allocation⟩

theorem chainLine_dns (middle : List String) {args : List String} {name needle : String}
    (hwords : rule.words = ["-p", protocol.word, "--dport", "53"] ++ middle ++ ["-j", name] ++ args)
    (hargs : args ≠ []) (hneedle : contains (" " ++ join ["-j", name] ++ " ") needle = true) :
    chainLine chain ["-p " ++ protocol.word ++ " ", "--dport 53 ", needle] (ruleLine chain rule) =
      true := by
  refine chainLine_ruleLine (forall_mem_cons.mpr ⟨?_, forall_mem_cons.mpr ⟨?_,
    forall_mem_singleton.mpr ?_⟩⟩)
  · exact contains_ruleLine [] ["-p", protocol.word] (["--dport", "53"] ++ middle ++ ["-j", name] ++
      args) hwords nofun nofun (contains_protocol _)
  · refine contains_ruleLine ["-p", protocol.word] ["--dport", "53"]
      (middle ++ ["-j", name] ++ args)
      (by simp [hwords]) nofun (by simp) (by decide)
  · exact contains_ruleLine (["-p", protocol.word, "--dport", "53"] ++ middle) ["-j", name] args
      hwords nofun hargs hneedle

theorem chainLine_dnsMark :
    chainLine chain ["-p " ++ protocol.word ++ " ", "--dport 53 ", " -j MARK "]
      (ruleLine chain (dnsMarkRule allocation protocol)) = true :=
  chainLine_dns [] rfl nofun (by decide)

theorem chainLine_dnsTproxy :
    chainLine chain ["-p " ++ protocol.word ++ " ", "--dport 53 ", " -j TPROXY "]
      (ruleLine chain ⟨[.protocol protocol, .destinationPort 53, hasMark allocation],
        toTproxy allocation inboundPort⟩) = true :=
  chainLine_dns (Match.words (hasMark allocation)) rfl nofun (by decide)

theorem chainLine_weaken {needle : String} {needles : List String} {line : String}
    (hmem : needle ∈ needles) (h : chainLine chain needles line = true) :
    chainLine chain [needle] line = true := by
  unfold chainLine at h ⊢
  rw [Bool.and_eq_true, all_eq_true] at h ⊢
  exact ⟨h.1, forall_mem_singleton.mpr (h.2 needle hmem)⟩

theorem chainLine_socket :
    chainLine chain [" -m socket "] (ruleLine chain ⟨[.protocol .tcp, .transparentSocket],
      .jump ("NH_DIV_" ++ slot.suffix)⟩) = true :=
  chainLine_ruleLine (forall_mem_singleton.mpr (contains_ruleLine ["-p", "tcp"]
    ["-m", "socket"] ["--transparent", "-j", "NH_DIV_" ++ slot.suffix] rfl nofun nofun
    (by decide)))

variable {value mask : Mark}

theorem notMem_markMask (h : isMarkChar c = false) : c ∉ (markMask value mask).toList := by
  intro hmem
  rw [isMarkChar_of_mem hmem] at h
  cases h

theorem notMem_toString {n : Nat} (h : c.isDigit = false) : c ∉ (toString n).toList := by
  intro hmem
  rw [Text.isDigit_of_mem_toString hmem] at h
  cases h

theorem notMem_around {front back : List String} (hc : isMarkChar c = false)
    (hfront : ∀ w ∈ front, c ∉ w.toList) (hback : ∀ w ∈ back, c ∉ w.toList) :
    ∀ w ∈ front ++ markMask value mask :: back, c ∉ w.toList :=
  forall_mem_append.mpr ⟨hfront, forall_mem_cons.mpr ⟨notMem_markMask hc, hback⟩⟩

theorem output_head_unmarked (h : 'K' ∉ ("-A " ++ chain).toList) :
    ∀ rule ∈ [bypassRule policy allocation, replyRule],
      chainLine chain [" -j MARK "] (ruleLine chain rule) = false := by
  have hbypass : ∀ w ∈ (bypassRule policy allocation).words, 'K' ∉ w.toList := by
    change ∀ w ∈ ["-m", "mark", "--mark"] ++ markMask _ _ :: ["-j", "RETURN"], 'K' ∉ w.toList
    exact notMem_around (by decide) (by decide) (by decide)
  have hreply : ∀ w ∈ replyRule.words, 'K' ∉ w.toList := by decide
  refine forall_mem_cons.mpr ⟨?_, forall_mem_singleton.mpr ?_⟩
  · exact chainLine_eq_false (by decide) (by decide) h hbypass
  · exact chainLine_eq_false (by decide) (by decide) h hreply

/-- The rule that leaves alone what comes in through the loopback without the mark. -/
def loopbackRule (allocation : ResourceCandidate) : Rule :=
  ⟨[.inInterface "lo", .notMark allocation.mark allocation.mask], .ret⟩

def socketRule (slot : PlanSlot) : Rule :=
  ⟨[.protocol .tcp, .transparentSocket], .jump ("NH_DIV_" ++ slot.suffix)⟩

def markedTproxy (allocation : ResourceCandidate) (inboundPort : UInt16) (protocol : Protocol) :
    Rule :=
  ⟨[.protocol protocol, hasMark allocation], toTproxy allocation inboundPort⟩

def dnsTproxy (allocation : ResourceCandidate) (inboundPort : UInt16) (protocol : Protocol) :
    Rule :=
  ⟨[.protocol protocol, .destinationPort 53, hasMark allocation], toTproxy allocation inboundPort⟩

theorem loopbackRule_notMem (hc : isMarkChar c = false)
    (h : ∀ w ∈ ["-i", "lo", "-m", "mark", "!", "--mark", "-j", "RETURN"], c ∉ w.toList) :
    ∀ w ∈ (loopbackRule allocation).words, c ∉ w.toList := by
  change ∀ w ∈ ["-i", "lo", "-m", "mark", "!", "--mark"] ++ markMask _ _ :: ["-j", "RETURN"],
    c ∉ w.toList
  refine notMem_around hc (fun w hw => h w ?_) fun w hw => h w ?_
  · exact mem_append_left ["-j", "RETURN"] hw
  · exact List.mem_append_right ["-i", "lo", "-m", "mark", "!", "--mark"] hw

theorem tproxy_no_socket (allocation : ResourceCandidate) (inboundPort : UInt16)
    (protocol : Protocol) (h : 's' ∉ ("-A " ++ chain).toList)
    (hprotocol : 's' ∉ protocol.word.toList) :
    chainLine chain [" -m socket "] (ruleLine chain (dnsTproxy allocation inboundPort protocol)) =
        false ∧ chainLine chain [" -m socket "]
        (ruleLine chain (markedTproxy allocation inboundPort protocol)) = false := by
  have htarget : ∀ w ∈ Target.words (toTproxy allocation inboundPort), 's' ∉ w.toList := by
    change ∀ w ∈ ["-j", "TPROXY", "--on-port", toString inboundPort.toNat, "--tproxy-mark",
      markMask _ _], 's' ∉ w.toList
    simp only [forall_mem_cons]
    exact ⟨by decide, by decide, by decide, notMem_toString (by decide), by decide,
      notMem_markMask (by decide), nofun⟩
  have hmark : ∀ w ∈ Match.words (hasMark allocation), 's' ∉ w.toList := by
    change ∀ w ∈ ["-m", "mark", "--mark"] ++ markMask _ _ :: [], 's' ∉ w.toList
    exact notMem_around (by decide) (by decide) (by decide)
  have hfront : ∀ w ∈ ["-p", protocol.word], 's' ∉ w.toList :=
    forall_mem_cons.mpr ⟨by decide, forall_mem_singleton.mpr hprotocol⟩
  constructor
  · refine chainLine_eq_false (by decide) (by decide) h ?_
    change ∀ w ∈ ["-p", protocol.word] ++ (["--dport", "53"] ++ (Match.words (hasMark allocation) ++
      [])) ++ Target.words (toTproxy allocation inboundPort), _
    simp only [forall_mem_append]
    exact ⟨⟨hfront, by decide, hmark, nofun⟩, htarget⟩
  · refine chainLine_eq_false (by decide) (by decide) h ?_
    change ∀ w ∈ ["-p", protocol.word] ++ (Match.words (hasMark allocation) ++ []) ++
      Target.words (toTproxy allocation inboundPort), _
    simp only [forall_mem_append]
    exact ⟨⟨hfront, hmark, nofun⟩, htarget⟩

theorem ruleLine_reply (chain : String) :
    ruleLine chain replyRule = "-A " ++ chain ++ " -m conntrack --ctdir REPLY -j ACCEPT" := by
  rw [← String.toList_inj]
  change (join ["-A", chain, "-m", "conntrack", "--ctdir", "REPLY", "-j", "ACCEPT"]).toList = _
  simp [join_cons_cons, join_singleton]

theorem slot_chars (slot : PlanSlot) : ∀ stem ∈ ["NH_OUT_", "NH_PRE_", "NH_DIV_"],
    isWord (stem ++ slot.suffix) = true ∧
      ∀ c ∈ ['K', 's', 'X'], c ∉ ("-A " ++ (stem ++ slot.suffix)).toList := by
  cases slot <;> simp only [forall_mem_cons, not_mem_nil, false_imp_iff, implies_true] <;> decide

theorem dnsMarkRule_mem (h : protocol = .tcp ∨ protocol = .udp) :
    dnsMarkRule allocation protocol ∈ tproxyOutputTail policy allocation family interfaces := by
  unfold tproxyOutputTail dnsMarkRule
  rcases h with rfl | rfl
  · simp
  · simp

theorem dnsTproxy_mem (h : protocol = .tcp ∨ protocol = .udp) :
    dnsTproxy allocation inboundPort protocol ∈
      preroutingTail slot policy allocation inboundPort := by
  unfold preroutingTail dnsTproxy
  rcases h with rfl | rfl
  · simp
  · simp

section

variable
  (hout : Shown snapshot ("NH_OUT_" ++ l.slot.suffix)
    (tproxyOutputRules l.policy l.allocation family l.interfaces))
  (hpre : Shown snapshot ("NH_PRE_" ++ l.slot.suffix)
    (preroutingRules l.slot l.policy l.allocation l.inboundPort))

include hout hpre

theorem replyBypassPrecedesCapture_of_shown :
    replyBypassPrecedesCapture snapshot (l.tproxyPlan bypass) = true := by
  obtain ⟨hword, hchars⟩ := slot_chars l.slot "NH_OUT_" (by decide)
  obtain ⟨hword', hchars'⟩ := slot_chars l.slot "NH_PRE_" (by decide)
  have hcapture : ∀ line, (chainLine ("NH_PRE_" ++ l.slot.suffix) [" -m socket "] line ||
      chainLine ("NH_PRE_" ++ l.slot.suffix) [" -j TPROXY "] line) = true →
        OfChain ("NH_PRE_" ++ l.slot.suffix) line := by
    intro line h
    rcases Bool.or_eq_true_iff.mp h with h | h <;> exact ofChain_of_chainLine hword' h
  have hreply : ∀ rule ∈ [replyRule], (chainLine ("NH_PRE_" ++ l.slot.suffix) [" -m socket "]
          (ruleLine ("NH_PRE_" ++ l.slot.suffix) rule) ||
        chainLine ("NH_PRE_" ++ l.slot.suffix) [" -j TPROXY "]
          (ruleLine ("NH_PRE_" ++ l.slot.suffix) rule)) = false := by
    rw [forall_mem_singleton, Bool.or_eq_false_iff]
    exact ⟨chainLine_eq_false (c := 's') (by decide) (by decide) (hchars' _ (by decide))
      (by decide), chainLine_eq_false (c := 'X') (by decide) (by decide) (hchars' _ (by decide))
      (by decide)⟩
  -- in each chain a DNS rule captures after the reply rule
  obtain ⟨i, j, hi, hj, hij⟩ := hout.linesBefore_lt (x := replyRule)
    (y := dnsMarkRule l.allocation .tcp) (fun _ => ofChain_of_chainLine hword) (by simp)
    (output_head_unmarked (hchars 'K' (by decide))) (dnsMarkRule_mem (.inl rfl))
    (chainLine_weaken (by simp) chainLine_dnsMark)
  obtain ⟨i', j', hi', hj', hij'⟩ := hpre.linesBefore_lt (x := replyRule)
    (y := dnsTproxy l.allocation l.inboundPort .tcp) hcapture (by simp) hreply
    (dnsTproxy_mem (.inl rfl))
    (Bool.or_eq_true_iff.mpr (.inr (chainLine_weaken (by simp) chainLine_dnsTproxy)))
  rw [ruleLine_reply] at hi hi'
  have hentry : (l.tproxyPlan bypass).entryChain .ipv4 = "NH_OUT_" ++ l.slot.suffix := rfl
  have hprerouting : (l.tproxyPlan bypass).preroutingChain = "NH_PRE_" ++ l.slot.suffix := rfl
  unfold replyBypassPrecedesCapture
  simp [hentry, hprerouting, hi, hi', hj, hj', hij, hij']

theorem dnsCapturePresent_of_shown : dnsCapturePresent snapshot (l.tproxyPlan bypass) = true := by
  have hprotocol : ∀ protocol : Protocol, protocol = .tcp ∨ protocol = .udp →
      (snapshot.any (chainLine ("NH_OUT_" ++ l.slot.suffix)
          ["-p " ++ protocol.word ++ " ", "--dport 53 ", " -j MARK "]) &&
        snapshot.any (chainLine ("NH_PRE_" ++ l.slot.suffix)
          ["-p " ++ protocol.word ++ " ", "--dport 53 ", " -j TPROXY "])) = true := by
    intro protocol h
    rw [Bool.and_eq_true]
    exact ⟨hout.any (mem_append_right _ (dnsMarkRule_mem h)) chainLine_dnsMark,
      hpre.any (mem_cons_of_mem _ (dnsTproxy_mem h)) chainLine_dnsTproxy⟩
  unfold dnsCapturePresent
  rw [all_eq_true, forall_mem_cons, forall_mem_singleton]
  exact ⟨hprotocol .tcp (.inl rfl), hprotocol .udp (.inr rfl)⟩

end

/-! ## The loopback rule -/

variable {words : List String}

theorem split_ruleLine (hword : isWord chain = true)
    (hrule : rule.words = words) (hwords : ∀ w ∈ words, isWord w = true) :
    split (ruleLine chain rule) = "-A" :: chain :: words := by
  subst hrule
  unfold ruleLine savedRule
  rw [split_join_cons (by decide), split_join_cons hword, split_join]
  · rfl
  · exact hwords

theorem split_loopbackRule (hword : isWord chain = true) :
    split (ruleLine chain (loopbackRule allocation)) = ["-A", chain, "-i", "lo", "-m", "mark",
      "!", "--mark", markMask allocation.mark allocation.mask, "-j", "RETURN"] := by
  refine split_ruleLine hword rfl ?_
  simp +decide [isWord_markMask]

theorem loopbackBypassMatches_loopbackRule (hword : isWord chain = true) :
    loopbackBypassMatches (ruleLine chain (loopbackRule allocation)) chain allocation = true := by
  unfold loopbackBypassMatches
  rw [split_loopbackRule hword]
  simp [pairs, parseMarkMask_markMask]

theorem ofChain_of_loopbackBypassMatches {line : String}
    (h : loopbackBypassMatches line chain allocation = true) : OfChain chain line := by
  unfold loopbackBypassMatches at h
  simp only [Bool.and_eq_true] at h
  exact beq_iff_eq.mp h.1.1.1.1

theorem loopbackBypassMatches_eq_false (hword : isWord chain = true)
    (hrule : rule.words = words) (hwords : ∀ w ∈ words, isWord w = true)
    (hloopback : ("-i", "lo") ∉ pairs ("-A" :: chain :: words)) :
    loopbackBypassMatches (ruleLine chain rule) chain allocation = false := by
  unfold loopbackBypassMatches
  rw [split_ruleLine hword hrule hwords]
  simp [hloopback]

theorem preroutingRules_loopback : preroutingRules slot policy allocation inboundPort =
      (replyRule :: if policy.proxyTcp then [socketRule slot] else []) ++
      (loopbackRule allocation :: dnsTproxy allocation inboundPort .tcp ::
        dnsTproxy allocation inboundPort .udp ::
        (if policy.proxyTcp then [markedTproxy allocation inboundPort .tcp] else []) ++
        if policy.proxyUdp then [markedTproxy allocation inboundPort .udp] else []) := by
  simp [preroutingRules, preroutingTail, socketRule, loopbackRule, dnsTproxy, markedTproxy]

theorem loopback_head_unmatched (hword : isWord ("NH_PRE_" ++ slot.suffix) = true) :
    ∀ rule ∈ [replyRule, socketRule slot],
      loopbackBypassMatches (ruleLine ("NH_PRE_" ++ slot.suffix) rule) ("NH_PRE_" ++ slot.suffix)
        allocation = false := by
  refine forall_mem_cons.mpr ⟨?_, forall_mem_singleton.mpr ?_⟩
  · refine loopbackBypassMatches_eq_false hword rfl (by decide) ?_
    cases slot <;> decide
  · refine loopbackBypassMatches_eq_false hword rfl ?_ ?_
    · cases slot <;> decide
    · cases slot <;> decide

theorem head_no_tproxy : ∀ rule ∈ [replyRule, socketRule slot, loopbackRule allocation],
      chainLine ("NH_PRE_" ++ slot.suffix) [" -j TPROXY "]
        (ruleLine ("NH_PRE_" ++ slot.suffix) rule) = false := by
  have hchain : 'X' ∉ ("-A " ++ ("NH_PRE_" ++ slot.suffix)).toList :=
    (slot_chars slot "NH_PRE_" (by decide)).2 'X' (by decide)
  have hwords : ∀ rule ∈ [replyRule, socketRule slot, loopbackRule allocation],
      ∀ w ∈ rule.words, 'X' ∉ w.toList := by
    refine forall_mem_cons.mpr ⟨by decide, forall_mem_cons.mpr ⟨?_,
      forall_mem_singleton.mpr (loopbackRule_notMem (by decide) (by decide))⟩⟩
    cases slot <;> decide
  exact fun rule hrule => chainLine_eq_false (by decide) (by decide) hchain (hwords rule hrule)

/-- The verifier wants a socket rule, which the plan has when it takes TCP. -/
theorem loopbackBypassPrecedesCapture_of_shown
    (hpre : Shown snapshot ("NH_PRE_" ++ l.slot.suffix)
      (preroutingRules l.slot l.policy l.allocation l.inboundPort)) :
    loopbackBypassPrecedesCapture snapshot (l.tproxyPlan bypass) = l.policy.proxyTcp := by
  have hprerouting : (l.tproxyPlan bypass).preroutingChain = "NH_PRE_" ++ l.slot.suffix := rfl
  have hallocation : (l.tproxyPlan bypass).allocation = l.allocation := rfl
  obtain ⟨hword, hchars⟩ := slot_chars l.slot "NH_PRE_" (by decide)
  rw [preroutingRules_loopback] at hpre
  unfold loopbackBypassPrecedesCapture
  rw [hprerouting, hallocation]
  cases htcp : l.policy.proxyTcp with
  | true =>
    simp only [htcp, if_true] at hpre
    obtain ⟨i, j, hi, hj, hij⟩ := hpre.findIdx_lt
      (x := socketRule l.slot) (y := loopbackRule l.allocation)
      (fun _ => ofChain_of_loopbackBypassMatches) (by simp) chainLine_socket
      (loopback_head_unmatched hword) (by simp) (loopbackBypassMatches_loopbackRule hword)
    have hpre' : Shown snapshot ("NH_PRE_" ++ l.slot.suffix)
        ([replyRule, socketRule l.slot, loopbackRule l.allocation] ++ _) := hpre
    obtain ⟨j', k, hj', hk, hjk⟩ := hpre'.findIdx_lt
      (p := fun line => loopbackBypassMatches line ("NH_PRE_" ++ l.slot.suffix) l.allocation)
      (x := loopbackRule l.allocation) (y := dnsTproxy l.allocation l.inboundPort .tcp)
      (fun _ => ofChain_of_chainLine hword) (by simp)
      (loopbackBypassMatches_loopbackRule hword) head_no_tproxy (by simp)
      (chainLine_weaken (by simp) chainLine_dnsTproxy)
    rw [hj] at hj'
    cases hj'
    simp [hi, hj, hk, hij, hjk]
  | false =>
    simp only [htcp, Bool.false_eq_true, if_false] at hpre
    have hsocket : snapshot.findIdx?
        (chainLine ("NH_PRE_" ++ l.slot.suffix) [" -m socket "]) = none := by
      refine hpre.findIdx_eq_none (fun _ => ofChain_of_chainLine hword) ?_
      have hchain := hchars 's' (by decide)
      have htcp := tproxy_no_socket l.allocation l.inboundPort .tcp hchain (by decide)
      have hudp := tproxy_no_socket l.allocation l.inboundPort .udp hchain (by decide)
      simp only [forall_mem_append, forall_mem_cons]
      refine ⟨⟨?_, nofun⟩, ⟨?_, htcp.1, hudp.1, nofun⟩, ?_⟩
      · exact chainLine_eq_false (c := 's') (by decide) (by decide) hchain (by decide)
      · exact chainLine_eq_false (c := 's') (by decide) (by decide) hchain
          (loopbackRule_notMem (by decide) (by decide))
      · cases l.policy.proxyUdp with
        | true => simpa using hudp.2
        | false => simp
    rw [hsocket]
    cases snapshot.findIdx? fun line =>
        loopbackBypassMatches line ("NH_PRE_" ++ l.slot.suffix) l.allocation with
    | none | some j => rfl

/-! ## The DNS guard -/

theorem endsWith_target {target : Target} (h : rule.target = target) :
    endsWith (ruleLine chain rule) (" " ++ join target.words) = true := by
  have htarget : target.words ≠ [] := by
    cases target <;> nofun
  subst h
  exact endsWith_savedRule (r := .known rule) rfl htarget

theorem endsWith_return (h : rule.target = .ret) :
    endsWith (ruleLine chain rule) " -j RETURN" = true ∧
      endsWith (ruleLine chain rule) " -j DROP" = false := by
  have hreturn : endsWith (ruleLine chain rule) " -j RETURN" = true := endsWith_target h
  exact ⟨hreturn, endsWith_eq_false hreturn (by decide) (by decide) (by decide)⟩

theorem returnBeforeDrop_of_shown {returns after : List Rule} {predicate : String → Bool}
    {x y : Rule} (h : Shown snapshot chain (returns ++ after))
    (hreturns : ∀ rule ∈ returns, rule.target = .ret) (hx : x ∈ returns)
    (hpredicate : predicate (ruleLine chain x) = true) (hy : y ∈ after)
    (hdrop : y.target = .drop) : returnBeforeDrop snapshot chain predicate = true := by
  have hstart : ∀ rule, Text.startsWith (ruleLine chain rule) ("-A " ++ chain ++ " ") = true :=
    fun rule => startsWith_savedRule rule
  have hend : endsWith (ruleLine chain y) " -j DROP" = true := endsWith_target hdrop
  obtain ⟨i, j, hi, hj, hij⟩ := h.findIdx_lt
    (p := fun line => Text.startsWith line ("-A " ++ chain ++ " ") &&
      endsWith line " -j RETURN" && predicate line)
    (q := fun line => Text.startsWith line ("-A " ++ chain ++ " ") && endsWith line " -j DROP")
    (fun line hline => ofChain_of_startsWith h.word (Bool.and_eq_true_iff.mp hline).1) hx
    (by simp [hstart, (endsWith_return (hreturns x hx)).1, hpredicate])
    (fun rule hrule => by simp [(endsWith_return (hreturns rule hrule)).2]) hy
    (by simp [hstart, hend])
  unfold returnBeforeDrop
  simp [hi, hj, hij]

theorem markArgumentMatches_ruleLine (hword : isWord chain = true) (hne : chain ≠ "--mark") :
    markArgumentMatches (ruleLine chain ⟨[.mark value mask], .ret⟩) value mask = true := by
  have hwords : ∀ w ∈ ["-m", "mark", "--mark", markMask value mask, "-j", "RETURN"],
      isWord w = true := by
    simp +decide [isWord_markMask]
  have hsplit : split (ruleLine chain ⟨[.mark value mask], .ret⟩) =
      ["-A", chain, "-m", "mark", "--mark", markMask value mask, "-j", "RETURN"] :=
    split_ruleLine hword rfl hwords
  unfold markArgumentMatches argumentMatches
  rw [hsplit]
  simp [pairs, hne, parseMarkMask_markMask]

section

variable (h : rule ∈ dnsDrops interfaces protocol port)

include h

theorem dnsDrop_shape : rule.target = .drop ∧ ∃ front, rule.words =
      front ++ ["-p", protocol.word] ++ ["--dport", toString port, "-j", "DROP"] := by
  cases interfaces with
  | none =>
    obtain rfl := mem_singleton.mp h
    exact ⟨rfl, [], rfl⟩
  | some names =>
    obtain ⟨name, -, rfl⟩ := mem_map.mp h
    exact ⟨rfl, ["-o", name], rfl⟩

theorem chainLine_dnsDrop :
    chainLine chain ["-p " ++ protocol.word ++ " ", "--dport " ++ toString port ++ " ", " -j DROP"]
      (ruleLine chain rule) = true := by
  obtain ⟨hdrop, front, hwords⟩ := dnsDrop_shape h
  have hport : contains (" " ++ join ["--dport", toString port] ++ " ")
      ("--dport " ++ toString port ++ " ") = true :=
    contains_iff.mpr ⟨[' '], [], by simp [join_cons_cons, join_singleton]⟩
  refine chainLine_ruleLine (forall_mem_cons.mpr ⟨?_, forall_mem_cons.mpr ⟨?_,
    forall_mem_singleton.mpr (contains_of_endsWith (endsWith_target hdrop))⟩⟩)
  · exact contains_ruleLine front ["-p", protocol.word] ["--dport", toString port, "-j", "DROP"]
      hwords nofun nofun (contains_protocol _)
  · refine contains_ruleLine (front ++ ["-p", protocol.word]) ["--dport", toString port]
      ["-j", "DROP"] ?_ nofun nofun hport
    rw [hwords]
    simp

end

theorem exists_dnsDrop (h : interfaces ≠ some []) (protocol : Protocol) (port : Nat) :
    ∃ rule, rule ∈ dnsDrops interfaces protocol port := by
  cases interfaces with
  | none => exact ⟨_, mem_singleton.mpr rfl⟩
  | some names =>
    cases names with
    | nil => exact absurd rfl h
    | cons name names => exact ⟨_, mem_map.mpr ⟨name, mem_cons_self, rfl⟩⟩

def hookRule (owner chain : String) : Rule := ⟨[.comment owner], .jump chain⟩

theorem dropWhile_eq_self {t : List Char} (h : c ∉ t) : t.dropWhile (· == c) = t := by
  refine dropWhile_eq_self_iff.mpr fun hl heq => h ?_
  exact beq_iff_eq.mp heq ▸ getElem_mem hl

theorem trimQuotes_eq {s : String} (h : '"' ∉ s.toList) : trimQuotes s = s := by
  have hreverse : '"' ∉ s.toList.reverse := fun hmem => h (mem_reverse.mp hmem)
  unfold trimQuotes
  rw [dropWhile_eq_self h, dropWhile_eq_self hreverse, reverse_reverse, String.ofList_toList]

theorem commentJumpMatches_hookRule {source owner : String} (hsource : isWord source = true)
    (howner : isWord owner = true) (hquotes : '"' ∉ owner.toList) (hchain : isWord chain = true) :
    commentJumpMatches (ruleLine source (hookRule owner chain)) source owner chain = true := by
  have hwords : ∀ w ∈ ["-m", "comment", "--comment", owner, "-j", chain], isWord w = true := by
    simp +decide [howner, hchain]
  have hsplit : split (ruleLine source (hookRule owner chain)) =
      ["-A", source, "-m", "comment", "--comment", owner, "-j", chain] :=
    split_ruleLine hsource rfl hwords
  unfold commentJumpMatches
  rw [hsplit]
  simp [pairs, trimQuotes_eq hquotes]

theorem digit_plain (h : c.isDigit = true) : isSpace c = false ∧ c ≠ '"' := by
  have hspace : isSpace c = false := by
    rw [← Bool.not_eq_true]
    intro hspace
    simp only [isSpace, Bool.or_eq_true, beq_iff_eq] at hspace
    rcases hspace with (((rfl | rfl) | rfl) | rfl) | rfl <;> exact absurd h (by decide)
  refine ⟨hspace, ?_⟩
  rintro rfl
  exact absurd h (by decide)

theorem word_append_toString {s : String} (hword : isWord s = true) (hquotes : '"' ∉ s.toList)
    (n : Nat) : isWord (s ++ toString n) = true ∧ '"' ∉ (s ++ toString n).toList := by
  obtain ⟨hne, hspace⟩ := isWord_iff.mp hword
  have hdigit : ∀ c ∈ (toString n).toList, isSpace c = false ∧ c ≠ '"' := fun c hc =>
    digit_plain (Text.isDigit_of_mem_toString hc)
  rw [isWord_iff, String.toList_append, forall_mem_append, mem_append, not_or]
  exact ⟨⟨append_ne_nil_of_left_ne_nil hne _, hspace, fun c hc => (hdigit c hc).1⟩, hquotes,
    fun hmem => (hdigit _ hmem).2 rfl⟩

theorem ownerMarker_word (plan : NetworkPlan) :
    isWord plan.ownerMarker = true ∧ '"' ∉ plan.ownerMarker.toList := by
  unfold NetworkPlan.ownerMarker
  split <;> exact word_append_toString (by decide) (by decide) _

theorem dnsGuardPresent_of_shown {plan : NetworkPlan}
    (hshown : Shown snapshot plan.dnsGuardChain (dnsGuardRules policy plan.allocation interfaces))
    (hbypass : plan.bypassMark = bypassMarkOf policy) (hinterfaces : interfaces ≠ some [])
    (hhook : ruleLine "OUTPUT" (hookRule plan.ownerMarker plan.dnsGuardChain) ∈ snapshot) :
    dnsGuardPresent snapshot plan = true := by
  obtain ⟨howner, hquotes⟩ := ownerMarker_word plan
  have hne : plan.dnsGuardChain ≠ "--mark" := by
    unfold NetworkPlan.dnsGuardChain
    cases plan.slot <;> decide
  have hcomment : commentJumpMatches (ruleLine "OUTPUT" (hookRule plan.ownerMarker
      plan.dnsGuardChain)) "OUTPUT" plan.ownerMarker plan.dnsGuardChain = true :=
    commentJumpMatches_hookRule (by decide) howner hquotes hshown.word
  let returns : List Rule := [⟨[.outInterface "lo"], .ret⟩, ⟨[hasMark plan.allocation], .ret⟩,
    ⟨[.mark (bypassMarkOf policy) 0xffffffff], .ret⟩]
  have hparts : Shown snapshot plan.dnsGuardChain (returns ++
      (dnsDrops interfaces .udp 53 ++ (dnsDrops interfaces .tcp 53 ++
        (dnsDrops interfaces .tcp 853 ++ [⟨[], .ret⟩])))) := by
    unfold dnsGuardRules at hshown
    simpa only [append_assoc] using hshown
  have hreturn : ∀ {predicate : String → Bool} {x : Rule}, x ∈ returns →
      predicate (ruleLine plan.dnsGuardChain x) = true →
      returnBeforeDrop snapshot plan.dnsGuardChain predicate = true := by
    intro predicate x hx hpredicate
    obtain ⟨drop, hdrop⟩ := exists_dnsDrop hinterfaces .udp 53
    exact returnBeforeDrop_of_shown hparts (by simp [returns]) hx hpredicate
      (mem_append_left _ hdrop) (dnsDrop_shape hdrop).1
  have hdrops : ∀ (protocol : Protocol) (port : Nat), (∀ rule ∈ dnsDrops interfaces protocol port,
        rule ∈ dnsGuardRules policy plan.allocation interfaces) →
      snapshot.any (chainLine plan.dnsGuardChain ["-p " ++ protocol.word ++ " ",
        "--dport " ++ toString port ++ " ", " -j DROP"]) = true := by
    intro protocol port hsubset
    obtain ⟨drop, hdrop⟩ := exists_dnsDrop hinterfaces protocol port
    exact hshown.any (hsubset drop hdrop) (chainLine_dnsDrop hdrop)
  unfold dnsGuardPresent
  simp only [Bool.and_eq_true, all_eq_true, forall_mem_cons]
  refine ⟨⟨⟨⟨any_eq_true.mpr ⟨_, hhook, hcomment⟩, ?_⟩, ?_⟩, ?_⟩, ?_, ?_, ?_, nofun⟩
  · refine hreturn (x := ⟨[.outInterface "lo"], .ret⟩) (by simp [returns]) ?_
    exact contains_ruleLine [] ["-o", "lo"] ["-j", "RETURN"] rfl nofun nofun (by decide)
  · exact hreturn (x := ⟨[hasMark plan.allocation], .ret⟩) (by simp [returns])
      (markArgumentMatches_ruleLine hshown.word hne)
  · rw [hbypass]
    exact hreturn (x := ⟨[.mark (bypassMarkOf policy) 0xffffffff], .ret⟩) (by simp [returns])
      (markArgumentMatches_ruleLine hshown.word hne)
  · exact hdrops .udp 53 fun rule hrule => by simp [dnsGuardRules, hrule]
  · exact hdrops .tcp 53 fun rule hrule => by simp [dnsGuardRules, hrule]
  · exact hdrops .tcp 853 fun rule hrule => by simp [dnsGuardRules, hrule]

end

end NetHop.Capture
