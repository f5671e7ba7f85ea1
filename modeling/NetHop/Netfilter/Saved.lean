import Mathlib.Data.List.Nodup
import NetHop.Netfilter.Ruleset

/-!
# Saved tables

What the save tool prints of a table, one line for each chain and then one for each
rule, and where the rules of one chain stand in it.
-/

namespace NetHop.Netfilter

open Text Words List Table

def KernelRule.words : KernelRule → List String
  | .known rule => rule.words
  | .other words _ => words

def savedRule (chain : String) (r : KernelRule) : String := join ("-A" :: chain :: r.words)

/-- The lines of a table; the policy and the counters of a chain are not told apart here. -/
def Table.saved (t : Table) (name : String) (status : Chain → String) : List String :=
  ["*" ++ name] ++ (t.map fun c => ":" ++ c.name ++ " " ++ status c) ++
    (t.flatMap fun c => c.rules.map (savedRule c.name)) ++ ["COMMIT"]

/-- The output of the save tool: the lines of the table among comments. -/
def Table.Printed (t : Table) (name : String) (lines : List String) : Prop :=
  ∃ status front back, lines = front ++ t.saved name status ++ back ∧
    ∀ line ∈ front ++ back, line.toList.head? = some '#'

/-- The table has one chain of the name, with these rules. -/
def Table.Holds (t : Table) (name : String) (rules : List KernelRule) : Prop :=
  ∃ front c back, t = front ++ c :: back ∧ c.name = name ∧ c.rules = rules ∧
    ∀ d ∈ front ++ back, d.name ≠ name

def Table.HasRule (t : Table) (name : String) (r : KernelRule) : Prop :=
  ∃ c ∈ t, c.name = name ∧ r ∈ c.rules

/-! ## Lines -/

section

variable {t : Table} {name chain line : String} {lines : List String} {r : KernelRule}
  {rules : List KernelRule}

def OfChain (chain line : String) : Prop := (split line).take 2 = ["-A", chain]

theorem ofChain_savedRule (h : isWord chain = true) : OfChain chain (savedRule chain r) := by
  unfold OfChain savedRule
  rw [split_join_cons (by decide), split_join_cons h]
  rfl

theorem join_chain (chain : String) : join ["-A", chain] ++ " " = "-A " ++ chain ++ " " := by
  rw [← String.toList_inj]
  simp [join_cons_cons, join_singleton]

theorem ofChain_of_startsWith (h : isWord chain = true)
    (hstart : startsWith line ("-A " ++ chain ++ " ") = true) : OfChain chain line := by
  have hwords : ∀ w ∈ ["-A", chain], isWord w = true :=
    forall_mem_cons.mpr ⟨by decide, forall_mem_singleton.mpr h⟩
  exact take_split_of_startsWith (cons_ne_nil _ _) hwords hstart

theorem Rule.words_ne_nil (rule : Rule) : rule.words ≠ [] := by
  have htarget : rule.target.words ≠ [] := by
    cases rule.target <;> nofun
  exact append_ne_nil_of_right_ne_nil _ htarget

theorem startsWith_savedRule (rule : Rule) :
    startsWith (savedRule chain (.known rule)) ("-A " ++ chain ++ " ") = true := by
  rw [← join_chain]
  exact startsWith_join (cons_ne_nil _ _) rule.words_ne_nil

variable {needle : String} {front middle back : List String}

theorem contains_savedRule (hwords : r.words = front ++ middle ++ back) (hmiddle : middle ≠ [])
    (hback : back ≠ []) (hneedle : contains (" " ++ join middle ++ " ") needle = true) :
    contains (savedRule chain r) needle = true := by
  have hline : contains (savedRule chain r) (" " ++ join middle ++ " ") = true := by
    have hmiddle := contains_join_middle (cons_ne_nil "-A" (chain :: front)) hmiddle hback
    unfold savedRule
    rw [hwords]
    simpa using hmiddle
  exact contains_iff.mpr ((contains_iff.mp hneedle).trans (contains_iff.mp hline))

theorem endsWith_savedRule (hwords : r.words = front ++ back) (hback : back ≠ []) :
    endsWith (savedRule chain r) (" " ++ join back) = true := by
  have hend := endsWith_join (cons_ne_nil "-A" (chain :: front)) hback
  unfold savedRule
  rw [hwords]
  simpa using hend

theorem notMem_savedRule {c : Char} (hc : c ≠ ' ') (hchain : c ∉ ("-A " ++ chain).toList)
    (hwords : ∀ w ∈ r.words, c ∉ w.toList) : c ∉ (savedRule chain r).toList := by
  intro h
  obtain ⟨w, hw, hmem⟩ := mem_join hc h
  rw [String.toList_append, mem_append, not_or] at hchain
  rcases mem_cons.mp hw with rfl | hw
  · exact hchain.1 (mem_append_left [' '] hmem)
  · rcases mem_cons.mp hw with rfl | hw
    · exact hchain.2 hmem
    · exact hwords w hw hmem

/-- The line does not start as the line of a rule does. -/
def Plain (line : String) : Prop :=
  ∃ c, isSpace c = false ∧ c ≠ '-' ∧ line.toList.head? = some c

theorem plain_append {s : String} (h : Plain s) (s' : String) : Plain (s ++ s') := by
  obtain ⟨c, hspace, hne, hhead⟩ := h
  obtain ⟨rest, hrest⟩ := head?_eq_some_iff.mp hhead
  refine ⟨c, hspace, hne, ?_⟩
  rw [String.toList_append, hrest]
  rfl

theorem Plain.head_split (h : Plain line) {w : String} (hw : w.toList.head? = some '-') :
    (Words.split line).head? ≠ some w := by
  obtain ⟨c, hspace, hne, hhead⟩ := h
  obtain ⟨first, rest, hsplit, hfirst⟩ := Words.head_split hspace hhead
  rw [hsplit]
  intro heq
  cases heq
  rw [hfirst] at hw
  exact hne (Option.some.inj hw)

theorem Plain.not_ofChain (h : Plain line) : ¬ OfChain chain line := by
  intro hline
  unfold OfChain at hline
  refine h.head_split (w := "-A") (by decide) ?_
  cases hsplit : Words.split line with
  | nil => simp [hsplit] at hline
  | cons first rest =>
    rw [hsplit] at hline
    exact congrArg some (cons.inj hline).1

theorem not_ofChain_of_ne {other : String} (h : isWord other = true) (hne : other ≠ chain) :
    ¬ OfChain chain (savedRule other r) := by
  intro hline
  have hother : OfChain other (savedRule other r) := ofChain_savedRule h
  unfold OfChain at hline hother
  rw [hother] at hline
  exact hne (cons.inj (cons.inj hline).2).1

namespace Table.Printed

variable (h : t.Printed name lines)

include h

theorem rules_eq :
    ∃ front back, lines = front ++ (t.flatMap fun c => c.rules.map (savedRule c.name)) ++ back ∧
      ∀ line ∈ front ++ back, Plain line := by
  obtain ⟨status, comments, comments', rfl, hcomments⟩ := h
  have hcomment : ∀ line ∈ comments ++ comments', Plain line := fun line hline =>
    ⟨'#', by decide, by decide, hcomments line hline⟩
  rw [forall_mem_append] at hcomment
  refine ⟨comments ++ (["*" ++ name] ++ t.map fun c => ":" ++ c.name ++ " " ++ status c),
    ["COMMIT"] ++ comments', by simp [saved], ?_⟩
  simp only [forall_mem_append, forall_mem_map, forall_mem_singleton]
  refine ⟨⟨hcomment.1, plain_append ⟨'*', by decide, by decide, by decide⟩ name, fun c _ => ?_⟩,
    ⟨'C', by decide, by decide, by decide⟩, hcomment.2⟩
  rw [String.append_assoc, String.append_assoc]
  exact plain_append ⟨':', by decide, by decide, by decide⟩ _

theorem chain_eq (hnamed : t.Named) (hholds : t.Holds chain rules) :
    ∃ front back, lines = front ++ rules.map (savedRule chain) ++ back ∧
      ∀ line ∈ front ++ back, ¬ OfChain chain line := by
  obtain ⟨front, back, rfl, hplain⟩ := h.rules_eq
  obtain ⟨before, c, after, rfl, rfl, rfl, hothers⟩ := hholds
  have hrules : ∀ d ∈ before ++ after, ∀ line ∈ d.rules.map (savedRule d.name),
      ¬ OfChain c.name line := by
    intro d hd
    rw [forall_mem_map]
    refine fun r _ => not_ofChain_of_ne (hnamed d ?_) (hothers d hd)
    rcases mem_append.mp hd with hd | hd
    · exact mem_append_left _ hd
    · exact mem_append_right _ (mem_cons_of_mem _ hd)
  rw [forall_mem_append] at hrules hplain
  refine ⟨front ++ before.flatMap fun d => d.rules.map (savedRule d.name),
    (after.flatMap fun d => d.rules.map (savedRule d.name)) ++ back, by simp, ?_⟩
  simp only [forall_mem_append, forall_mem_flatMap]
  exact ⟨⟨fun line hline => (hplain.1 line hline).not_ofChain, hrules.1⟩, hrules.2,
    fun line hline => (hplain.2 line hline).not_ofChain⟩

theorem mem_of_hasRule (hrule : t.HasRule chain r) : savedRule chain r ∈ lines := by
  obtain ⟨front, back, rfl, -⟩ := h.rules_eq
  obtain ⟨c, hc, rfl, hr⟩ := hrule
  refine mem_append_left _ (mem_append_right _ ?_)
  exact mem_flatMap.mpr ⟨c, hc, mem_map.mpr ⟨r, hr, rfl⟩⟩

theorem head_ne : ∀ line ∈ lines, (split line).head? ≠ some "-N" := by
  obtain ⟨front, back, rfl, hplain⟩ := h.rules_eq
  rw [forall_mem_append] at hplain
  simp only [forall_mem_append, forall_mem_flatMap, forall_mem_map]
  refine ⟨⟨fun line hline => (hplain.1 line hline).head_split (by decide), fun c _ r _ => ?_⟩,
    fun line hline => (hplain.2 line hline).head_split (by decide)⟩
  unfold savedRule
  rw [split_join_cons (by decide), head?_cons]
  decide

end Table.Printed

end

/-! ## Chains in place -/

section

variable {t u : Table} {name : String} {rules : List KernelRule} {r : KernelRule}
  {appends : List (String × Rule)} {a : Attachment}

section

variable (h : t.Holds name rules)

include h

theorem Table.Holds.has : t.has name = true := by
  obtain ⟨front, c, back, rfl, hname, -, -⟩ := h
  exact has_iff.mpr ⟨c, by simp, hname⟩

theorem Table.Holds.append (hu : u.has name = false) : Table.Holds (t ++ u) name rules := by
  obtain ⟨front, c, back, rfl, hname, hrules, hothers⟩ := h
  refine ⟨front, c, back ++ u, by simp, hname, hrules, ?_⟩
  rw [← append_assoc, forall_mem_append]
  exact ⟨hothers, has_eq_false_iff.mp hu⟩

theorem Table.Holds.extend :
    Table.Holds (Netfilter.extend appends t) name (rules ++ rulesFor appends name) := by
  obtain ⟨front, c, back, rfl, rfl, rfl, hothers⟩ := h
  refine ⟨Netfilter.extend appends front, { c with rules := c.rules ++ rulesFor appends c.name },
    Netfilter.extend appends back, by simp [Netfilter.extend], rfl, rfl, ?_⟩
  rw [← extend_append_table]
  exact forall_mem_map.mpr hothers

theorem Table.Holds.attach (hfresh : ∀ chain ∈ a.chains, t.has chain = false) :
    (t.attach a).Holds name (rules ++ rulesFor (a.hooks ++ a.body) name) := by
  rw [attach_eq]
  refine (h.append ?_).extend
  rw [← Bool.not_eq_true, a.has_fresh]
  intro hname
  have hhas := h.has
  rw [hfresh name hname] at hhas
  cases hhas

end

theorem Table.holds_attach (ha : a.Valid) (hfresh : ∀ chain ∈ a.chains, t.has chain = false)
    (hname : name ∈ a.chains) : (t.attach a).Holds name (rulesFor (a.hooks ++ a.body) name) := by
  obtain ⟨front, back, hchains⟩ := append_of_mem hname
  have hnodup := ha.distinct
  rw [hchains] at hnodup
  have hothers : ∀ chain ∈ front ++ back, chain ≠ name := by
    rw [nodup_middle, nodup_cons] at hnodup
    rintro chain hchain rfl
    exact hnodup.1 hchain
  have hbare : Table.Holds (t ++ a.fresh) name [] := by
    refine ⟨t ++ front.map (fun chain => ⟨chain, false, []⟩), ⟨name, false, []⟩,
      back.map fun chain => ⟨chain, false, []⟩, by simp [Attachment.fresh, hchains], rfl, rfl, ?_⟩
    rw [forall_mem_append] at hothers
    simp only [forall_mem_append, forall_mem_map]
    exact ⟨⟨has_eq_false_iff.mp (hfresh name hname), hothers.1⟩, hothers.2⟩
  exact hbare.extend

theorem Table.HasRule.attach (h : t.HasRule name r) : (t.attach a).HasRule name r := by
  obtain ⟨c, hc, hname, hr⟩ := h
  exact ⟨_, mem_map.mpr ⟨c, mem_append_left _ hc, rfl⟩, hname, mem_append_left _ hr⟩

theorem Table.hasRule_attach {rule : Rule} (hrule : (name, rule) ∈ a.hooks ++ a.body)
    (hhas : has (t ++ a.fresh) name = true) : (t.attach a).HasRule name (.known rule) := by
  obtain ⟨c, hc, hname⟩ := has_iff.mp hhas
  refine ⟨_, mem_map.mpr ⟨c, hc, rfl⟩, hname, mem_append_right _ ?_⟩
  exact mem_map_of_mem (mem_filterMap.mpr ⟨(name, rule), hrule, if_pos hname.symm⟩)

end

end NetHop.Netfilter
