import NetHop.Netfilter.Rule
import NetHop.Words

/-!
# Tables of chains

One table of the packet filter and the lines of `iptables-restore --noflush` on
it.  A payload is applied as a whole or not at all.  An `Attachment` is the shape
of payload that adds chains of its own and hooks them into chains that are there;
`restore_rollback` says that it can be taken off again without a trace.
-/

namespace NetHop.Netfilter

open List

/-- A rule that is installed: one of the rules above, or any other. -/
inductive KernelRule where
  | known (rule : Rule)
  | other (words : List String) (jump : Option String)
  deriving DecidableEq

open KernelRule

def KernelRule.jumpsTo : KernelRule → Option String
  | .known rule => rule.jumpsTo
  | .other _ jump => jump

structure Chain where
  name : String
  builtin : Bool
  rules : List KernelRule

abbrev Table := List Chain

inductive Line where
  | newChain (name : String)
  | append (chain : String) (rule : Rule)
  | delete (chain : String) (rule : Rule)
  | flush (chain : String)
  | deleteChain (name : String)

open Line

namespace Table

variable (t : Table)

def has (name : String) : Bool := t.any fun c => c.name == name

def refersTo (name : String) : Bool :=
  t.any fun c => c.rules.any fun r => r.jumpsTo == some name

def modify (name : String) (f : List KernelRule → List KernelRule) (t : Table) : Table :=
  t.map fun c => if c.name = name then { c with rules := f c.rules } else c

/-- The chain is there, and every chain of that name holds the condition. -/
def every (name : String) (f : Chain → Bool) : Bool :=
  t.has name && t.all fun c => c.name != name || f c

end Table

open Table

variable (appends : List (String × Rule)) (t : Table)

def jumpResolves (rule : Rule) : Bool :=
  match rule.jumpsTo with
  | some name => t.has name
  | none => true

/-- One line; `none` when it is refused. -/
def Line.exec : Line → Option Table
  | .newChain name =>
    if Words.isWord name && !t.has name then some (t ++ [⟨name, false, []⟩]) else none
  | .append chain rule =>
    if t.has chain && jumpResolves t rule then
      some (t.modify chain fun rules => rules ++ [.known rule])
    else none
  | .delete chain rule =>
    if t.every chain fun c => c.rules.contains (.known rule) then
      some (t.modify chain fun rules => rules.erase (.known rule))
    else none
  | .flush chain => if t.has chain then some (t.modify chain fun _ => []) else none
  | .deleteChain name =>
    if t.every name (fun c => !c.builtin && c.rules.isEmpty) && !t.refersTo name then
      some (t.filter fun c => c.name != name)
    else none

def restore (lines : List Line) : Option Table := lines.foldlM exec t

@[simp] theorem restore_nil : restore t [] = some t := rfl

theorem restore_cons (line : Line) (lines : List Line) :
    restore t (line :: lines) = (line.exec t).bind fun u => restore u lines := by
  rfl

theorem restore_append (lines lines' : List Line) :
    restore t (lines ++ lines') = (restore t lines).bind fun u => restore u lines' := by
  unfold restore
  rw [foldlM_append]
  rfl

/-- Chains of its own, hooked into chains that are there. -/
structure Attachment where
  chains : List String
  hooks : List (String × Rule)
  body : List (String × Rule)

namespace Attachment

def apply (a : Attachment) : List Line :=
  a.chains.map newChain ++ (a.hooks ++ a.body).map fun x => append x.1 x.2

def rollback (a : Attachment) : List Line :=
  (a.hooks.map fun x => delete x.1 x.2) ++ a.chains.map flush ++
    a.chains.map deleteChain

/-- The hooks lead into the attachment and start outside it; nothing else leaves it. -/
structure Valid (a : Attachment) : Prop where
  words : ∀ name ∈ a.chains, Words.isWord name = true
  distinct : a.chains.Nodup
  hooks_outside : ∀ x ∈ a.hooks, x.1 ∉ a.chains
  hooks_inside : ∀ x ∈ a.hooks, ∃ name ∈ a.chains, x.2.jumpsTo = some name
  body_inside : ∀ x ∈ a.body, x.1 ∈ a.chains
  body_closed : ∀ x ∈ a.body, ∀ name, x.2.jumpsTo = some name → name ∈ a.chains

/-- The table has none of the chains, by name or by a jump. -/
structure FreeIn (a : Attachment) (t : Table) : Prop where
  absent : ∀ name ∈ a.chains, t.has name = false
  unreferenced : ∀ name ∈ a.chains, t.refersTo name = false

end Attachment

open Attachment

def rulesOn (name : String) (appends : List (String × Rule)) : List Rule :=
  appends.filterMap fun x => if x.1 = name then some x.2 else none

def rulesFor (name : String) : List KernelRule := (rulesOn name appends).map .known

def extend : Table :=
  t.map fun c => { c with rules := c.rules ++ rulesFor appends c.name }

def Table.attach (a : Attachment) : Table :=
  extend (a.hooks ++ a.body) (t ++ a.chains.map fun name => ⟨name, false, []⟩)

/-! ## Reading a table -/

variable {names : List String} {a : Attachment}

section

variable {t : Table} {name : String}

theorem Table.has_iff : t.has name = true ↔ ∃ c ∈ t, c.name = name := by
  simp [has]

theorem Table.has_eq_false_iff : t.has name = false ↔ ∀ c ∈ t, c.name ≠ name := by
  simp [has]

@[simp] theorem Table.has_append (u : Table) : has (t ++ u) name = (t.has name || u.has name) :=
  any_append

theorem Table.refersTo_eq_false_iff :
    t.refersTo name = false ↔ ∀ c ∈ t, ∀ r ∈ c.rules, r.jumpsTo ≠ some name := by
  simp [refersTo]

@[simp] theorem Table.refersTo_append (u : Table) :
    refersTo (t ++ u) name = (t.refersTo name || u.refersTo name) := any_append

theorem Table.has_map {f : Chain → Chain} (hf : ∀ c, (f c).name = c.name) :
    has (t.map f) name = t.has name := by
  unfold has
  rw [any_map]
  congr 1
  funext c
  simp [hf]

@[simp] theorem Table.has_modify (chain : String) (f : List KernelRule → List KernelRule) :
    (t.modify chain f).has name = t.has name := by
  apply has_map
  intro c
  split <;> rfl

@[simp] theorem has_extend : (extend appends t).has name = t.has name := has_map fun _ => rfl

@[simp] theorem extend_nil : extend [] t = t := by
  simp [extend, rulesFor, rulesOn]

theorem extend_append_table (u : Table) :
    extend appends (t ++ u) = extend appends t ++ extend appends u := map_append

@[simp] theorem rulesOn_cons (x : String × Rule) (appends : List (String × Rule)) :
    rulesOn name (x :: appends) = (if x.1 = name then [x.2] else []) ++ rulesOn name appends := by
  unfold rulesOn
  by_cases h : x.1 = name
  · simp [h]
  · simp [h]

theorem rulesFor_cons (x : String × Rule) (appends : List (String × Rule)) :
    rulesFor (x :: appends) name =
      (if x.1 = name then [.known x.2] else []) ++ rulesFor appends name := by
  unfold rulesFor
  rw [rulesOn_cons, map_append]
  split <;> rfl

variable {appends : List (String × Rule)}

theorem rulesFor_eq_nil (h : ∀ x ∈ appends, x.1 ≠ name) : rulesFor appends name = [] := by
  unfold rulesFor rulesOn
  rw [map_eq_nil_iff, filterMap_eq_nil_iff]
  intro x hx
  rw [if_neg (h x hx)]

theorem mem_rulesFor {r : KernelRule} (h : r ∈ rulesFor appends name) :
    ∃ x ∈ appends, x.1 = name ∧ r = .known x.2 := by
  obtain ⟨rule, hrule, rfl⟩ := mem_map.mp h
  obtain ⟨x, hx, heq⟩ := mem_filterMap.mp hrule
  split at heq
  · next hname => exact ⟨x, hx, hname, congrArg _ (Option.some.inj heq).symm⟩
  · cases heq

theorem extend_eq_self (h : ∀ x ∈ appends, t.has x.1 = false) : extend appends t = t := by
  conv_rhs => rw [← map_id t]
  apply map_congr_left
  intro c hc
  have hnil : rulesFor appends c.name = [] := by
    apply rulesFor_eq_nil
    intro x hx heq
    exact has_eq_false_iff.mp (h x hx) c hc heq.symm
  rw [hnil, append_nil]
  rfl

theorem jumpResolves_modify (rule : Rule) (chain : String) (f : List KernelRule → List KernelRule) :
    jumpResolves (t.modify chain f) rule = jumpResolves t rule := by
  unfold jumpResolves
  split
  · exact has_modify chain f
  · rfl

/-! ## Putting an attachment in place -/

theorem extend_cons (x : String × Rule) (appends : List (String × Rule)) : extend (x :: appends) t =
      extend appends (t.modify x.1 fun rules => rules ++ [.known x.2]) := by
  unfold extend Table.modify
  rw [map_map]
  apply map_congr_left
  intro c _
  rw [rulesFor_cons, Function.comp_apply]
  by_cases h : x.1 = c.name
  · rw [if_pos h, if_pos h.symm]
    simp
  · rw [if_neg h, if_neg (Ne.symm h)]
    rfl

theorem restore_newChains (hwords : ∀ name ∈ names, Words.isWord name = true) :
    restore t (names.map newChain) = if names.Nodup ∧ ∀ name ∈ names, t.has name = false then
        some (t ++ names.map fun name => ⟨name, false, []⟩) else none := by
  induction names generalizing t with
  | nil => simp
  | cons name names ih =>
    rw [forall_mem_cons] at hwords
    rw [map_cons, restore_cons, exec, hwords.1, Bool.true_and]
    cases hname : t.has name with
    | true =>
      rw [Bool.not_true, if_neg Bool.false_ne_true, if_neg, Option.bind_none]
      rintro ⟨-, h⟩
      rw [h name mem_cons_self] at hname
      cases hname
    | false =>
      rw [Bool.not_false, if_pos rfl, Option.bind_some, ih hwords.2]
      have hnew : ∀ m, has (t ++ [⟨name, false, []⟩]) m = (t.has m || name == m) := by
        simp [has]
      simp only [hnew, Bool.or_eq_false_iff, beq_eq_false_iff_ne, nodup_cons,
        forall_mem_cons, hname, true_and, append_assoc, singleton_append, map_cons]
      congr 1
      apply propext
      constructor
      · rintro ⟨hnodup, h⟩
        exact ⟨⟨fun hmem => (h name hmem).2 rfl, hnodup⟩, fun m hm => (h m hm).1⟩
      · rintro ⟨⟨hmem, hnodup⟩, h⟩
        exact ⟨hnodup, fun m hm => ⟨h m hm, fun heq => hmem (heq ▸ hm)⟩⟩

theorem restore_appends (appends : List (String × Rule)) :
    restore t (appends.map fun x => append x.1 x.2) =
      if ∀ x ∈ appends, t.has x.1 = true ∧ jumpResolves t x.2 = true then some (extend appends t)
      else none := by
  induction appends generalizing t with
  | nil => simp
  | cons x appends ih =>
    rw [map_cons, restore_cons, exec]
    by_cases hx : t.has x.1 = true ∧ jumpResolves t x.2 = true
    · rw [if_pos (by simp [hx]), Option.bind_some, ih, ← extend_cons]
      simp only [has_modify, jumpResolves_modify, forall_mem_cons, hx, and_self, true_and]
    · rw [if_neg (by simpa using hx), Option.bind_none, if_neg]
      exact fun h => hx (h x mem_cons_self)

def Attachment.fresh (a : Attachment) : Table := a.chains.map fun name => ⟨name, false, []⟩

theorem Attachment.has_fresh (a : Attachment) : a.fresh.has name = true ↔ name ∈ a.chains := by
  simp [has, fresh]

theorem Table.attach_eq (a : Attachment) : t.attach a = extend (a.hooks ++ a.body) (t ++ a.fresh) :=
  rfl

theorem restore_apply (ha : a.Valid) : restore t a.apply =
      if (∀ name ∈ a.chains, t.has name = false) ∧ ∀ x ∈ a.hooks, t.has x.1 = true then
        some (t.attach a) else none := by
  unfold apply
  rw [restore_append, restore_newChains ha.words]
  by_cases hfresh : ∀ name ∈ a.chains, t.has name = false
  · rw [if_pos ⟨ha.distinct, hfresh⟩, Option.bind_some, restore_appends]
    have hbody : ∀ x ∈ a.body, has (t ++ a.fresh) x.1 = true ∧
        jumpResolves (t ++ a.fresh) x.2 = true := by
      intro x hx
      have hname := a.has_fresh.mpr (ha.body_inside x hx)
      refine ⟨by rw [has_append, hname, Bool.or_true], ?_⟩
      unfold jumpResolves
      split
      next target htarget =>
        have hto := a.has_fresh.mpr (ha.body_closed x hx target htarget)
        rw [has_append, hto, Bool.or_true]
      · rfl
    have hhooks : ∀ x ∈ a.hooks, (has (t ++ a.fresh) x.1 = true ∧
        jumpResolves (t ++ a.fresh) x.2 = true ↔ t.has x.1 = true) := by
      intro x hx
      obtain ⟨target, htarget, hjump⟩ := ha.hooks_inside x hx
      have hto : jumpResolves (t ++ a.fresh) x.2 = true := by
        unfold jumpResolves
        rw [hjump]
        change has _ _ = true
        rw [has_append, a.has_fresh.mpr htarget, Bool.or_true]
      have hout : a.fresh.has x.1 = false := by
        apply eq_false_of_ne_true
        exact fun h => ha.hooks_outside x hx (a.has_fresh.mp h)
      rw [hto, has_append, hout, Bool.or_false, and_iff_left rfl]
    by_cases hplace : ∀ x ∈ a.hooks, t.has x.1 = true
    · rw [if_pos, if_pos ⟨hfresh, hplace⟩]
      · rfl
      · intro x hx
        rcases mem_append.mp hx with hx | hx
        · exact (hhooks x hx).mpr (hplace x hx)
        · exact hbody x hx
    · rw [if_neg, if_neg fun h => hplace h.2]
      intro h
      exact hplace fun x hx => (hhooks x hx).mp (h x (mem_append_left _ hx))
  · rw [if_neg fun h => hfresh h.2, Option.bind_none, if_neg fun h => hfresh h.1]

/-! ## Taking an attachment off -/

theorem Table.every_iff {f : Chain → Bool} :
    t.every name f = true ↔ t.has name = true ∧ ∀ c ∈ t, c.name = name → f c = true := by
  unfold every
  rw [Bool.and_eq_true, all_eq_true]
  refine and_congr_right fun _ => forall₂_congr fun c _ => ?_
  by_cases h : c.name = name
  · simp [h]
  · simp [h]

theorem exec_delete_extend {x : String × Rule} (hhas : t.has x.1 = true)
    (hnew : ∀ c ∈ t, known x.2 ∉ c.rules) :
    (delete x.1 x.2).exec (extend (x :: appends) t) = some (extend appends t) := by
  have hrules : ∀ c ∈ t, c.name = x.1 → c.rules ++ rulesFor (x :: appends) c.name =
        c.rules ++ .known x.2 :: rulesFor appends c.name := by
    intro c _ hname
    rw [rulesFor_cons, if_pos hname.symm]
    rfl
  rw [exec, if_pos]
  · congr 1
    unfold Table.modify extend
    rw [map_map]
    apply map_congr_left
    intro c hc
    rw [Function.comp_apply]
    by_cases hname : c.name = x.1
    · rw [if_pos hname]
      simp only [hrules c hc hname]
      rw [erase_append_right _ (hnew c hc), erase_cons_head]
    · rw [if_neg hname]
      simp [rulesFor_cons, if_neg (Ne.symm hname)]
  · rw [every_iff]
    refine ⟨by rw [has_extend]; exact hhas, fun c hc hname => ?_⟩
    obtain ⟨d, hd, rfl⟩ := mem_map.mp hc
    have hin : known x.2 ∈ d.rules ++ rulesFor (x :: appends) d.name := by
      rw [hrules d hd hname]
      simp
    simpa using hin

theorem restore_deletes {hooks : List (String × Rule)} (hhas : ∀ x ∈ hooks, t.has x.1 = true)
    (hnew : ∀ x ∈ hooks, ∀ c ∈ t, known x.2 ∉ c.rules) :
    restore (extend (hooks ++ appends) t) (hooks.map fun x => delete x.1 x.2) =
      some (extend appends t) := by
  induction hooks with
  | nil => rfl
  | cons x hooks ih =>
    rw [forall_mem_cons] at hhas hnew
    rw [map_cons, restore_cons, cons_append, exec_delete_extend hhas.1 hnew.1]
    exact ih hhas.2 hnew.2

theorem restore_flushes (hhas : ∀ name ∈ names, t.has name = true) : restore t (names.map flush) =
      some (t.map fun c => if c.name ∈ names then { c with rules := [] } else c) := by
  induction names generalizing t with
  | nil => simp
  | cons name names ih =>
    rw [forall_mem_cons] at hhas
    rw [map_cons, restore_cons, exec, if_pos hhas.1, Option.bind_some, ih]
    · unfold Table.modify
      rw [map_map]
      congr 1
      apply map_congr_left
      intro c _
      rw [Function.comp_apply]
      by_cases hname : c.name = name
      · have hmem : c.name ∈ name :: names := hname ▸ mem_cons_self
        rw [if_pos hname]
        split <;> rfl
      · simp [hname]
    · intro m hm
      rw [has_modify]
      exact hhas.2 m hm

theorem restore_deleteChains (hnodup : names.Nodup) (habsent : ∀ name ∈ names, t.has name = false)
    (hunreferenced : ∀ name ∈ names, t.refersTo name = false) :
    restore (t ++ names.map fun name => ⟨name, false, []⟩) (names.map deleteChain) = some t := by
  induction names with
  | nil => simp
  | cons name names ih =>
    rw [forall_mem_cons] at habsent hunreferenced
    obtain ⟨hmem, hnodup⟩ := nodup_cons.mp hnodup
    rw [map_cons, map_cons, restore_cons, exec, if_pos]
    · have hkeep : (t.filter fun c => c.name != name) = t := by
        rw [filter_eq_self]
        intro c hc
        simpa using has_eq_false_iff.mp habsent.1 c hc
      have hrest : ((names.map fun name => (⟨name, false, []⟩ : Chain)).filter
          fun c => c.name != name) = names.map fun name => ⟨name, false, []⟩ := by
        rw [filter_eq_self]
        intro c hc
        obtain ⟨m, hm, rfl⟩ := mem_map.mp hc
        have hne : m ≠ name := fun heq => hmem (heq ▸ hm)
        simpa using hne
      rw [filter_append, hkeep, filter_cons_of_neg (by simp), hrest]
      exact ih hnodup habsent.2 hunreferenced.2
    · have hnone : refersTo ((name :: names).map fun name => (⟨name, false, []⟩ : Chain))
          name = false := by
        simp [refersTo]
      rw [Bool.and_eq_true, every_iff]
      refine ⟨⟨by simp [has], fun c hc hname => ?_⟩, ?_⟩
      · rcases mem_append.mp hc with hc | hc
        · exact absurd hname (has_eq_false_iff.mp habsent.1 c hc)
        · rcases mem_cons.mp hc with rfl | hc
          · rfl
          · obtain ⟨m, _, rfl⟩ := mem_map.mp hc
            rfl
      · rw [refersTo_append, hunreferenced.1]
        simpa using hnone

theorem restore_rollback (ha : a.Valid) (hfree : a.FreeIn t)
    (hplace : ∀ x ∈ a.hooks, t.has x.1 = true) : restore (t.attach a) a.rollback = some t := by
  have hunhooked : ∀ x ∈ a.hooks, ∀ c ∈ t ++ a.fresh, known x.2 ∉ c.rules := by
    intro x hx c hc hmem
    obtain ⟨name, hname, hjump⟩ := ha.hooks_inside x hx
    rcases mem_append.mp hc with hc | hc
    · exact refersTo_eq_false_iff.mp (hfree.unreferenced name hname) c hc _ hmem hjump
    · obtain ⟨m, _, rfl⟩ := mem_map.mp hc
      cases hmem
  have hhooked : ∀ x ∈ a.hooks, has (t ++ a.fresh) x.1 = true := by
    intro x hx
    rw [has_append, hplace x hx, Bool.true_or]
  have hbody : extend a.body t = t := by
    apply extend_eq_self
    intro x hx
    exact hfree.absent x.1 (ha.body_inside x hx)
  have hflushed : (extend a.body (t ++ a.fresh)).map
      (fun c => if c.name ∈ a.chains then { c with rules := [] } else c) = t ++ a.fresh := by
    rw [extend_append_table, hbody, map_append]
    congr 1
    · conv_rhs => rw [← map_id t]
      apply map_congr_left
      intro c hc
      rw [if_neg]
      · rfl
      · intro hmem
        exact has_eq_false_iff.mp (hfree.absent c.name hmem) c hc rfl
    · unfold extend fresh
      rw [map_map, map_map]
      apply map_congr_left
      intro name hname
      exact if_pos hname
  unfold rollback
  rw [restore_append, restore_append, attach_eq, restore_deletes hhooked hunhooked,
    Option.bind_some, restore_flushes, Option.bind_some, hflushed]
  · exact restore_deleteChains ha.distinct hfree.absent hfree.unreferenced
  · intro name hname
    rw [has_extend, has_append, a.has_fresh.mpr hname, Bool.or_true]

end

/-! ## A rollback takes chains off -/

section

variable {t u : Table}

theorem length_exec_deleteChain_lt {name : String}
    (h : (deleteChain name).exec t = some u) : u.length < t.length := by
  simp only [exec, Option.ite_none_right_eq_some, Option.some.injEq, Bool.and_eq_true] at h
  obtain ⟨⟨hevery, -⟩, rfl⟩ := h
  obtain ⟨c, hc, hname⟩ := has_iff.mp (every_iff.mp hevery).1
  exact length_filter_lt_length_iff_exists.mpr ⟨c, hc, by simp [hname]⟩

theorem Line.length_exec_le {line : Line} (hnew : ∀ name, line ≠ .newChain name)
    (h : line.exec t = some u) : u.length ≤ t.length := by
  cases line with
  | newChain name => exact absurd rfl (hnew name)
  | deleteChain name => exact Nat.le_of_lt (length_exec_deleteChain_lt h)
  | _ =>
    simp only [exec, Option.ite_none_right_eq_some, Option.some.injEq] at h
    obtain ⟨-, rfl⟩ := h
    exact Nat.le_of_eq (length_map _)

theorem length_restore_le {lines : List Line}
    (hnew : ∀ line ∈ lines, ∀ name, line ≠ .newChain name) (h : restore t lines = some u) :
    u.length ≤ t.length := by
  induction lines generalizing t with
  | nil => exact Nat.le_of_eq (congrArg length (Option.some.inj h).symm)
  | cons line lines ih =>
    rw [forall_mem_cons] at hnew
    obtain ⟨v, hline, hlines⟩ := Option.bind_eq_some_iff.mp h
    exact Nat.le_trans (ih hnew.2 hlines) (length_exec_le hnew.1 hline)

theorem length_rollback_lt (hchains : a.chains ≠ []) (h : restore t a.rollback = some u) :
    u.length < t.length := by
  unfold rollback at h
  rw [restore_append] at h
  obtain ⟨v, hunhook, hdelete⟩ := Option.bind_eq_some_iff.mp h
  have hle : v.length ≤ t.length := by
    refine length_restore_le ?_ hunhook
    simp only [mem_append, mem_map]
    rintro line (⟨x, -, rfl⟩ | ⟨chain, -, rfl⟩) name
    · nofun
    · nofun
  obtain ⟨name, names, hnames⟩ := exists_cons_of_ne_nil hchains
  rw [hnames, map_cons] at hdelete
  obtain ⟨w, hfirst, hrest⟩ := Option.bind_eq_some_iff.mp hdelete
  have hle' : u.length ≤ w.length := by
    refine length_restore_le ?_ hrest
    rw [forall_mem_map]
    exact fun _ _ => nofun
  have hlt := length_exec_deleteChain_lt hfirst
  omega

end

end NetHop.Netfilter
