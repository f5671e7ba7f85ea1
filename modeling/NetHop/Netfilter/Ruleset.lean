import NetHop.Netfilter.Table
import NetHop.Undo

/-!
# Rule sets

A table as the kernel keeps it: every jump leads to a chain of the table, and the
built-in chains are there.  No line of a payload can break either, so they are
fields of `Ruleset`.  Putting an attachment in place is then a step that can be
taken back (`Attachment.reversible`), and attachments that share no chain do not
disturb each other (`Attachment.independent`).
-/

namespace NetHop.Netfilter

open List Table Line Bool Attachment

def Table.Closed (t : Table) : Prop :=
  ∀ c ∈ t, ∀ r ∈ c.rules, ∀ name, r.jumpsTo = some name → t.has name = true

def Table.HasBuiltin (t : Table) (name : String) : Prop :=
  ∃ c ∈ t, c.name = name ∧ c.builtin = true

/-- The chains can be told apart in a text. -/
def Table.Named (t : Table) : Prop := ∀ c ∈ t, Words.isWord c.name = true

variable {f : List KernelRule → List KernelRule}

section

variable {t u : Table} {line : Line} {lines : List Line} {name : String}

theorem Table.mem_modify {chain : String} {c : Chain} : c ∈ t.modify chain f ↔
      ∃ d ∈ t, c = if d.name = chain then { d with rules := f d.rules } else d := by
  unfold modify
  simp only [mem_map, eq_comm]

theorem Table.Closed.modify (h : t.Closed) {chain : String}
    (hf : ∀ c ∈ t, ∀ r ∈ f c.rules, r ∈ c.rules ∨
      ∀ name, r.jumpsTo = some name → t.has name = true) :
    (t.modify chain f).Closed := by
  intro c hc r hr name hjump
  rw [has_modify]
  obtain ⟨d, hd, rfl⟩ := mem_modify.mp hc
  split at hr
  · rcases hf d hd r hr with hmem | hresolved
    · exact h d hd r hmem name hjump
    · exact hresolved name hjump
  · exact h d hd r hr name hjump

theorem Table.HasBuiltin.modify (h : t.HasBuiltin name) (chain : String)
    (f : List KernelRule → List KernelRule) : (t.modify chain f).HasBuiltin name := by
  obtain ⟨c, hc, hname, hbuiltin⟩ := h
  refine ⟨_, mem_modify.mpr ⟨c, hc, rfl⟩, ?_⟩
  split <;> exact ⟨hname, hbuiltin⟩

/-- What a line can do: bring a chain, change rules without a jump into nothing, or take away a
chain that nothing refers to. -/
inductive Line.Does (t : Table) : Table → Prop
  | newChain (name : String) (hword : Words.isWord name = true) : Does t (t ++ [⟨name, false, []⟩])
  | modify (chain : String) (f : List KernelRule → List KernelRule)
      (hf : ∀ c ∈ t, ∀ r ∈ f c.rules, r ∈ c.rules ∨
        ∀ name, r.jumpsTo = some name → t.has name = true) : Does t (t.modify chain f)
  | deleteChain (name : String) (hown : ∀ c ∈ t, c.name = name → c.builtin = false)
      (hunreferenced : t.refersTo name = false) : Does t (t.filter fun c => c.name != name)

theorem Line.exec_does (hexec : line.exec t = some u) : Line.Does t u := by
  cases line <;> simp only [exec, Option.ite_none_right_eq_some, Option.some.injEq,
    and_eq_true, not_eq_true'] at hexec <;> obtain ⟨hguard, rfl⟩ := hexec
  case newChain name => exact .newChain name hguard.1
  case append chain rule =>
    refine .modify chain _ fun c _ r hr => ?_
    rcases mem_append.mp hr with hr | hr
    · exact .inl hr
    · obtain rfl := mem_singleton.mp hr
      refine .inr fun target (hjump : rule.jumpsTo = some target) => ?_
      have hresolves := hguard.2
      rwa [jumpResolves, hjump] at hresolves
  case delete chain rule => exact .modify chain _ fun c _ r hr => .inl (mem_of_mem_erase hr)
  case flush chain => exact .modify chain _ fun c _ r hr => absurd hr not_mem_nil
  case deleteChain name =>
    refine .deleteChain name (fun c hc hname => ?_) hguard.2
    have hempty := (every_iff.mp hguard.1).2 c hc hname
    rw [and_eq_true, not_eq_true'] at hempty
    exact hempty.1

theorem Line.exec_closed (h : t.Closed) (hexec : line.exec t = some u) : u.Closed := by
  cases exec_does hexec with
  | newChain name =>
    intro c hc r hr target hjump
    rcases mem_append.mp hc with hc | hc
    · rw [has_append, h c hc r hr target hjump, Bool.true_or]
    · obtain rfl := mem_singleton.mp hc
      cases hr
  | modify chain f hf => exact h.modify hf
  | deleteChain name hown hunreferenced =>
    intro c hfiltered r hr target hjump
    have hc := (mem_filter.mp hfiltered).1
    have hne : target ≠ name := by
      rintro rfl
      exact refersTo_eq_false_iff.mp hunreferenced c hc r hr hjump
    obtain ⟨d, hd, rfl⟩ := has_iff.mp (h c hc r hr target hjump)
    exact has_iff.mpr ⟨d, mem_filter.mpr ⟨hd, by simpa using hne⟩, rfl⟩

theorem Table.Named.modify (h : t.Named) (chain : String)
    (f : List KernelRule → List KernelRule) : (t.modify chain f).Named := by
  intro c hc
  obtain ⟨d, hd, rfl⟩ := mem_modify.mp hc
  split
  · exact h d hd
  · exact h d hd

theorem Line.exec_named (h : t.Named) (hexec : line.exec t = some u) : u.Named := by
  cases exec_does hexec with
  | newChain name hword => exact forall_mem_append.mpr ⟨h, forall_mem_singleton.mpr hword⟩
  | modify chain f => exact h.modify chain f
  | deleteChain name => exact fun c hc => h c (mem_filter.mp hc).1

theorem Line.exec_hasBuiltin (h : t.HasBuiltin name) (hexec : line.exec t = some u) :
    u.HasBuiltin name := by
  cases exec_does hexec with
  | newChain new =>
    obtain ⟨c, hc, hchain⟩ := h
    exact ⟨c, mem_append_left _ hc, hchain⟩
  | modify chain f => exact h.modify chain f
  | deleteChain old hown =>
    obtain ⟨c, hc, hname, hbuiltin⟩ := h
    refine ⟨c, mem_filter.mpr ⟨hc, ?_⟩, hname, hbuiltin⟩
    rw [bne_iff_ne]
    intro hold
    rw [hown c hc hold] at hbuiltin
    cases hbuiltin

theorem restore_keeps {P : Table → Prop}
    (hstep : ∀ {t u line}, P t → exec t line = some u → P u) (h : P t)
    (hrestore : restore t lines = some u) : P u := by
  induction lines generalizing t with
  | nil =>
    cases hrestore
    exact h
  | cons line lines ih =>
    rw [restore_cons, Option.bind_eq_some_iff] at hrestore
    obtain ⟨v, hline, hlines⟩ := hrestore
    exact ih (hstep h hline) hlines

end

/-! ## Lines that have nothing to do with an attachment -/

def Attachment.appends (a : Attachment) : List (String × Rule) := a.hooks ++ a.body

/-- A line that deletes something the attachment did not bring. -/
def Line.Avoids (b : Attachment) : Line → Prop
  | .newChain _ => False
  | .append _ _ => False
  | .delete chain rule => chain ∉ b.chains ∧ ∀ x ∈ b.appends, x.2 ≠ rule
  | .flush chain => chain ∉ b.chains ∧ ∀ x ∈ b.appends, x.1 ≠ chain
  | .deleteChain chain =>
    chain ∉ b.chains ∧ ∀ x ∈ b.appends, x.1 ≠ chain ∧ x.2.jumpsTo ≠ some chain

section

variable {t u : Table} {b : Attachment} {chain : String} {lines : List Line}

theorem Attachment.has_fresh_eq_false (h : chain ∉ b.chains) : b.fresh.has chain = false := by
  apply eq_false_of_ne_true
  exact fun hhas => h (b.has_fresh.mp hhas)

theorem Table.has_attach_of_notMem (h : chain ∉ b.chains) :
    (t.attach b).has chain = t.has chain := by
  rw [attach_eq, has_extend, has_append, has_fresh_eq_false h, Bool.or_false]

theorem Table.mem_attach {c : Chain} : c ∈ t.attach b ↔
      ∃ d, (d ∈ t ∨ d ∈ b.fresh) ∧
        c = { d with rules := d.rules ++ rulesFor b.appends d.name } := by
  rw [attach_eq]
  unfold extend
  simp only [mem_map, mem_append, eq_comm]
  rfl

theorem Table.every_attach (h : chain ∉ b.chains) {f : Chain → Bool} (hf : ∀ c ∈ t, c.name = chain →
      f { c with rules := c.rules ++ rulesFor b.appends c.name } = f c) :
    (t.attach b).every chain f = t.every chain f := by
  rw [Bool.eq_iff_iff, every_iff, every_iff, has_attach_of_notMem h]
  refine and_congr_right fun _ => ⟨fun hall c hc hname => ?_, fun hall c hc hname => ?_⟩
  · rw [← hf c hc hname]
    exact hall _ (mem_attach.mpr ⟨c, .inl hc, rfl⟩) hname
  · obtain ⟨d, hd | hd, rfl⟩ := mem_attach.mp hc
    · rw [hf d hd hname]
      exact hall d hd hname
    · exact absurd hname (has_eq_false_iff.mp (has_fresh_eq_false h) d hd)

theorem Table.modify_attach (h : chain ∉ b.chains)
    (hf : ∀ rules, f (rules ++ rulesFor b.appends chain) = f rules ++ rulesFor b.appends chain) :
    (t.attach b).modify chain f = (t.modify chain f).attach b := by
  have hfresh : b.fresh.modify chain f = b.fresh := by
    conv_rhs => rw [← map_id b.fresh]
    apply map_congr_left
    intro c hc
    exact if_neg (has_eq_false_iff.mp (has_fresh_eq_false h) c hc)
  rw [attach_eq, attach_eq]
  conv_rhs => rw [← hfresh]
  unfold extend modify
  rw [← map_append, map_map, map_map]
  apply map_congr_left
  intro c _
  simp only [Function.comp_apply]
  by_cases hname : c.name = chain
  · rw [if_pos hname, if_pos hname]
    subst hname
    exact congrArg (Chain.mk c.name c.builtin) (hf c.rules)
  · rw [if_neg hname, if_neg hname]

theorem Table.refersTo_attach (h : ∀ x ∈ b.appends, x.2.jumpsTo ≠ some chain) :
    (t.attach b).refersTo chain = t.refersTo chain := by
  refine Bool.eq_iff_iff.mpr (not_iff_not.mp ?_)
  rw [not_eq_true, not_eq_true, refersTo_eq_false_iff, refersTo_eq_false_iff]
  refine ⟨fun hall c hc r hr => ?_, fun hall c hc r hr => ?_⟩
  · exact hall _ (mem_attach.mpr ⟨c, .inl hc, rfl⟩) r (mem_append_left _ hr)
  · obtain ⟨d, hd, rfl⟩ := mem_attach.mp hc
    rcases mem_append.mp hr with hr | hr
    · rcases hd with hd | hd
      · exact hall d hd r hr
      · obtain ⟨name, -, rfl⟩ := mem_map.mp hd
        cases hr
    · obtain ⟨x, hx, -, rfl⟩ := mem_rulesFor hr
      exact h x hx

theorem Table.filter_attach (h : chain ∉ b.chains) :
    (t.attach b).filter (fun c => c.name != chain) =
      Table.attach (t.filter fun c => c.name != chain) b := by
  have hfresh : b.fresh.filter (fun c => c.name != chain) = b.fresh := by
    rw [filter_eq_self]
    intro c hc
    exact bne_iff_ne.mpr (has_eq_false_iff.mp (has_fresh_eq_false h) c hc)
  rw [attach_eq, attach_eq]
  unfold extend
  rw [filter_map]
  change map _ (filter (fun c => c.name != chain) (t ++ b.fresh)) = _
  rw [filter_append, hfresh]

theorem Line.exec_attach {line : Line} (h : line.Avoids b) :
    line.exec (t.attach b) = (line.exec t).map fun u => u.attach b := by
  cases line with
  | newChain name | append chain rule => exact h.elim
  | delete chain rule =>
    obtain ⟨hchain, hrule⟩ := h
    have hnew : KernelRule.known rule ∉ rulesFor b.appends chain := by
      intro hmem
      obtain ⟨x, hx, -, heq⟩ := mem_rulesFor hmem
      exact hrule x hx (KernelRule.known.inj heq).symm
    simp only [exec]
    rw [every_attach hchain, modify_attach hchain]
    · split <;> rfl
    · intro rules
      by_cases hmem : KernelRule.known rule ∈ rules
      · exact erase_append_left _ hmem
      · rw [erase_append_right _ hmem, erase_of_not_mem hmem, erase_of_not_mem hnew]
    · rintro c - rfl
      simp [hnew]
  | flush chain =>
    obtain ⟨hchain, happends⟩ := h
    simp only [exec]
    rw [has_attach_of_notMem hchain, modify_attach hchain]
    · split <;> rfl
    · intro rules
      rw [rulesFor_eq_nil happends]
      rfl
  | deleteChain chain =>
    obtain ⟨hchain, happends⟩ := h
    have hrules : rulesFor b.appends chain = [] := rulesFor_eq_nil fun x hx => (happends x hx).1
    simp only [exec]
    rw [every_attach hchain, refersTo_attach fun x hx => (happends x hx).2, filter_attach hchain]
    · split <;> rfl
    · rintro c - rfl
      rw [hrules, append_nil]

theorem restore_attach (h : ∀ line ∈ lines, line.Avoids b) :
    restore (t.attach b) lines = (restore t lines).map fun u => u.attach b := by
  induction lines generalizing t with
  | nil => rfl
  | cons line lines ih =>
    rw [forall_mem_cons] at h
    rw [restore_cons, restore_cons, exec_attach h.1]
    cases line.exec t with
    | none => rfl
    | some u => exact ih h.2

theorem restore_absent (h : ∀ line ∈ lines, line.Avoids b) {name : String}
    (habsent : t.has name = false) (hrestore : restore t lines = some u) : u.has name = false := by
  induction lines generalizing t with
  | nil =>
    cases hrestore
    exact habsent
  | cons line lines ih =>
    rw [forall_mem_cons] at h
    rw [restore_cons, Option.bind_eq_some_iff] at hrestore
    obtain ⟨v, hline, hlines⟩ := hrestore
    refine ih h.2 ?_ hlines
    cases line with
    | newChain new | append chain rule => exact h.1.elim
    | delete chain rule | flush chain =>
      simp only [exec, Option.ite_none_right_eq_some, Option.some.injEq] at hline
      rw [← hline.2, has_modify, habsent]
    | deleteChain old =>
      simp only [exec, Option.ite_none_right_eq_some, Option.some.injEq] at hline
      rw [← hline.2, has_eq_false_iff]
      intro c hc
      exact has_eq_false_iff.mp habsent c (mem_filter.mp hc).1

/-- Neither attachment has a chain of the other, nor hooks into one. -/
structure Attachment.Apart (a b : Attachment) : Prop where
  chains : ∀ name ∈ a.chains, name ∉ b.chains
  hooks_left : ∀ x ∈ a.hooks, x.1 ∉ b.chains
  hooks_right : ∀ x ∈ b.hooks, x.1 ∉ a.chains

theorem Attachment.Valid.jumps_inside {a : Attachment} (ha : a.Valid) {x : String × Rule}
    (hx : x ∈ a.appends) {name : String} (hjump : x.2.jumpsTo = some name) : name ∈ a.chains := by
  rcases mem_append.mp hx with hx | hx
  · obtain ⟨target, htarget, hto⟩ := ha.hooks_inside x hx
    rw [hjump] at hto
    rwa [Option.some.inj hto]
  · exact ha.body_closed x hx name hjump

theorem Attachment.Apart.rollback_avoids {a : Attachment} (h : a.Apart b) (ha : a.Valid)
    (hb : b.Valid) : ∀ line ∈ a.rollback, line.Avoids b := by
  have hgoes : ∀ name ∈ a.chains, ∀ x ∈ b.appends, x.1 ≠ name := by
    rintro name hname x hx rfl
    rcases mem_append.mp hx with hx | hx
    · exact h.hooks_right x hx hname
    · exact h.chains _ hname (hb.body_inside x hx)
  intro line hline
  unfold rollback at hline
  simp only [mem_append, mem_map] at hline
  obtain (⟨x, hx, rfl⟩ | ⟨name, hname, rfl⟩) | ⟨name, hname, rfl⟩ := hline
  · refine ⟨h.hooks_left x hx, ?_⟩
    intro y hy heq
    obtain ⟨target, htarget, hto⟩ := ha.hooks_inside x hx
    rw [← heq] at hto
    exact h.chains target htarget (hb.jumps_inside hy hto)
  · exact ⟨h.chains name hname, hgoes name hname⟩
  · refine ⟨h.chains name hname, fun x hx => ⟨hgoes name hname x hx, fun hjump => ?_⟩⟩
    exact h.chains name hname (hb.jumps_inside hx hjump)

end

/-- A table of the kernel with the given built-in chains. -/
@[ext] structure Ruleset (builtins : List String) where
  table : Table
  named : table.Named
  closed : table.Closed
  builtin : ∀ name ∈ builtins, table.HasBuiltin name

open Ruleset

namespace Ruleset

variable {builtins : List String} {r r' : Ruleset builtins} {lines : List Line}

def restore (r : Ruleset builtins) (lines : List Line) : Option (Ruleset builtins) :=
  match h : Netfilter.restore r.table lines with
  | some t =>
    some ⟨t, restore_keeps exec_named r.named h,
      restore_keeps exec_closed r.closed h, fun name hname =>
      restore_keeps (P := fun t => t.HasBuiltin name) exec_hasBuiltin
        (r.builtin name hname) h⟩
  | none => none

theorem restore_eq_some :
    r.restore lines = some r' ↔ Netfilter.restore r.table lines = some r'.table := by
  unfold restore
  split
  next t h =>
    constructor
    · intro heq
      have htable : t = r'.table := congrArg table (Option.some.inj heq)
      exact htable ▸ h
    · intro heq
      exact congrArg some (Ruleset.ext (Option.some.inj (h.symm.trans heq)))
  next h =>
    rw [h]
    exact iff_of_false nofun nofun

theorem restore_eq_none : r.restore lines = none ↔ Netfilter.restore r.table lines = none := by
  unfold restore
  split
  next t h =>
    refine iff_of_false nofun fun heq => ?_
    cases h.symm.trans heq
  · next h => exact iff_of_true rfl h

theorem has_builtin (r : Ruleset builtins) {name : String} (h : name ∈ builtins) :
    r.table.has name = true := by
  obtain ⟨c, hc, hname, -⟩ := r.builtin name h
  exact has_iff.mpr ⟨c, hc, hname⟩

theorem unreferenced (r : Ruleset builtins) {name : String} (h : r.table.has name = false) :
    r.table.refersTo name = false := by
  rw [refersTo_eq_false_iff]
  intro c hc rule hrule hjump
  have hhas := r.closed c hc rule hrule name hjump
  rw [h] at hhas
  cases hhas

end Ruleset

namespace Attachment

def step (a : Attachment) (builtins : List String) : UndoStep (Ruleset builtins) where
  apply r := r.restore a.apply
  undo r := r.restore a.rollback

/-- An attachment whose hooks go into built-in chains and whose chains are its own. -/
structure Fits (a : Attachment) (builtins : List String) : Prop extends a.Valid where
  hooked : ∀ x ∈ a.hooks, x.1 ∈ builtins
  own : ∀ name ∈ a.chains, name ∉ builtins
  nonempty : a.chains ≠ []

variable {a b : Attachment} {builtins : List String} {r r' : Ruleset builtins}
  (ha : a.Fits builtins)

include ha

theorem Fits.apart (hb : b.Fits builtins) (h : ∀ name ∈ a.chains, name ∉ b.chains) : a.Apart b where
  chains := h
  hooks_left x hx hmem := hb.own x.1 hmem (ha.hooked x hx)
  hooks_right x hx hmem := ha.own x.1 hmem (hb.hooked x hx)

theorem step_apply_eq_some : (a.step builtins).apply r = some r' ↔
      (∀ name ∈ a.chains, r.table.has name = false) ∧ r.table.attach a = r'.table := by
  have hplace : ∀ x ∈ a.hooks, r.table.has x.1 = true := fun x hx =>
    r.has_builtin (ha.hooked x hx)
  change r.restore a.apply = some r' ↔ _
  rw [restore_eq_some, restore_apply ha.toValid]
  simp only [Option.ite_none_right_eq_some, Option.some.injEq, and_iff_left hplace]

theorem exists_apply (h : ∀ name ∈ a.chains, r.table.has name = false) :
    ∃ r', (a.step builtins).apply r = some r' := by
  have hplace : ∀ x ∈ a.hooks, r.table.has x.1 = true := fun x hx =>
    r.has_builtin (ha.hooked x hx)
  have hsome : ¬ (a.step builtins).apply r = none := by
    change ¬ r.restore a.apply = none
    rw [restore_eq_none, restore_apply ha.toValid, if_pos ⟨h, hplace⟩]
    nofun
  exact Option.ne_none_iff_exists'.mp hsome

theorem reversible : (a.step builtins).Reversible := by
  intro r r' happly
  obtain ⟨habsent, htable⟩ := (step_apply_eq_some ha).mp happly
  have hfree : a.FreeIn r.table := ⟨habsent, fun name hname => r.unreferenced (habsent name hname)⟩
  refine restore_eq_some.mpr ?_
  rw [← htable]
  exact restore_rollback ha.toValid hfree fun x hx => r.has_builtin (ha.hooked x hx)

theorem effective : (a.step builtins).Effective := by
  intro r r' hundo heq
  have hlt := length_rollback_lt ha.nonempty (restore_eq_some.mp hundo)
  rw [heq] at hlt
  exact Nat.lt_irrefl _ hlt

theorem independent (hb : b.Fits builtins) (h : a.Apart b) :
    UndoStep.Independent (b.step builtins) (a.step builtins) where
  ready := by
    intro r r' m hb' ha'
    obtain ⟨-, htable⟩ := (step_apply_eq_some hb).mp hb'
    obtain ⟨habsent, -⟩ := (step_apply_eq_some ha).mp ha'
    refine exists_apply ha fun name hname => ?_
    rw [← htable, has_attach_of_notMem (h.chains name hname)]
    exact habsent name hname
  refused := by
    intro r r' hb' hrefused
    obtain ⟨-, htable⟩ := (step_apply_eq_some hb).mp hb'
    have hrefused : Netfilter.restore r.table a.rollback = none := restore_eq_none.mp hrefused
    refine restore_eq_none.mpr ?_
    rw [← htable, restore_attach (h.rollback_avoids ha.toValid hb.toValid), hrefused]
    rfl
  undone := by
    intro r r' m hb' hundone
    obtain ⟨habsent, htable⟩ := (step_apply_eq_some hb).mp hb'
    have havoids := h.rollback_avoids ha.toValid hb.toValid
    have hundone : Netfilter.restore r.table a.rollback = some m.table := restore_eq_some.mp hundone
    obtain ⟨m', hm'⟩ := exists_apply (r := m) hb fun name hname =>
      restore_absent havoids (habsent name hname) hundone
    refine ⟨m', hm', restore_eq_some.mpr ?_⟩
    rw [← htable, restore_attach havoids, hundone, ← ((step_apply_eq_some hb).mp hm').2]
    rfl

end Attachment

end NetHop.Netfilter
