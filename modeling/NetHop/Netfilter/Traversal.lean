import NetHop.Netfilter.Rule

/-!
# Traversing chains

A packet goes through the rules of a chain in order.  The first rule that
matches and ends the traversal decides; a mark is set and the traversal goes on;
a jump runs the other chain and comes back unless that chain decided.
-/

namespace NetHop.Netfilter

open List

/-- How a packet leaves a list of rules: past the last rule, by `RETURN`, or decided. -/
inductive Verdict where
  | passed
  | returned
  | accepted
  | dropped
  | proxied (port : Nat)
  deriving DecidableEq

/-- The packet goes on in the chain that jumped. -/
def Verdict.comesBack : Verdict → Bool
  | .passed => true
  | .returned => true
  | _ => false

/-- `jump` is what a jump to another chain does. -/
def runRules (jump : String → Mark → Verdict × Mark) (p : Packet) :
    List Rule → Mark → Verdict × Mark
  | [], mark => (.passed, mark)
  | r :: rules, mark =>
    if r.matches p mark then
      match r.target with
      | .accept => (.accepted, mark)
      | .drop => (.dropped, mark)
      | .ret => (.returned, mark)
      | .setXmark value mask => runRules jump p rules (xmark value mask mark)
      | .tproxy port value mask => (.proxied port, xmark value mask mark)
      | .jump chain =>
        let (verdict, mark') := jump chain mark
        if verdict.comesBack then runRules jump p rules mark' else (verdict, mark')
    else runRules jump p rules mark

/-- The chain `name`, with jumps followed to the given depth. -/
def traverse (chains : String → List Rule) (p : Packet) : Nat → String → Mark → Verdict × Mark
  | 0, _, mark => (.passed, mark)
  | depth + 1, name, mark => runRules (traverse chains p depth) p (chains name) mark

section

variable {jump : String → Mark → Verdict × Mark} {p : Packet} {mark : Mark} {r : Rule}
  {rules : List Rule}

@[simp] theorem runRules_nil : runRules jump p [] mark = (.passed, mark) := rfl

theorem runRules_skip (h : r.matches p mark = false) :
    runRules jump p (r :: rules) mark = runRules jump p rules mark := by
  rw [runRules, h]
  rfl

theorem runRules_append (rules' : List Rule) : runRules jump p (rules ++ rules') mark =
      if (runRules jump p rules mark).1 = .passed then
        runRules jump p rules' (runRules jump p rules mark).2 else runRules jump p rules mark := by
  induction rules generalizing mark with
  | nil => rfl
  | cons r rules ih =>
    simp only [cons_append, runRules]
    split
    · cases r.target with
      | accept | drop | ret | tproxy port value mask => rfl
      | setXmark value mask => exact ih
      | jump chain =>
        rcases hjump : jump chain mark with ⟨verdict, mark'⟩
        simp only [hjump]
        cases verdict with
        | passed | returned => exact ih
        | accepted | dropped | proxied port => rfl
    · exact ih

theorem runRules_append_of_passed {rules' : List Rule} {mark' : Mark}
    (h : runRules jump p rules mark = (.passed, mark')) :
    runRules jump p (rules ++ rules') mark = runRules jump p rules' mark' := by
  rw [runRules_append, h, if_pos rfl]

theorem traverse_hook {chains : String → List Rule} {name target text : String} {depth : Nat}
    (h : chains name = [⟨[.comment text], .jump target⟩]) :
    traverse chains p (depth + 2) name mark =
      let result := runRules (traverse chains p depth) p (chains target) mark
      if result.1.comesBack then (.passed, result.2) else result := by
  rw [traverse, h, runRules]
  rfl

/-! ## Families of rules -/

variable {α : Type} {xs : List α} {tests : α → List Match}

theorem runRules_map_final {target : Target} {verdict : Verdict}
    (hfinal : ∀ (tests : List Match) (rest : List Rule),
      (Rule.mk tests target).matches p mark = true →
      runRules jump p (⟨tests, target⟩ :: rest) mark = (verdict, mark)) :
    runRules jump p (xs.map fun x => ⟨tests x, target⟩) mark =
      if ∃ x ∈ xs, (tests x).all (Match.holds p mark) = true then (verdict, mark)
      else (.passed, mark) := by
  induction xs with
  | nil => simp
  | cons x xs ih =>
    by_cases hx : (tests x).all (Match.holds p mark) = true
    · rw [if_pos ⟨x, mem_cons_self, hx⟩]
      exact hfinal _ _ hx
    · have hskip : (Rule.mk (tests x) target).matches p mark = false := eq_false_of_ne_true hx
      rw [map_cons, runRules_skip hskip, ih]
      simp only [exists_mem_cons_iff, hx, Bool.false_eq_true, false_or]

theorem runRules_map_setXmark {value mask : Mark} (hwithin : value &&& ~~~mask = 0)
    (hblind : ∀ x ∈ xs, ∀ m, (tests x).all (Match.holds p m) = (tests x).all (Match.holds p 0)) :
    runRules jump p (xs.map fun x => ⟨tests x, .setXmark value mask⟩) mark =
      (.passed, if ∃ x ∈ xs, (tests x).all (Match.holds p 0) = true then xmark value mask mark
        else mark) := by
  induction xs generalizing mark with
  | nil => simp
  | cons x xs ih =>
    have ih := fun m => @ih m fun y hy => hblind y (mem_cons_of_mem x hy)
    have hx := hblind x mem_cons_self
    by_cases hzero : (tests x).all (Match.holds p 0) = true
    · have hmatch := (hx mark).trans hzero
      rw [map_cons, runRules, Rule.matches, if_pos hmatch]
      dsimp only
      rw [ih, xmark_xmark hwithin, ite_self, if_pos ⟨x, mem_cons_self, hzero⟩]
    · have hskip : (Rule.mk (tests x) (.setXmark value mask)).matches p mark = false :=
        (hx mark).trans (eq_false_of_ne_true hzero)
      rw [map_cons, runRules_skip hskip, ih]
      simp only [exists_mem_cons_iff, hzero, Bool.false_eq_true, false_or]

end

end NetHop.Netfilter
