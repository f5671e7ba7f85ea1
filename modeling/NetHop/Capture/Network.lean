import NetHop.Capture.Plan
import NetHop.Netfilter.Ruleset

/-!
# The network state a plan changes

The packet filter tables, the routes and the policy rules of both families, and
what the operations of a plan do to them: `iptables-restore` applies a payload as
a whole or not at all, and `ip` refuses to add what is there and to delete what is
not.  Chains, routes and rules of others are part of the state.
-/

namespace NetHop.Capture

open Netfilter

def builtins : NetfilterTable → List String
  | .filter => ["INPUT", "FORWARD", "OUTPUT"]
  | .mangle => ["PREROUTING", "INPUT", "FORWARD", "OUTPUT", "POSTROUTING"]

/-- A route: a default route to a device, or any other. -/
inductive RouteEntry where
  | default (device : String) (isLocal : Bool)
  | other (text : String)
  deriving DecidableEq

structure Route where
  table : UInt32
  entry : RouteEntry
  deriving DecidableEq

/-- A policy rule: one that looks up a table for a mark, or any other. -/
inductive PolicyRule where
  | fwmark (priority : UInt32) (mark mask : Mark) (table : UInt32)
  | other (priority : UInt32) (text : String)
  deriving DecidableEq

def PolicyRule.priority : PolicyRule → UInt32
  | .fwmark priority _ _ _ => priority
  | .other priority _ => priority

structure Network where
  tables : (place : IpFamily × NetfilterTable) → Ruleset (builtins place.2)
  routes : IpFamily → List Route
  rules : IpFamily → List PolicyRule

def hasDefault (table : UInt32) (routes : List Route) : Bool :=
  routes.any fun r => r.table == table && match r.entry with
    | .default _ _ => true
    | .other _ => false

def routeStep (table : UInt32) (device : String) (isLocal : Bool) : UndoStep (List Route) where
  apply routes :=
    if hasDefault table routes then none else some (routes ++ [⟨table, .default device isLocal⟩])
  undo routes :=
    if ⟨table, .default device isLocal⟩ ∈ routes then
      some (routes.erase ⟨table, .default device isLocal⟩)
    else none

/-- `ip rule add` and `ip rule del`.  The list says which rules there are, not their order. -/
def ruleStep (rule : PolicyRule) : UndoStep (List PolicyRule) where
  apply rules := if rule ∈ rules then none else some (rules ++ [rule])
  undo rules := if rule ∈ rules then some (rules.erase rule) else none

/-! ## Parts of the state -/

def tablesPart : Part Network ((place : IpFamily × NetfilterTable) → Ruleset (builtins place.2)) :=
  ⟨Network.tables, fun tables n => { n with tables }, fun _ _ => rfl, fun _ => rfl,
    fun _ _ _ => rfl⟩

def routesPart : Part Network (IpFamily → List Route) :=
  ⟨Network.routes, fun routes n => { n with routes }, fun _ _ => rfl, fun _ => rfl,
    fun _ _ _ => rfl⟩

def rulesPart : Part Network (IpFamily → List PolicyRule) :=
  ⟨Network.rules, fun rules n => { n with rules }, fun _ _ => rfl, fun _ => rfl, fun _ _ _ => rfl⟩

def tablePart (place : IpFamily × NetfilterTable) : Part Network (Ruleset (builtins place.2)) :=
  tablesPart.comp (.entry place)

def routePart (family : IpFamily) : Part Network (List Route) := routesPart.comp (.entry family)

def rulePart (family : IpFamily) : Part Network (List PolicyRule) := rulesPart.comp (.entry family)

theorem tables_apart_routes : tablesPart.Apart routesPart :=
  ⟨fun _ _ => rfl, fun _ _ => rfl, fun _ _ _ => rfl⟩

theorem tables_apart_rules : tablesPart.Apart rulesPart :=
  ⟨fun _ _ => rfl, fun _ _ => rfl, fun _ _ _ => rfl⟩

theorem routes_apart_rules : routesPart.Apart rulesPart :=
  ⟨fun _ _ => rfl, fun _ _ => rfl, fun _ _ _ => rfl⟩

/-- One operation; `none` when the tool refuses it. -/
def NetworkOperation.run (n : Network) : NetworkOperation → Option Network
  | .restore family payload =>
    (((tablePart (family, payload.table)).get n).restore payload.lines).map fun t =>
      (tablePart (family, payload.table)).set t n
  | .policyRoute .add family table device isLocal =>
    ((routePart family).step (routeStep table device isLocal)).apply n
  | .policyRoute .delete family table device isLocal =>
    ((routePart family).step (routeStep table device isLocal)).undo n
  | .policyRule .add family mark mask table priority =>
    ((rulePart family).step (ruleStep (.fwmark priority mark mask table))).apply n
  | .policyRule .delete family mark mask table priority =>
    ((rulePart family).step (ruleStep (.fwmark priority mark mask table))).undo n

def PlanStep.undoStep (s : PlanStep) : UndoStep Network where
  apply n := s.apply.run n
  undo n := s.rollback.run n

end NetHop.Capture
