import WorldTriggers.CommandPattern
import WorldTriggers.Rule
import WorldTriggers.Scope

namespace WorldTriggers

structure LoadedRule where
  rule : Rule
  pattern : Option CommandPattern

namespace LoadedRule

def ofRule (r : Rule) : LoadedRule :=
  ⟨r, if r.event = .command then r.commandPattern.map CommandPattern.ofText else none⟩

def matchesCommand (l : LoadedRule) (text : String) : Bool := l.pattern.any (·.isMatch text)

end LoadedRule

structure Installation where
  epoch : Nat
  rules : List LoadedRule

namespace Installation

def find? (i : Installation) (id : RuleId) : Option LoadedRule := i.rules.find? (·.rule.id == id)

def boundTo (i : Installation) (event : EventKind) : List LoadedRule :=
  i.rules.filter (·.rule.event == event)

def ruleIds (i : Installation) : List RuleId := i.rules.map (·.rule.id)

end Installation

structure Catalog where
  scopes : SortedMap Scope Installation := .empty
  lastEpoch : Nat := 0

namespace Catalog

def insert (c : Catalog) (scope : Scope) (rules : List Rule) :
    Nat × Option Installation × Catalog :=
  let epoch := c.lastEpoch + 1
  (epoch, c.scopes.get? scope, {
    scopes := c.scopes.insert scope ⟨epoch, rules.map LoadedRule.ofRule⟩
    lastEpoch := epoch })

def remove (c : Catalog) (scope : Scope) : Catalog := { c with scopes := c.scopes.erase scope }

def get? (c : Catalog) (scope : Scope) : Option Installation := c.scopes.get? scope

def contains (c : Catalog) (scope : Scope) : Bool := c.scopes.contains scope

def epoch? (c : Catalog) (scope : Scope) : Option Nat := (c.get? scope).map (·.epoch)

def rules (c : Catalog) (scope : Scope) : List Rule :=
  match c.get? scope with
  | some i => i.rules.map (·.rule)
  | none => []

def find? (c : Catalog) (ref : RuleRef) : Option LoadedRule :=
  (c.get? ref.scope).bind (·.find? ref.rule)

def rule? (c : Catalog) (ref : RuleRef) : Option Rule := (c.find? ref).map (·.rule)

def candidates (c : Catalog) (scope : Scope) (event : EventKind) : List LoadedRule :=
  match c.get? scope with
  | some i => i.boundTo event
  | none => []

def size (c : Catalog) : Nat := c.scopes.values.foldl (fun n i => n + i.rules.length) 0

end Catalog

end WorldTriggers
