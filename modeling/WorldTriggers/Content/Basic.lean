import WorldTriggers.Content.Validation
import WorldTriggers.Scope

namespace WorldTriggers

inductive Rejection where
  | undecodable (error : DecodeError)
  | invalid (fault : RuleFault)
  | duplicate
  deriving Repr

def Rejection.message : Rejection → String
  | undecodable e => e.message
  | invalid f => f.message
  | duplicate => "duplicate id in scope"

structure Diagnostic where
  file : Option String
  scope : Scope
  rule : Option String
  reason : Rejection

def Diagnostic.text (d : Diagnostic) : String :=
  (match d.file with
    | some f => f ++ ": "
    | none => "") ++ d.scope.text ++ ": " ++
  (match d.rule with
    | some r => "rule `" ++ r ++ "`: "
    | none => "") ++ d.reason.message

structure Content where
  scope : Scope
  rules : List Rule
  rejected : List Diagnostic
  source : Option String

namespace Content

def empty (scope : Scope) (source : Option String) : Content := ⟨scope, [], [], source⟩

def reject (c : Content) (rule : Option String) (reason : Rejection) : Content :=
  { c with rejected := c.rejected ++ [⟨c.source, c.scope, rule, reason⟩] }

def accept (c : Content) (r : Rule) : Content :=
  match r.validate with
  | .error f => c.reject (some r.id) (.invalid f)
  | .ok () =>
    if c.rules.any (·.id == r.id) then c.reject (some r.id) .duplicate
    else { c with rules := c.rules ++ [r] }

def recordId? (v : Json) : Option String :=
  match v.field? "id" with
  | some (.string s) => some s
  | _ => none

def acceptRecord (c : Content) (v : Json) : Content :=
  match Rule.decode v with
  | .ok r => c.accept r
  | .error e => c.reject (recordId? v) (.undecodable e)

def ofRules (scope : Scope) (rules : List Rule) : Content := rules.foldl accept (empty scope none)

def ofRecords (scope : Scope) (records : List Json) (source : Option String) : Content :=
  records.foldl acceptRecord (empty scope source)

end Content

end WorldTriggers
