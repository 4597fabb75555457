import WorldTriggers.Scope
import WorldTriggers.Time.Timestamp
import WorldTriggers.Width

namespace WorldTriggers

structure Record where
  rule : RuleId
  scope : Scope
  fireCount : Nat
  lastFired : Option Timestamp
  deriving DecidableEq, Repr

namespace Record

def maxCount : Nat := Width.maxNat 32

def ref (r : Record) : RuleRef := ⟨r.scope, r.rule⟩

def decodeTimestamp (v : Json) : Decoded Timestamp := do
  let s ← v.asString
  match Timestamp.read? s with
  | some t => pure t
  | none => throw (.badTimestamp s)

def decode (v : Json) : Decoded Record := do
  let f ← Fields.of "a record" ["ruleId", "scopeId", "fireCount", "lastFiredAt"] v
  f.check fun
    | "ruleId" => some fun v => discard v.asString
    | "scopeId" => some fun v => discard (Scope.decode v)
    | "fireCount" => some fun v => discard v.asNat32
    | "lastFiredAt" => some fun v => discard (v.asOption decodeTimestamp)
    | _ => none
  let rule ← f.required "ruleId" Json.asString
  let scope ← f.required "scopeId" Scope.decode
  let fireCount ← f.required "fireCount" Json.asNat32
  let lastFired ← f.optional "lastFiredAt" decodeTimestamp
  f.finish
  pure { rule, scope, fireCount, lastFired }

def toJson (r : Record) : Json :=
  .ofFields [("ruleId", .string r.rule), ("scopeId", r.scope.toJson),
    ("fireCount", .ofNat r.fireCount),
    ("lastFiredAt", .ofOption (fun t => .string t.render) r.lastFired)]

end Record

end WorldTriggers
