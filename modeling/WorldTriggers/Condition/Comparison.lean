import WorldTriggers.Condition.Error
import WorldTriggers.Text.Blank

namespace WorldTriggers

inductive Comparison where
  | eq
  | ne
  | lt
  | lte
  | gt
  | gte
  deriving DecidableEq, Repr

namespace Comparison

def name : Comparison → String
  | eq => "eq"
  | ne => "ne"
  | lt => "lt"
  | lte => "lte"
  | gt => "gt"
  | gte => "gte"

def spellings : List (String × Comparison) := [
  ("eq", eq), ("==", eq), ("=", eq), ("ne", ne), ("!=", ne), ("lt", lt), ("<", lt),
  ("lte", lte), ("le", lte), ("<=", lte), ("gt", gt), (">", gt), ("gte", gte), ("ge", gte),
  (">=", gte)]

def ofText? (s : String) : Option Comparison := spellings.lookup (Text.trim s)

def order? (a b : Float) : Option Ordering :=
  if a < b then some .lt else if a == b then some .eq else if b < a then some .gt else none

def holds (c : Comparison) (a b : Float) : Bool :=
  match order? a b with
  | none => false
  | some o =>
    match c with
    | eq => o == .eq
    | ne => o != .eq
    | lt => o == .lt
    | lte => o != .gt
    | gt => o == .gt
    | gte => o != .lt

def ofParams (p : Params) : Except ConditionError (Comparison × Float) := do
  let op ←
    match ← p.string? "op" with
    | none => pure gte
    | some s =>
      match ofText? s with
      | some c => pure c
      | none => throw (.unknownComparison s)
  pure (op, ← p.number "value")

end Comparison

end WorldTriggers
