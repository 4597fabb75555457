import WorldTriggers.Yaml.Node

namespace WorldTriggers.Yaml.Node

def isBlank : Node → Bool
  | scalar "" true => true
  | _ => false

def isNull : Node → Bool
  | scalar s true => s.isEmpty || Scalar.isNull s
  | _ => false

def optional? (read : Node → Option α) (n : Node) : Option (Option α) :=
  if n.isNull then some none else (read n).map some

def bool? : Node → Option Bool
  | scalar s true => Scalar.bool? s
  | _ => none

def nat? (largest : Nat) : Node → Option Nat
  | scalar s true => (Scalar.nat? s).filter (· ≤ largest)
  | _ => none

def list? (read : Node → Option α) : Node → Option (List α)
  | sequence items => items.mapM read
  | n => if n.isBlank then some [] else none

def entries? : Node → Option (List (String × Node))
  | mapping entries => entries.mapM fun (k, v) => (text? k).map (·, v)
  | n => if n.isBlank then some [] else none

def map? [Ord κ] [Std.TransOrd κ] [Std.LawfulEqOrd κ] (key : String → Option κ)
    (read : Node → Option α) (n : Node) : Option (SortedMap κ α) := do
  let entries ← (← entries? n).mapM fun (k, v) => do pure (← key k, ← read v)
  pure (SortedMap.ofList entries)

def record? (known : List String) (n : Node) : Option (List (String × Node)) := do
  let fields := (← entries? n).filter fun e => known.contains e.1
  let names := fields.map (·.1)
  if names.eraseDups.length = names.length then some fields else none

def required? (fields : List (String × Node)) (name : String) (read : Node → Option α) : Option α :=
  (fields.lookup name).bind read

def defaulted? (fields : List (String × Node)) (name : String) (read : Node → Option α) (a : α) :
    Option α :=
  match fields.lookup name with
  | some n => read n
  | none => some a

end WorldTriggers.Yaml.Node
