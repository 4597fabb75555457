import WorldTriggers.Json.Basic

namespace WorldTriggers

abbrev Params := SortedMap String Json

inductive ParamKind where
  | string
  | number
  | integer
  | natural
  deriving DecidableEq, Repr

def ParamKind.text : ParamKind → String
  | string => "a string"
  | number => "a number"
  | integer => "an integer"
  | natural => "a non-negative integer"

inductive ParamError where
  | missing (key : String)
  | wrongType (key : String) (wanted : ParamKind)
  deriving DecidableEq, Repr

def ParamError.message : ParamError → String
  | missing key => "missing parameter `" ++ key ++ "`"
  | wrongType key wanted => "parameter `" ++ key ++ "` must be " ++ wanted.text

namespace Params

def isInteger (n : Int) : Bool := Width.minInt 64 ≤ n && n ≤ Width.maxInt 64

def string (p : Params) (key : String) : Except ParamError String :=
  match p.get? key with
  | none => .error (.missing key)
  | some (.string s) => .ok s
  | some _ => .error (.wrongType key .string)

def string? (p : Params) (key : String) : Except ParamError (Option String) :=
  match p.get? key with
  | none => .ok none
  | some .null => .ok none
  | some (.string s) => .ok (some s)
  | some _ => .error (.wrongType key .string)

def number? (p : Params) (key : String) : Except ParamError (Option Float) :=
  match p.get? key with
  | none => .ok none
  | some .null => .ok none
  | some v =>
    match v.number? with
    | some x => .ok (some x)
    | none => .error (.wrongType key .number)

def integer? (p : Params) (key : String) : Except ParamError (Option Int) :=
  match p.get? key with
  | none => .ok none
  | some .null => .ok none
  | some (.int n) => if isInteger n then .ok (some n) else .error (.wrongType key .integer)
  | some _ => .error (.wrongType key .integer)

def orMissing (key : String) : Option α → Except ParamError α
  | some a => .ok a
  | none => .error (.missing key)

def number (p : Params) (key : String) : Except ParamError Float := do
  orMissing key (← p.number? key)

def integer (p : Params) (key : String) : Except ParamError Int := do
  orMissing key (← p.integer? key)

def natural (p : Params) (key : String) (default : Nat) : Except ParamError Nat := do
  match ← p.integer? key with
  | none => pure default
  | some n => if 0 ≤ n ∧ n ≤ Width.maxNat 32 then pure n.toNat else throw (.wrongType key .natural)

end Params

end WorldTriggers
