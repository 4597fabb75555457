import WorldTriggers.Decimal.Reader
import WorldTriggers.Json.Basic
import WorldTriggers.Width

namespace WorldTriggers.Yaml

inductive Node where
  | scalar (text : String) (plain : Bool)
  | sequence (items : List Node)
  | mapping (entries : List (Node × Node))
  deriving Inhabited, Repr

namespace Node

def blank : Node := .scalar "" true

def maxDepth : Nat := 128

end Node

inductive Scalar where
  | null
  | bool (b : Bool)
  | int (n : Int)
  | float (x : Float)
  | text
  deriving Repr

namespace Scalar

def isNull (s : String) : Bool := ["null", "Null", "NULL", "~"].contains s

def bool? (s : String) : Option Bool :=
  if ["true", "True", "TRUE"].contains s then some true
  else if ["false", "False", "FALSE"].contains s then some false
  else none

def digits? (radix : Nat) (cs : List Char) : Option Nat :=
  if cs.isEmpty then none
  else
    cs.foldlM (fun n c =>
      let d :=
        if c.isDigit then c.toNat - 48
        else if 'a' ≤ c && c ≤ 'f' then c.toNat - 87
        else if 'A' ≤ c && c ≤ 'F' then c.toNat - 55
        else 16
      if d < radix then some (n * radix + d) else none) 0

def radixNat? : List Char → Option Nat
  | '0' :: 'x' :: cs => digits? 16 cs
  | '0' :: 'o' :: cs => digits? 8 cs
  | '0' :: 'b' :: cs => digits? 2 cs
  | _ => none

def isZeroPadded : List Char → Bool
  | '0' :: rest => !rest.isEmpty && rest.all Char.isDigit
  | _ => false

def magnitude? (cs : List Char) : Option Nat :=
  radixNat? cs <|> (if isZeroPadded cs then none else digits? 10 cs)

def nat? (s : String) : Option Nat :=
  match s.toList with
  | '+' :: cs => magnitude? cs
  | cs => magnitude? cs

def int? (s : String) : Option Int :=
  match s.toList with
  | '-' :: cs => (magnitude? cs).map fun n => -(n : Int)
  | _ => (nat? s).map Int.ofNat

def isWide (n : Int) : Bool := Width.minInt 128 ≤ n && n ≤ Width.maxNat 128

def float? (s : String) : Option Float :=
  if [".inf", ".Inf", ".INF", "+.inf", "+.Inf", "+.INF"].contains s then some (1 / 0)
  else if ["-.inf", "-.Inf", "-.INF"].contains s then some (-1 / 0)
  else if [".nan", ".NaN", ".NAN"].contains s then some (0 / 0)
  else
    let cs := s.toList
    let unsigned :=
      match cs with
      | '+' :: '-' :: _ => []
      | '+' :: rest => rest
      | cs => cs
    let body := match cs with
      | '-' :: rest => rest
      | '+' :: rest => rest
      | cs => cs
    if isZeroPadded body then none
    else
      match Decimal.Numeral.read? unsigned with
      | some (n, []) => if n.toFloat.isFinite then some n.toFloat else none
      | _ => none

def ofText (s : String) : Scalar :=
  if s.isEmpty || isNull s then .null
  else
    match bool? s with
    | some b => .bool b
    | none =>
      match (int? s).filter isWide with
      | some n => .int n
      | none =>
        match float? s with
        | some x => .float x
        | none => .text

/-- A plain scalar as a JSON value. Whole numbers beyond 64 bits have none; infinities and NaN are
null. -/
def json? (s : String) : Option Json :=
  match ofText s with
  | .null => some .null
  | .bool b => some (.bool b)
  | .int n => if Json.minInt ≤ n ∧ n ≤ Json.maxInt then some (.int n) else none
  | .float x => some (.ofFloat x)
  | .text => some (.string s)

end Scalar

namespace Node

def text? : Node → Option String
  | scalar s _ => some s
  | _ => none

mutual

def toJson? (depth : Nat) : Node → Option Json
  | scalar s true => Scalar.json? s
  | scalar s false => some (.string s)
  | sequence items =>
    if depth = 0 then none else (itemsToJson? (depth - 1) items).map .array
  | mapping entries =>
    if depth = 0 then none else (entriesToJson? (depth - 1) entries).map Json.ofFields

def itemsToJson? (depth : Nat) : List Node → Option (List Json)
  | [] => some []
  | n :: rest =>
    match toJson? depth n, itemsToJson? depth rest with
    | some v, some vs => some (v :: vs)
    | _, _ => none

def entriesToJson? (depth : Nat) : List (Node × Node) → Option (List (String × Json))
  | [] => some []
  | (k, n) :: rest =>
    match text? k, toJson? depth n, entriesToJson? depth rest with
    | some k, some v, some vs => some ((k, v) :: vs)
    | _, _, _ => none

end

end Node

end WorldTriggers.Yaml
