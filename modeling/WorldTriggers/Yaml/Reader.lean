import WorldTriggers.Yaml.Node
import WorldTriggers.Yaml.Token

/-!
Reading documents from their tokens. Every reader returns what it read with the tokens behind it; each
token is looked at by no more than four readers, which bounds their number.
-/

namespace WorldTriggers.Yaml

mutual

def readNode (block loose : Bool) : Nat → List Token → Option (Node × List Token)
  | 0, _ => none
  | _ + 1, [] => none
  | fuel + 1, t :: rest =>
    match t with
    | .scalar text plain => some (.scalar text plain, rest)
    | .openSequence => (readFlowItems fuel rest).map fun (ns, rest) => (.sequence ns, rest)
    | .openMapping => (readFlowEntries fuel rest).map fun (es, rest) => (.mapping es, rest)
    | .startSequence =>
      if block then (readItems fuel rest).map fun (ns, rest) => (.sequence ns, rest) else none
    | .startMapping =>
      if block then (readEntries fuel rest).map fun (es, rest) => (.mapping es, rest) else none
    | .dash =>
      if loose then (readLooseItems fuel (t :: rest)).map fun (ns, rest) => (.sequence ns, rest)
      else none
    | _ => none

def readNodeBefore (ends : List Token) (block loose : Bool) :
    Nat → List Token → Option (Node × List Token)
  | 0, _ => none
  | fuel + 1, ts =>
    if ts.head?.any ends.contains then some (.blank, ts) else readNode block loose fuel ts

def readValue (ends : List Token) (block : Bool) : Nat → List Token → Option (Node × List Token)
  | 0, _ => none
  | fuel + 1, .value :: rest => readNodeBefore ends block block fuel rest
  | _ + 1, ts => some (.blank, ts)

def readItems : Nat → List Token → Option (List Node × List Token)
  | 0, _ => none
  | fuel + 1, ts =>
    match ts with
    | .dash :: rest =>
      match readNodeBefore [.dash, .endBlock] true false fuel rest with
      | none => none
      | some (n, rest) => (readItems fuel rest).map fun (ns, rest) => (n :: ns, rest)
    | .endBlock :: rest => some ([], rest)
    | _ => none

def readLooseItems : Nat → List Token → Option (List Node × List Token)
  | 0, _ => none
  | fuel + 1, ts =>
    match ts with
    | .dash :: rest =>
      match readNodeBefore [.dash, .key, .value, .endBlock] true false fuel rest with
      | none => none
      | some (n, rest) => (readLooseItems fuel rest).map fun (ns, rest) => (n :: ns, rest)
    | ts => some ([], ts)

def readEntries : Nat → List Token → Option (List (Node × Node) × List Token)
  | 0, _ => none
  | fuel + 1, ts =>
    match ts with
    | .key :: rest =>
      match readNodeBefore [.key, .value, .endBlock] true true fuel rest with
      | none => none
      | some (k, rest) =>
        match readValue [.key, .value, .endBlock] true fuel rest with
        | none => none
        | some (v, rest) => (readEntries fuel rest).map fun (es, rest) => ((k, v) :: es, rest)
    | .endBlock :: rest => some ([], rest)
    | _ => none

def readFlowItems : Nat → List Token → Option (List Node × List Token)
  | 0, _ => none
  | fuel + 1, ts =>
    match ts with
    | .closeSequence :: rest => some ([], rest)
    | .key :: rest =>
      match readPairKey fuel rest with
      | none => none
      | some (k, rest) =>
        match readValue [.comma, .closeSequence] false fuel rest with
        | none => none
        | some (v, rest) => readMoreFlowItems fuel (.mapping [(k, v)]) rest
    | ts =>
      match readNode false false fuel ts with
      | none => none
      | some (n, rest) => readMoreFlowItems fuel n rest

def readPairKey : Nat → List Token → Option (Node × List Token)
  | 0, _ => none
  | fuel + 1, ts =>
    match ts with
    | .value :: rest => some (.blank, rest)
    | .comma :: rest => some (.blank, rest)
    | .closeSequence :: rest => some (.blank, rest)
    | ts => readNode false false fuel ts

def readMoreFlowItems : Nat → Node → List Token → Option (List Node × List Token)
  | 0, _, _ => none
  | fuel + 1, n, ts =>
    match ts with
    | .comma :: rest => (readFlowItems fuel rest).map fun (ns, rest) => (n :: ns, rest)
    | .closeSequence :: rest => some ([n], rest)
    | _ => none

def readFlowEntries : Nat → List Token → Option (List (Node × Node) × List Token)
  | 0, _ => none
  | fuel + 1, ts =>
    match ts with
    | .closeMapping :: rest => some ([], rest)
    | .key :: rest =>
      match readNodeBefore [.value, .comma, .closeMapping] false false fuel rest with
      | none => none
      | some (k, rest) =>
        match readValue [.comma, .closeMapping] false fuel rest with
        | none => none
        | some (v, rest) => readMoreFlowEntries fuel (k, v) rest
    | ts =>
      match readNode false false fuel ts with
      | none => none
      | some (k, rest) => readMoreFlowEntries fuel (k, .blank) rest

def readMoreFlowEntries : Nat → Node × Node → List Token → Option (List (Node × Node) × List Token)
  | 0, _, _ => none
  | fuel + 1, e, ts =>
    match ts with
    | .comma :: rest => (readFlowEntries fuel rest).map fun (es, rest) => (e :: es, rest)
    | .closeMapping :: rest => some ([e], rest)
    | _ => none

end

def Node.ofTokens? (ts : List Token) : Option Node :=
  let fuel := 4 * ts.length + 4
  let document : Option (Node × List Token) :=
    match ts with
    | [] => some (Node.blank, [])
    | .documentStart :: [] => some (.blank, [])
    | .documentStart :: rest => readNodeBefore [.documentStart, .documentEnd] true false fuel rest
    | ts => readNode true false fuel ts
  match document with
  | some (n, rest) => if rest.all (· = .documentEnd) then some n else none
  | none => none

def Node.ofText? (s : String) : Option Node := (Token.scan? s).bind Node.ofTokens?

end WorldTriggers.Yaml
