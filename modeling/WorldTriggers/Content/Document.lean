import WorldTriggers.Content.Basic
import WorldTriggers.Yaml.Decode
import WorldTriggers.Yaml.Reader

namespace WorldTriggers

open Yaml Node

def Scope.ofNode? (n : Node) : Option Scope := do
  let entries ← n.entries?
  if !entries.all fun e => e.1 == "room" || e.1 == "area" then none
  else
    let f ← record? ["room", "area"] n
    let room ← defaulted? f "room" (optional? text?) none
    let area ← defaulted? f "area" (optional? text?) none
    Scope.ofOwners? room area

namespace Content

def ofNode? (n : Node) (source : Option String) : Option Content := do
  let f ← record? ["scope", "triggers"] n
  let scope ← required? f "scope" Scope.ofNode?
  let records ← defaulted? f "triggers" (list? (toJson? (maxDepth - 2))) []
  pure (ofRecords scope records source)

def ofText? (s : String) (source : Option String) : Option Content :=
  (Node.ofText? s).bind (ofNode? · source)

end Content

end WorldTriggers
