import WorldTriggers.Content.Document
import WorldTriggers.FileTree

namespace WorldTriggers

def fileExtension? (name : String) : Option String :=
  let back := name.toList.reverse
  let ext := back.takeWhile (· != '.')
  match back.drop ext.length with
  | [] => none
  | [_] => none
  | _ => some (String.ofList ext.reverse)

def isScopeFile (name : String) : Bool :=
  match fileExtension? name with
  | some e => ["yaml", "yml"].contains (String.ofList (e.toList.map Char.toLower))
  | none => false

structure ContentSet where
  scopes : List Content := []
  failures : List String := []

def ContentSet.ofEntries (entries : List (String × FileTree (Option Yaml.Node))) : ContentSet :=
  entries.foldl (fun set (name, entry) =>
    match entry with
    | .directory _ => set
    | .file document =>
      if isScopeFile name then
        match document.bind (Content.ofNode? · (some name)) with
        | some c => { set with scopes := set.scopes ++ [c] }
        | none => { set with failures := set.failures ++ [name] }
      else set) {}

def Content.ofFile? (document : Option Yaml.Node) (path : String) : Option Content :=
  document.bind (ofNode? · (some (Text.fileName path)))

end WorldTriggers
