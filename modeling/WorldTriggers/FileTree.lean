import WorldTriggers.SortedMap
import WorldTriggers.Text.Path

namespace WorldTriggers

inductive FileTree (α : Type) where
  | file (content : α)
  | directory (entries : List (String × FileTree α))

namespace FileTree

variable {α : Type}

def empty : FileTree α := directory []

def entries : FileTree α → List (String × FileTree α)
  | file _ => []
  | directory entries => entries

def find? : List String → FileTree α → Option (FileTree α)
  | [], t => some t
  | name :: rest, t => (SortedMap.lookup name t.entries).bind (find? rest)

def alter (f : Option (FileTree α) → FileTree α) : List String → Option (FileTree α) → FileTree α
  | [], t => f t
  | name :: rest, t =>
    let entries := (t.map entries).getD []
    directory (SortedMap.insertEntry name (alter f rest (SortedMap.lookup name entries)) entries)

theorem find?_alter (f : Option (FileTree α) → FileTree α) (names : List String)
    (t : Option (FileTree α)) :
    (alter f names t).find? names = some (f (t.bind (find? names))) := by
  induction names generalizing t with
  | nil => cases t <;> simp [alter, find?]
  | cons name rest ih =>
    cases t <;> simp [alter, find?, entries, SortedMap.lookup_insertEntry, SortedMap.lookup, ih]

def addFile (t : FileTree α) (path : String) (content : α) : FileTree α :=
  alter (fun _ => file content) (Text.pathNames path) (some t)

def addDirectory (t : FileTree α) (path : String) : FileTree α :=
  alter (fun t => directory ((t.map entries).getD [])) (Text.pathNames path) (some t)

def step? (trail : List (FileTree α)) (step : String) : Option (List (FileTree α)) :=
  match trail with
  | directory entries :: above =>
    if Text.staysPut step then some trail
    else if step = ".." then some (if above.isEmpty then [empty] else above)
    else (SortedMap.lookup step entries).map (· :: trail)
  | _ => none

def resolve? (t : FileTree α) (path : String) : Option (FileTree α) :=
  ((Text.pathSteps path).foldlM step? [if Text.isRooted path then empty else t]).bind List.head?

end FileTree

end WorldTriggers
