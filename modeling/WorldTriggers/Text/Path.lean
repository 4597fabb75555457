import WorldTriggers.Text.Parts

namespace WorldTriggers.Text

def pathSteps (path : String) : List String := (splitAll '/' path.toList).map String.ofList

def staysPut (step : String) : Bool := step = "" || step = "."

def pathNames (path : String) : List String :=
  ((pathSteps path).foldl (fun names step =>
    if staysPut step then names else if step = ".." then names.drop 1 else step :: names) []).reverse

def isRooted (path : String) : Bool := path.toList.head? = some '/'

def fileName (path : String) : String :=
  String.ofList (path.toList.reverse.takeWhile (· != '/')).reverse

end WorldTriggers.Text
