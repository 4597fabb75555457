import WorldTriggers.Json.Decode
import WorldTriggers.Text.Lowercase

namespace WorldTriggers

inductive Direction where
  | north
  | south
  | east
  | west
  | northeast
  | northwest
  | southeast
  | southwest
  | up
  | down
  deriving DecidableEq, Repr

namespace Direction

def all : List Direction :=
  [north, south, east, west, northeast, northwest, southeast, southwest, up, down]

def rank : Direction → Nat
  | north => 0
  | south => 1
  | east => 2
  | west => 3
  | northeast => 4
  | northwest => 5
  | southeast => 6
  | southwest => 7
  | up => 8
  | down => 9

instance : Ord Direction := ⟨fun a b => compare a.rank b.rank⟩

instance : Std.TransOrd Direction := inferInstanceAs (Std.TransCmp (compareOn rank))

theorem rank_injective {a b : Direction} (h : a.rank = b.rank) : a = b := by
  cases a <;> cases b <;> simp_all [rank]

instance : Std.LawfulEqOrd Direction where
  compare_self {a} := show compare a.rank a.rank = .eq from Std.ReflOrd.compare_self
  eq_of_compare {a b} h :=
    rank_injective (Std.LawfulEqCmp.eq_of_compare (show compare a.rank b.rank = .eq from h))

def name : Direction → String
  | north => "north"
  | south => "south"
  | east => "east"
  | west => "west"
  | northeast => "northeast"
  | northwest => "northwest"
  | southeast => "southeast"
  | southwest => "southwest"
  | up => "up"
  | down => "down"

def opposite : Direction → Direction
  | north => south
  | south => north
  | east => west
  | west => east
  | northeast => southwest
  | northwest => southeast
  | southeast => northwest
  | southwest => northeast
  | up => down
  | down => up

theorem opposite_opposite (d : Direction) : d.opposite.opposite = d := by
  cases d <;> rfl

def shortName : Direction → String
  | north => "n"
  | south => "s"
  | east => "e"
  | west => "w"
  | northeast => "ne"
  | northwest => "nw"
  | southeast => "se"
  | southwest => "sw"
  | up => "u"
  | down => "d"

def folded (s : String) : String := Text.lowercase (Text.trim s)

def ofText? (s : String) : Option Direction :=
  all.find? fun d => d.name == folded s || d.shortName == folded s

def unknownText (s : String) : String := "unknown direction `" ++ folded s ++ "`"

def named : List (String × Direction) := all.map fun d => (d.name, d)

def decode (loose : Bool) (v : Json) : Decoded Direction := Json.asVariant loose named v

def toJson (d : Direction) : Json := .string d.name

end Direction

end WorldTriggers
