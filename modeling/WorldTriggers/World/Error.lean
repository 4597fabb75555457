import WorldTriggers.Direction
import WorldTriggers.Identifier
import WorldTriggers.Width

namespace WorldTriggers

inductive WorldError where
  | roomNotFound (room : RoomId)
  | actorNotFound (actor : ActorId)
  | npcNotPresent (template : TemplateId) (room : RoomId)
  | notEnoughItems (actor : ActorId) (item : TemplateId) (held wanted : Nat)
  | danglingExit (room : RoomId) (direction : Direction) (target : RoomId)
  | arithmeticOverflow
  | duplicateRoom (room : RoomId)
  | duplicateActor (actor : ActorId)
  deriving DecidableEq, Repr

def WorldError.message : WorldError → String
  | roomNotFound room => "room not found: " ++ room
  | actorNotFound actor => "actor not found: " ++ actor
  | npcNotPresent template room => "no " ++ template ++ " in room " ++ room
  | notEnoughItems actor item held wanted =>
    "actor " ++ actor ++ " carries " ++ toString held ++ " of " ++ item ++ ", needs " ++
      toString wanted
  | danglingExit room direction target =>
    "exit " ++ direction.name ++ " of " ++ room ++ " leads to unknown room " ++ target
  | arithmeticOverflow => "arithmetic overflow in world calculation"
  | duplicateRoom room => "duplicate room id: " ++ room
  | duplicateActor actor => "duplicate actor id: " ++ actor

def maxStack : Nat := Width.maxNat 32

def maxExperience : Nat := Width.maxNat 64

abbrev Stacks := SortedMap TemplateId Nat

abbrev NameSet := SortedMap String Unit

def NameSet.ofList (names : List String) : NameSet := SortedMap.ofList (names.map (·, ()))

namespace Stacks

def count (s : Stacks) (item : TemplateId) : Nat := (s.get? item).getD 0

/-- Adds to a stack, which is there afterwards even if nothing was added. -/
def add (s : Stacks) (item : TemplateId) (quantity : Nat) : Except WorldError Stacks :=
  if s.count item + quantity ≤ maxStack then .ok (s.insert item (s.count item + quantity))
  else .error .arithmeticOverflow

def put (s : Stacks) (item : TemplateId) (quantity : Nat) : Stacks :=
  if quantity = 0 then s.erase item else s.insert item quantity

end Stacks

end WorldTriggers
