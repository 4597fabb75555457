import WorldTriggers.Context
import WorldTriggers.World.Basic

namespace WorldTriggers.Template

inductive Variable where
  | actor
  | actorId
  | room
  | roomId
  | area
  | direction
  | command
  | fromArea
  | toArea
  deriving DecidableEq, Repr

namespace Variable

def all : List Variable :=
  [actor, actorId, room, roomId, area, direction, command, fromArea, toArea]

def name : Variable → String
  | actor => "actor"
  | actorId => "actor_id"
  | room => "room"
  | roomId => "room_id"
  | area => "area"
  | direction => "direction"
  | command => "command"
  | fromArea => "from_area"
  | toArea => "to_area"

def ofName? (cs : List Char) : Option Variable := all.find? fun v => v.name.toList == cs

end Variable

abbrev Values := Variable → Option String

def Values.ofContext (c : Context) (w : World) : Values :=
  let room := c.room <|> c.actor.bind w.actorRoom?
  let area := c.area <|> room.bind w.roomArea?
  fun
    | .actor => c.actor.map fun a => (w.actorName? a).getD a
    | .actorId => c.actor
    | .room => room.map fun r => (w.roomName? r).getD r
    | .roomId => room
    | .area => area.map fun a => (w.areaName? a).getD a
    | .direction => c.direction.map Direction.name
    | .command => c.command
    | .fromArea => c.transition.map Transition.source
    | .toArea => c.transition.map Transition.target

def splitAt? (mark : Char) : List Char → Option (List Char × List Char)
  | [] => none
  | c :: rest =>
    if c = mark then some ([], rest)
    else (splitAt? mark rest).map fun (before, after) => (c :: before, after)

theorem splitAt?_length {mark : Char} {cs before after : List Char}
    (h : splitAt? mark cs = some (before, after)) : after.length < cs.length := by
  induction cs generalizing before with
  | nil => simp [splitAt?] at h
  | cons c rest ih =>
    unfold splitAt? at h
    split at h
    · simp_all
    · cases hs : splitAt? mark rest with
      | none => simp [hs] at h
      | some p =>
        obtain ⟨b, a⟩ := p
        simp only [hs, Option.map_some, Option.some.injEq, Prod.mk.injEq] at h
        obtain ⟨-, rfl⟩ := h
        have := ih hs
        simp only [List.length_cons]
        omega

/-- What a placeholder becomes; `body` is what stands between its outer braces. Further opening braces
in front of the name belong to the placeholder and vanish with it. -/
def expand (values : Values) (body : List Char) : List Char :=
  match (Variable.ofName? (body.dropWhile (· == '\x7b'))).bind values with
  | some value => value.toList
  | none => '\x7b' :: body ++ ['\x7d']

def renderChars (values : Values) (cs : List Char) : List Char :=
  match _hopen : splitAt? '\x7b' cs with
  | none => cs
  | some (before, rest) =>
    match _hclose : splitAt? '\x7d' rest with
    | none => cs
    | some (body, after) => before ++ expand values body ++ renderChars values after
termination_by cs.length
decreasing_by exact Nat.lt_trans (splitAt?_length _hclose) (splitAt?_length _hopen)

def render (values : Values) (s : String) : String :=
  String.ofList (renderChars values s.toList)

end WorldTriggers.Template
