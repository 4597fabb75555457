import WorldTriggers.Proofs.World.Change

namespace WorldTriggers

@[ext]
structure Census where
  npcs : RoomId → TemplateId → Int
  rooms : ActorId → Option RoomId
  health : ActorId → Option Int
  experience : ActorId → Option Int

namespace Census

def addNpcs (c : Census) (room : RoomId) (template : TemplateId) (n : Int) : Census :=
  { c with npcs := fun k t => if k = room ∧ t = template then c.npcs k t + n else c.npcs k t }

def moveActor (c : Census) (actor : ActorId) (room : RoomId) : Census :=
  { c with rooms := Function.update c.rooms actor (some room) }

def addHealth (c : Census) (actor : ActorId) (n : Int) : Census :=
  { c with health := Function.update c.health actor ((c.health actor).map (· + n)) }

def addExperience (c : Census) (actor : ActorId) (n : Int) : Census :=
  { c with experience := Function.update c.experience actor ((c.experience actor).map (· + n)) }

theorem addHealth_zero (c : Census) (actor : ActorId) : c.addHealth actor 0 = c := by
  refine Census.ext rfl rfl (Function.update_eq_self_iff.mpr ?_) rfl
  simp

theorem addExperience_zero (c : Census) (actor : ActorId) : c.addExperience actor 0 = c := by
  refine Census.ext rfl rfl rfl (Function.update_eq_self_iff.mpr ?_)
  simp

end Census

structure Emission where
  kind : Option String
  notice : Notice

/-- A count of a world, brought up to date with what is told. Of the changes of stats, those count that
are made by the actions for health and for experience. -/
def Census.replay (c : Census) (m : Emission) : Census :=
  match m.notice with
  | .entity .spawn .npc template room => c.addNpcs room template 1
  | .entity .despawn .npc template room => c.addNpcs room template (-1)
  | .actorMoved actor _ room => c.moveActor actor room
  | .statDelta actor _ delta =>
    if m.kind = some "damage" ∨ m.kind = some "heal" then c.addHealth actor delta
    else if m.kind = some "grant_xp" then c.addExperience actor delta
    else c
  | _ => c

namespace World

def census (w : World) : Census where
  npcs room template := w.npcCount room template
  rooms := w.actorRoom?
  health actor := (w.actors.get? actor).map fun a => (a.health : Int)
  experience actor := (w.actors.get? actor).map fun a => (a.experience : Int)

variable {w w' : World} {room : RoomId} {actor : ActorId} {r r' : Room} {a a' : Actor}

section Census

theorem npcCount_of_get? (h : w.rooms.get? room = some r) (template : TemplateId) :
    w.npcCount room template = r.npcs.count template := by
  rw [npcCount, h]

theorem npcCount_putRoom (w : World) (room : RoomId) (r : Room) (k : RoomId) (template : TemplateId) :
    (w.putRoom room r).npcCount k template =
      if k = room then r.npcs.count template else w.npcCount k template := by
  by_cases hk : k = room <;> simp [npcCount, putRoom, SortedMap.get?_insert, hk]

theorem get?_putActor_map {α : Type} (w : World) (actor : ActorId) (a : Actor) (f : Actor → α) :
    (fun k => ((w.putActor actor a).actors.get? k).map f) =
      Function.update (fun k => (w.actors.get? k).map f) actor (some (f a)) := by
  funext k
  by_cases hk : k = actor <;> simp [putActor, SortedMap.get?_insert, hk]

theorem actorRoom?_putActor (w : World) (actor : ActorId) (a : Actor) :
    (w.putActor actor a).actorRoom? = Function.update w.actorRoom? actor a.room := by
  funext k
  by_cases hk : k = actor <;>
    simp [actorRoom?, putActor, SortedMap.get?_insert, hk]

theorem census_putRoom_of_same (hr : w.rooms.get? room = some r) (h : r'.npcs = r.npcs) :
    (w.putRoom room r').census = w.census := by
  refine Census.ext ?_ rfl rfl rfl
  funext k template
  change ((w.putRoom room r').npcCount k template : Int) = w.npcCount k template
  rw [npcCount_putRoom]
  split
  · subst k
    rw [npcCount_of_get? hr, h]
  · rfl

theorem census_putRoom_of_count {template : TemplateId} {n : Int} (hr : w.rooms.get? room = some r)
    (hother : ∀ t, t ≠ template → r'.npcs.count t = r.npcs.count t)
    (hcount : (r'.npcs.count template : Int) = r.npcs.count template + n) :
    (w.putRoom room r').census = w.census.addNpcs room template n := by
  refine Census.ext ?_ rfl rfl rfl
  funext k t
  change ((w.putRoom room r').npcCount k t : Int) =
    if k = room ∧ t = template then (w.npcCount k t : Int) + n else w.npcCount k t
  rw [npcCount_putRoom]
  by_cases hk : k = room
  · subst k
    rw [npcCount_of_get? hr]
    by_cases ht : t = template
    · simp [ht, hcount]
    · simp [ht, hother t ht]
  · simp [hk]

theorem rooms_census (ha : w.actors.get? actor = some a) : w.census.rooms actor = a.room := by
  change (w.actors.get? actor).bind (·.room) = a.room
  rw [ha]
  rfl

theorem health_census (ha : w.actors.get? actor = some a) :
    w.census.health actor = some (a.health : Int) := by
  change (w.actors.get? actor).map _ = _
  rw [ha]
  rfl

theorem experience_census (ha : w.actors.get? actor = some a) :
    w.census.experience actor = some (a.experience : Int) := by
  change (w.actors.get? actor).map _ = _
  rw [ha]
  rfl

theorem census_putActor (ha : w.actors.get? actor = some a) (hroom : a'.room = a.room) {m n : Int}
    (hhealth : (a'.health : Int) = a.health + m) (hexperience : (a'.experience : Int) = a.experience + n) :
    (w.putActor actor a').census = (w.census.addHealth actor m).addExperience actor n := by
  refine Census.ext rfl ?_ ?_ ?_
  · refine (actorRoom?_putActor w actor a').trans (Function.update_eq_self_iff.mpr ?_)
    exact hroom.trans (rooms_census ha).symm
  · refine (get?_putActor_map w actor a' fun a => (a.health : Int)).trans ?_
    change _ = Function.update w.census.health actor ((w.census.health actor).map (· + m))
    rw [health_census ha, hhealth]
    rfl
  · refine (get?_putActor_map w actor a' fun a => (a.experience : Int)).trans ?_
    change _ = Function.update w.census.experience actor ((w.census.experience actor).map (· + n))
    rw [experience_census ha, hexperience]
    rfl

theorem census_spawnNpc {template : TemplateId} (h : w.spawnNpc room template = .ok w') :
    w'.census = w.census.addNpcs room template 1 := by
  obtain ⟨r, hr, h⟩ := bind_eq_ok.mp h
  cases h
  refine census_putRoom_of_count (findRoom_eq_ok.mp hr) (fun t ht => ?_) ?_
  · rw [Room.addNpc, Stacks.count, SortedMap.get?_insert, if_neg ht]
    rfl
  · rw [Room.addNpc, Stacks.count_insert]
    rfl

theorem census_despawnNpc {template : TemplateId} (h : w.despawnNpc room template = .ok w') :
    w'.census = w.census.addNpcs room template (-1) := by
  obtain ⟨r, hr, h⟩ := bind_eq_ok.mp h
  obtain ⟨r', htake, h⟩ := bind_eq_ok.mp h
  cases h
  obtain ⟨n, hn, rfl⟩ := Room.takeNpc_eq_ok.mp htake
  refine census_putRoom_of_count (findRoom_eq_ok.mp hr) (fun t ht => ?_) ?_
  · exact Stacks.count_put_of_ne ht _ _
  · rw [Stacks.count_put, hn]
    omega

theorem census_moveActor {source : Option RoomId} (h : w.moveActor actor room = .ok (source, w')) :
    source = w.actorRoom? actor ∧ w'.census = w.census.moveActor actor room := by
  obtain ⟨-, -, h⟩ := bind_eq_ok.mp h
  obtain ⟨a, ha, h⟩ := bind_eq_ok.mp h
  have ha := findActor_eq_ok.mp ha
  cases h
  refine ⟨(rooms_census ha).symm, Census.ext rfl (actorRoom?_putActor w actor _) ?_ ?_⟩
  · refine (get?_putActor_map w actor _ fun a => (a.health : Int)).trans ?_
    exact Function.update_eq_self_iff.mpr (health_census ha).symm
  · refine (get?_putActor_map w actor _ fun a => (a.experience : Int)).trans ?_
    exact Function.update_eq_self_iff.mpr (experience_census ha).symm

theorem census_adjustHealth {delta change : Int} (h : w.adjustHealth actor delta = .ok (change, w')) :
    w'.census = w.census.addHealth actor change := by
  obtain ⟨a, ha, h⟩ := bind_eq_ok.mp h
  have hhealth : ((a.adjustHealth delta).2.health : Int) = a.health + (a.adjustHealth delta).1 := by
    rw [Actor.health_adjustHealth]
    exact (add_sub_cancel (a.health : Int) _).symm
  have hroom : (a.adjustHealth delta).2.room = a.room := rfl
  have hcensus := census_putActor (findActor_eq_ok.mp ha) hroom hhealth (Int.add_zero _).symm
  rw [Census.addExperience_zero] at hcensus
  cases h
  exact hcensus

theorem census_addExperience {n : Nat} (h : w.addExperience actor n = .ok w') :
    w'.census = w.census.addExperience actor n := by
  obtain ⟨a, ha, h⟩ := bind_eq_ok.mp h
  split at h
  · cases h
    have hroom : ({ a with experience := a.experience + n } : Actor).room = a.room := rfl
    have hcensus := census_putActor (findActor_eq_ok.mp ha) hroom (Int.add_zero _).symm
      (Int.natCast_add _ _)
    rwa [Census.addHealth_zero] at hcensus
  · cases h

def Change.isQuiet : Change → Bool
  | spawnNpc .. => false
  | despawnNpc .. => false
  | moveNpc .. => false
  | moveActor .. => false
  | adjustHealth .. => false
  | addExperience .. => false
  | _ => true

theorem census_putActor_of_same (ha : w.findActor actor = .ok a) (hroom : a'.room = a.room)
    (hhealth : a'.health = a.health) (hexperience : a'.experience = a.experience) :
    (w.putActor actor a').census = w.census := by
  have hcensus := census_putActor (findActor_eq_ok.mp ha) hroom (m := 0) (n := 0)
    (by rw [hhealth, Int.add_zero]) (by rw [hexperience, Int.add_zero])
  rwa [Census.addHealth_zero, Census.addExperience_zero] at hcensus

theorem census_apply {c : Change} (hc : c.isQuiet = true) (h : c.apply w = .ok w') :
    w'.census = w.census := by
  cases c with
  | setRoomFlag | setDescription | resetDescription =>
    obtain ⟨r, hr, h⟩ := bind_eq_ok.mp h
    cases h
    exact census_putRoom_of_same (findRoom_eq_ok.mp hr) rfl
  | openExit room d target =>
    obtain ⟨⟨_, _⟩, hmade, rfl⟩ := map_eq_ok.mp h
    obtain ⟨-, -, h⟩ := bind_eq_ok.mp hmade
    obtain ⟨r, hr, h⟩ := bind_eq_ok.mp h
    have hnpcs : (r.openExit d target).2.npcs = r.npcs := by
      unfold Room.openExit
      split <;> rfl
    cases h
    exact census_putRoom_of_same (findRoom_eq_ok.mp hr) hnpcs
  | closeExit room d =>
    obtain ⟨⟨_, _⟩, hmade, rfl⟩ := map_eq_ok.mp h
    obtain ⟨r, hr, h⟩ := bind_eq_ok.mp hmade
    have hnpcs : (r.closeExit d).2.npcs = r.npcs := by
      unfold Room.closeExit
      split <;> rfl
    cases h
    exact census_putRoom_of_same (findRoom_eq_ok.mp hr) hnpcs
  | addRoomItems room item quantity =>
    obtain ⟨r, hr, h⟩ := bind_eq_ok.mp h
    obtain ⟨r', hadd, h⟩ := bind_eq_ok.mp h
    obtain ⟨items, -, rfl⟩ := Room.addItems_eq_ok.mp hadd
    cases h
    exact census_putRoom_of_same (findRoom_eq_ok.mp hr) rfl
  | removeRoomItems room item quantity =>
    obtain ⟨⟨_, _⟩, hmade, rfl⟩ := map_eq_ok.mp h
    obtain ⟨r, hr, h⟩ := bind_eq_ok.mp hmade
    have hnpcs : (r.removeItems item quantity).2.npcs = r.npcs := by
      unfold Room.removeItems
      split <;> rfl
    cases h
    exact census_putRoom_of_same (findRoom_eq_ok.mp hr) hnpcs
  | addEffect | removeEffect =>
    obtain ⟨⟨_, _⟩, hmade, rfl⟩ := map_eq_ok.mp h
    obtain ⟨a, ha, h⟩ := bind_eq_ok.mp hmade
    cases h
    exact census_putActor_of_same ha rfl rfl rfl
  | giveItem actor item quantity =>
    obtain ⟨a, ha, h⟩ := bind_eq_ok.mp h
    obtain ⟨a', hgive, h⟩ := bind_eq_ok.mp h
    obtain ⟨inventory, -, rfl⟩ := Actor.give_eq_ok.mp hgive
    cases h
    exact census_putActor_of_same ha rfl rfl rfl
  | takeItem actor item quantity =>
    obtain ⟨a, ha, h⟩ := bind_eq_ok.mp h
    obtain ⟨a', htake, h⟩ := bind_eq_ok.mp h
    obtain ⟨-, ⟨rfl, -⟩ | rfl⟩ := Actor.take_eq_ok htake <;> cases h <;>
      exact census_putActor_of_same ha rfl rfl rfl
  | spawnNpc | despawnNpc | moveNpc | moveActor | adjustHealth | addExperience => cases hc

end Census

end World

section Tells

variable {w v w' : World} {ms ms' : List Emission}

def Emission.Departs (c : Census) (m : Emission) : Prop :=
  ∀ actor source target, m.notice = .actorMoved actor source target → source = c.rooms actor

/-- From one world to another all is told: whoever counted the first and was told knows the count of the
second, and knew of each actor that moved where it was. -/
structure Tells (w : World) (ms : List Emission) (w' : World) : Prop where
  news : ∀ m ∈ ms, m.notice.isNews = true
  census : ms.foldl Census.replay w.census = w'.census
  departs : ∀ before m later, ms = before ++ m :: later →
    m.Departs (before.foldl Census.replay w.census)

theorem tells_nil (h : w'.census = w.census) : Tells w [] w' where
  news _ hm := nomatch hm
  census := h.symm
  departs before m later h := by simp at h

theorem tells_single {m : Emission} (hnews : m.notice.isNews = true)
    (hcensus : w.census.replay m = w'.census) (hdeparts : m.Departs w.census) : Tells w [m] w' where
  news := by simpa using hnews
  census := hcensus
  departs before k later h := by
    cases before with
    | nil =>
      cases h
      exact hdeparts
    | cons => simp at h

theorem Tells.trans (h : Tells w ms v) (h' : Tells v ms' w') : Tells w (ms ++ ms') w' where
  news m hm := (List.mem_append.mp hm).elim (h.news m) (h'.news m)
  census := by rw [List.foldl_append, h.census, h'.census]
  departs before m later hms := by
    rcases List.append_eq_append_iff.mp hms with ⟨ks, rfl, hks⟩ | ⟨ks, rfl, hks⟩
    · rw [List.foldl_append, h.census]
      exact h'.departs ks m later hks
    · cases ks with
      | nil =>
        rw [List.append_nil] at h
        rw [h.census]
        exact h'.departs [] m later hks.symm
      | cons k ks =>
        obtain ⟨rfl, -⟩ := List.cons.inj hks
        exact h.departs before m ks rfl

theorem Census.isSome_replay (c : Census) (m : Emission) (k : ActorId) :
    ((c.replay m).health k).isSome = (c.health k).isSome := by
  have hadd (actor : ActorId) (n : Int) : ((c.addHealth actor n).health k).isSome = (c.health k).isSome := by
    unfold addHealth
    dsimp only
    by_cases hk : k = actor <;> simp [hk]
  unfold replay
  split <;> try rfl
  split
  · exact hadd _ _
  · split <;> rfl

theorem Tells.contains (h : Tells w ms w') (actor : ActorId) :
    w'.actors.contains actor = w.actors.contains actor := by
  have hhealth (u : World) : (u.census.health actor).isSome = u.actors.contains actor := Option.isSome_map
  have hreplay (c : Census) : ((ms.foldl Census.replay c).health actor).isSome = (c.health actor).isSome := by
    clear h
    induction ms generalizing c with
    | nil => rfl
    | cons m ms ih => exact (ih _).trans (c.isSome_replay m actor)
  rw [← hhealth, ← hhealth, ← h.census, hreplay]

end Tells

end WorldTriggers
