import WorldTriggers.Proofs.Effects

namespace WorldTriggers

namespace Width

def hold (bits : Nat) (n : Int) : Int := max (minInt bits) (min n (maxInt bits))

end Width

namespace Stacks

def Fits (s : Stacks) : Prop := ∀ item n, s.get? item = some n → n ≤ maxStack

variable {s s' : Stacks} {item : TemplateId} {n : Nat}

theorem fits_iff : s.Fits ↔ ∀ e ∈ s.entries, e.2 ≤ maxStack :=
  ⟨fun h e he => h e.1 e.2 (SortedMap.get?_eq_some_iff.mpr he),
    fun h item n hn => h (item, n) (SortedMap.get?_eq_some_iff.mp hn)⟩

instance : Decidable s.Fits := decidable_of_iff _ fits_iff.symm

theorem Fits.insert (h : s.Fits) (hn : n ≤ maxStack) : Fits (SortedMap.insert s item n) := by
  intro k m hm
  exact SortedMap.of_get?_insert (p := fun _ m => m ≤ maxStack) hm hn h

theorem Fits.erase (h : s.Fits) (item : TemplateId) : Fits (SortedMap.erase s item) := by
  intro k m hm
  rw [SortedMap.get?_erase] at hm
  split at hm
  · cases hm
  · exact h k m hm

theorem Fits.count_le (h : s.Fits) (item : TemplateId) : s.count item ≤ maxStack := by
  unfold count
  cases hn : s.get? item with
  | none => exact Nat.zero_le _
  | some n => exact h item n hn

theorem add_eq_ok : s.add item n = .ok s' ↔
    s.count item + n ≤ maxStack ∧ s' = SortedMap.insert s item (s.count item + n) := by
  unfold add
  split <;> simp_all [eq_comm]

theorem Fits.add (h : s.Fits) (hadd : s.add item n = .ok s') : s'.Fits := by
  obtain ⟨hn, rfl⟩ := add_eq_ok.mp hadd
  exact h.insert hn

theorem Fits.put (h : s.Fits) (hn : n ≤ maxStack) : (s.put item n).Fits := by
  unfold Stacks.put
  split
  · exact h.erase item
  · exact h.insert hn

theorem count_insert (s : Stacks) (item : TemplateId) (n : Nat) :
    count (SortedMap.insert s item n) item = n := by
  rw [count, SortedMap.get?_insert_self]
  rfl

theorem count_erase (s : Stacks) (item : TemplateId) : count (SortedMap.erase s item) item = 0 := by
  rw [count, SortedMap.get?_erase, if_pos rfl]
  rfl

theorem count_put (s : Stacks) (item : TemplateId) (n : Nat) : (s.put item n).count item = n := by
  unfold put
  split
  · rw [count_erase, ‹n = 0›]
  · exact count_insert s item n

theorem count_put_of_ne {k : TemplateId} (h : k ≠ item) (s : Stacks) (n : Nat) :
    (s.put item n).count k = s.count k := by
  unfold put
  split
  · rw [count, SortedMap.get?_erase, if_neg h]
    rfl
  · rw [count, SortedMap.get?_insert, if_neg h]
    rfl

end Stacks

namespace World

inductive Change where
  | setRoomFlag (room : RoomId) (flag : String) (value : Json)
  | openExit (room : RoomId) (d : Direction) (target : RoomId)
  | closeExit (room : RoomId) (d : Direction)
  | setDescription (room : RoomId) (text : String)
  | resetDescription (room : RoomId)
  | addRoomItems (room : RoomId) (item : TemplateId) (quantity : Nat)
  | removeRoomItems (room : RoomId) (item : TemplateId) (quantity : Nat)
  | spawnNpc (room : RoomId) (template : TemplateId)
  | despawnNpc (room : RoomId) (template : TemplateId)
  | moveNpc (template : TemplateId) (source target : RoomId)
  | moveActor (actor : ActorId) (room : RoomId)
  | adjustHealth (actor : ActorId) (delta : Int)
  | addEffect (actor : ActorId) (effect : String)
  | removeEffect (actor : ActorId) (effect : String)
  | giveItem (actor : ActorId) (item : TemplateId) (quantity : Nat)
  | takeItem (actor : ActorId) (item : TemplateId) (quantity : Nat)
  | addExperience (actor : ActorId) (amount : Nat)

namespace Change

def apply (w : World) : Change → Except WorldError World
  | setRoomFlag room flag value => w.setRoomFlag room flag value
  | openExit room d target => (w.openExit room d target).map (·.2)
  | closeExit room d => (w.closeExit room d).map (·.2)
  | setDescription room text => w.setDescription room text
  | resetDescription room => w.resetDescription room
  | addRoomItems room item quantity => w.addRoomItems room item quantity
  | removeRoomItems room item quantity => (w.removeRoomItems room item quantity).map (·.2)
  | spawnNpc room template => w.spawnNpc room template
  | despawnNpc room template => w.despawnNpc room template
  | moveNpc template source target => w.moveNpc template source target
  | moveActor actor room => (w.moveActor actor room).map (·.2)
  | adjustHealth actor delta => (w.adjustHealth actor delta).map (·.2)
  | addEffect actor effect => (w.addEffect actor effect).map (·.2)
  | removeEffect actor effect => (w.removeEffect actor effect).map (·.2)
  | giveItem actor item quantity => w.giveItem actor item quantity
  | takeItem actor item quantity => w.takeItem actor item quantity
  | addExperience actor amount => w.addExperience actor amount

def attempt (w : World) (c : Change) : World := ((apply w c).toOption).getD w

end Change

def afterChanges (w : World) (cs : List Change) : World := cs.foldl Change.attempt w

end World

namespace Room

structure Becomes (w : World) (r r' : Room) : Prop where
  id : r'.id = r.id
  exits : ∀ d target, r'.exits.get? d = some target →
    r.exits.get? d = some target ∨ w.rooms.contains target = true
  items : r.items.Fits → r'.items.Fits

section Becomes

variable {w : World} {r r' : Room} {template item : TemplateId} {quantity : Nat}

theorem becomes_of_same (hid : r'.id = r.id) (hexits : r'.exits = r.exits) (hitems : r'.items = r.items) :
    r.Becomes w r' :=
  ⟨hid, fun d target h => .inl (by rwa [hexits] at h), fun h => by rwa [hitems]⟩

theorem becomes_openExit (r : Room) (d : Direction) {target : RoomId}
    (h : w.rooms.contains target = true) : r.Becomes w (r.openExit d target).2 := by
  unfold openExit
  split
  · exact becomes_of_same rfl rfl rfl
  · refine ⟨rfl, fun k room hk => ?_, fun h => h⟩
    rw [SortedMap.get?_insert] at hk
    split at hk
    · cases hk
      exact .inr h
    · exact .inl hk

theorem becomes_closeExit (w : World) (r : Room) (d : Direction) : r.Becomes w (r.closeExit d).2 := by
  unfold closeExit
  split
  · refine ⟨rfl, fun k room hk => ?_, fun h => h⟩
    rw [SortedMap.get?_erase] at hk
    split at hk
    · cases hk
    · exact .inl hk
  · exact becomes_of_same rfl rfl rfl

theorem takeNpc_eq_ok : r.takeNpc template = .ok r' ↔ ∃ n, r.npcs.count template = n + 1 ∧
    r' = { r with npcs := r.npcs.put template n } := by
  unfold takeNpc
  cases r.npcs.count template <;> simp [eq_comm]

theorem becomes_takeNpc (h : r.takeNpc template = .ok r') : r.Becomes w r' := by
  obtain ⟨n, -, rfl⟩ := takeNpc_eq_ok.mp h
  exact becomes_of_same rfl rfl rfl

theorem addItems_eq_ok : r.addItems item quantity = .ok r' ↔
    ∃ items, r.items.add item quantity = .ok items ∧ r' = { r with items } := by
  unfold addItems
  cases r.items.add item quantity <;> simp [Except.map, eq_comm]

theorem becomes_addItems (h : r.addItems item quantity = .ok r') : r.Becomes w r' := by
  obtain ⟨items, hadd, rfl⟩ := addItems_eq_ok.mp h
  exact ⟨rfl, fun d target h => .inl h, fun hfits => hfits.add hadd⟩

theorem count_addItems (h : r.addItems item quantity = .ok r') :
    r'.items.count item = r.items.count item + quantity := by
  obtain ⟨items, hadd, rfl⟩ := addItems_eq_ok.mp h
  obtain ⟨-, rfl⟩ := Stacks.add_eq_ok.mp hadd
  exact Stacks.count_insert _ _ _

theorem count_removeItems (r : Room) (item : TemplateId) (quantity : Nat) :
    (r.removeItems item quantity).2.items.count item + min quantity (r.items.count item) =
      r.items.count item := by
  unfold removeItems
  split
  · rename_i hnone
    have hcount : r.items.count item = 0 := by rw [Stacks.count, hnone]; rfl
    rw [hcount, Nat.min_zero]
  · rename_i held hheld
    have hcount : r.items.count item = held := by rw [Stacks.count, hheld]; rfl
    change Stacks.count (r.items.put item _) item + _ = _
    rw [Stacks.count_put, hcount]
    omega

theorem becomes_removeItems (w : World) (r : Room) (item : TemplateId) (quantity : Nat) :
    r.Becomes w (r.removeItems item quantity).2 := by
  unfold removeItems
  split
  · exact becomes_of_same rfl rfl rfl
  · rename_i held hheld
    refine ⟨rfl, fun d target h => .inl h, fun hfits => hfits.put ?_⟩
    exact (Nat.sub_le _ _).trans (hfits item held hheld)

end Becomes

end Room

namespace Actor

structure Becomes (w : World) (a a' : Actor) : Prop where
  id : a'.id = a.id
  room : ∀ room, a'.room = some room → a.room = some room ∨ w.rooms.contains room = true
  health : a.health ≤ a.maxHealth → a'.health ≤ a'.maxHealth
  maxHealth : a'.maxHealth = a.maxHealth
  level : a'.level = a.level
  experience : a.experience ≤ maxExperience → a'.experience ≤ maxExperience
  inventory : a.inventory.Fits → a'.inventory.Fits

section Becomes

variable {w : World} {a a' : Actor} {item : TemplateId} {quantity : Nat}

theorem health_adjustHealth (a : Actor) (delta : Int) :
    ((a.adjustHealth delta).2.health : Int) = max 0 (min (a.health + delta) a.maxHealth) :=
  Int.toNat_of_nonneg (le_max_left _ _)

theorem becomes_adjustHealth (w : World) (a : Actor) (delta : Int) :
    a.Becomes w (a.adjustHealth delta).2 := by
  refine ⟨rfl, fun _ => .inl, fun _ => ?_, rfl, rfl, fun h => h, fun h => h⟩
  have hhealth := health_adjustHealth a delta
  change (a.adjustHealth delta).2.health ≤ a.maxHealth
  omega

theorem give_eq_ok : a.give item quantity = .ok a' ↔
    ∃ inventory, a.inventory.add item quantity = .ok inventory ∧ a' = { a with inventory } := by
  unfold give
  cases a.inventory.add item quantity <;> simp [Except.map, eq_comm]

theorem becomes_give (h : a.give item quantity = .ok a') : a.Becomes w a' := by
  obtain ⟨inventory, hadd, rfl⟩ := give_eq_ok.mp h
  exact ⟨rfl, fun _ => .inl, fun h => h, rfl, rfl, fun h => h, fun hfits => hfits.add hadd⟩

theorem take_eq_ok (h : a.take item quantity = .ok a') : quantity ≤ a.inventory.count item ∧
    (a' = { a with inventory := a.inventory.erase item, equipped := a.equipped.erase item } ∧
        a.inventory.count item = quantity ∨
      a' = { a with inventory := a.inventory.insert item (a.inventory.count item - quantity) }) := by
  unfold take at h
  dsimp only at h
  split at h
  · cases h
  · rename_i hheld
    have hle := Nat.not_lt.mp hheld
    split at h <;> cases h
    · exact ⟨hle, .inl ⟨rfl, ‹_›⟩⟩
    · exact ⟨hle, .inr rfl⟩

theorem count_give (h : a.give item quantity = .ok a') :
    a'.inventory.count item = a.inventory.count item + quantity := by
  obtain ⟨inventory, hadd, rfl⟩ := give_eq_ok.mp h
  obtain ⟨-, rfl⟩ := Stacks.add_eq_ok.mp hadd
  exact Stacks.count_insert _ _ _

theorem count_take (h : a.take item quantity = .ok a') :
    a'.inventory.count item + quantity = a.inventory.count item := by
  obtain ⟨hle, ⟨rfl, hall⟩ | rfl⟩ := take_eq_ok h
  · change Stacks.count (a.inventory.erase item) item + quantity = _
    rw [Stacks.count_erase, hall, Nat.zero_add]
  · change Stacks.count (a.inventory.insert item _) item + quantity = _
    rw [Stacks.count_insert, Nat.sub_add_cancel hle]

theorem becomes_take (h : a.take item quantity = .ok a') : a.Becomes w a' := by
  obtain ⟨-, ⟨rfl, -⟩ | rfl⟩ := take_eq_ok h
  · exact ⟨rfl, fun _ => .inl, fun h => h, rfl, rfl, fun h => h, fun hfits => hfits.erase item⟩
  · refine ⟨rfl, fun _ => .inl, fun h => h, rfl, rfl, fun h => h, fun hfits => hfits.insert ?_⟩
    exact (Nat.sub_le _ _).trans (hfits.count_le item)

end Becomes

end Actor

namespace World

inductive Rewrite (w : World) : World → Prop where
  | room {room : RoomId} {r r' : Room} (hr : w.rooms.get? room = some r) (h : r.Becomes w r') :
      Rewrite w (w.putRoom room r')
  | actor {actor : ActorId} {a a' : Actor} (ha : w.actors.get? actor = some a) (h : a.Becomes w a') :
      Rewrite w (w.putActor actor a')

def Rewrites : World → World → Prop := Relation.ReflTransGen Rewrite

section Rewrites

variable {w w' : World} {room : RoomId} {actor : ActorId} {r r' : Room} {a a' : Actor}

theorem findRoom_eq_ok : w.findRoom room = .ok r ↔ w.rooms.get? room = some r := by
  unfold findRoom
  cases w.rooms.get? room <;> simp

theorem requireRoom_eq_ok {u : Unit} : w.requireRoom room = .ok u ↔ w.rooms.contains room = true := by
  unfold requireRoom
  cases w.rooms.contains room <;> simp

theorem rewrites_room (hr : w.findRoom room = .ok r) (h : r.Becomes w r') :
    Rewrites w (w.putRoom room r') := .single (.room (findRoom_eq_ok.mp hr) h)

theorem rewrites_actor (ha : w.findActor actor = .ok a) (h : a.Becomes w a') :
    Rewrites w (w.putActor actor a') := .single (.actor (findActor_eq_ok.mp ha) h)

theorem rewrites_spawnNpc {template : TemplateId} (h : w.spawnNpc room template = .ok w') :
    Rewrites w w' := by
  obtain ⟨r, hr, h⟩ := bind_eq_ok.mp h
  cases h
  exact rewrites_room hr (Room.becomes_of_same rfl rfl rfl)

theorem rewrites_despawnNpc {template : TemplateId} (h : w.despawnNpc room template = .ok w') :
    Rewrites w w' := by
  obtain ⟨r, hr, h⟩ := bind_eq_ok.mp h
  obtain ⟨r', htake, h⟩ := bind_eq_ok.mp h
  cases h
  exact rewrites_room hr (Room.becomes_takeNpc htake)

theorem rewrites_apply {c : Change} (h : c.apply w = .ok w') : Rewrites w w' := by
  cases c with
  | setRoomFlag room flag value =>
    obtain ⟨r, hr, h⟩ := bind_eq_ok.mp h
    cases h
    exact rewrites_room hr (Room.becomes_of_same rfl rfl rfl)
  | openExit room d target =>
    obtain ⟨⟨_, _⟩, hopen, rfl⟩ := map_eq_ok.mp h
    obtain ⟨_, htarget, h⟩ := bind_eq_ok.mp hopen
    obtain ⟨r, hr, h⟩ := bind_eq_ok.mp h
    cases h
    exact rewrites_room hr (Room.becomes_openExit r d (requireRoom_eq_ok.mp htarget))
  | closeExit room d =>
    obtain ⟨⟨_, _⟩, hmade, rfl⟩ := map_eq_ok.mp h
    obtain ⟨r, hr, h⟩ := bind_eq_ok.mp hmade
    cases h
    exact rewrites_room hr (Room.becomes_closeExit w r d)
  | setDescription room text =>
    obtain ⟨r, hr, h⟩ := bind_eq_ok.mp h
    cases h
    exact rewrites_room hr (Room.becomes_of_same rfl rfl rfl)
  | resetDescription room =>
    obtain ⟨r, hr, h⟩ := bind_eq_ok.mp h
    cases h
    exact rewrites_room hr (Room.becomes_of_same rfl rfl rfl)
  | addRoomItems room item quantity =>
    obtain ⟨r, hr, h⟩ := bind_eq_ok.mp h
    obtain ⟨r', hadd, h⟩ := bind_eq_ok.mp h
    cases h
    exact rewrites_room hr (Room.becomes_addItems hadd)
  | removeRoomItems room item quantity =>
    obtain ⟨⟨_, _⟩, hmade, rfl⟩ := map_eq_ok.mp h
    obtain ⟨r, hr, h⟩ := bind_eq_ok.mp hmade
    cases h
    exact rewrites_room hr (Room.becomes_removeItems w r item quantity)
  | spawnNpc room template => exact rewrites_spawnNpc h
  | despawnNpc room template => exact rewrites_despawnNpc h
  | moveNpc template source target =>
    obtain ⟨-, -, h⟩ := bind_eq_ok.mp h
    obtain ⟨mid, hmid, h⟩ := bind_eq_ok.mp h
    exact (rewrites_despawnNpc hmid).trans (rewrites_spawnNpc h)
  | moveActor actor room =>
    obtain ⟨⟨_, _⟩, hmove, rfl⟩ := map_eq_ok.mp h
    obtain ⟨_, hroom, h⟩ := bind_eq_ok.mp hmove
    obtain ⟨a, ha, h⟩ := bind_eq_ok.mp h
    cases h
    refine rewrites_actor ha ⟨rfl, fun k hk => .inr ?_, fun h => h, rfl, rfl, fun h => h, fun h => h⟩
    rw [← Option.some.inj hk]
    exact requireRoom_eq_ok.mp hroom
  | adjustHealth actor delta =>
    obtain ⟨⟨_, _⟩, hmade, rfl⟩ := map_eq_ok.mp h
    obtain ⟨a, ha, h⟩ := bind_eq_ok.mp hmade
    cases h
    exact rewrites_actor ha (Actor.becomes_adjustHealth w a delta)
  | addEffect actor effect =>
    obtain ⟨⟨_, _⟩, hmade, rfl⟩ := map_eq_ok.mp h
    obtain ⟨a, ha, h⟩ := bind_eq_ok.mp hmade
    cases h
    exact rewrites_actor ha ⟨rfl, fun _ => .inl, fun h => h, rfl, rfl, fun h => h, fun h => h⟩
  | removeEffect actor effect =>
    obtain ⟨⟨_, _⟩, hmade, rfl⟩ := map_eq_ok.mp h
    obtain ⟨a, ha, h⟩ := bind_eq_ok.mp hmade
    cases h
    exact rewrites_actor ha ⟨rfl, fun _ => .inl, fun h => h, rfl, rfl, fun h => h, fun h => h⟩
  | giveItem actor item quantity =>
    obtain ⟨a, ha, h⟩ := bind_eq_ok.mp h
    obtain ⟨a', hgive, h⟩ := bind_eq_ok.mp h
    cases h
    exact rewrites_actor ha (Actor.becomes_give hgive)
  | takeItem actor item quantity =>
    obtain ⟨a, ha, h⟩ := bind_eq_ok.mp h
    obtain ⟨a', htake, h⟩ := bind_eq_ok.mp h
    cases h
    exact rewrites_actor ha (Actor.becomes_take htake)
  | addExperience actor amount =>
    obtain ⟨a, ha, h⟩ := bind_eq_ok.mp h
    split at h
    · cases h
      exact rewrites_actor ha ⟨rfl, fun _ => .inl, fun h => h, rfl, rfl, fun _ => ‹_›, fun h => h⟩
    · cases h

theorem afterChanges_induct {motive : World → Prop} (cs : List Change)
    (hrewrite : ∀ w w', Rewrite w w' → motive w → motive w') (h : motive w) :
    motive (w.afterChanges cs) := by
  induction cs generalizing w with
  | nil => exact h
  | cons c cs ih =>
    refine ih ?_
    unfold Change.attempt
    cases happly : c.apply w with
    | error e => exact h
    | ok w' =>
      have hrewrites := rewrites_apply happly
      change motive w'
      clear happly
      induction hrewrites with
      | refl => exact h
      | tail _ hlast ih => exact hrewrite _ _ hlast ih

end Rewrites

structure SameBut (rooms : List RoomId) (actors : List ActorId) (w w' : World) : Prop where
  room : ∀ k ∉ rooms, w'.rooms.get? k = w.rooms.get? k
  actor : ∀ k ∉ actors, w'.actors.get? k = w.actors.get? k
  areas : w'.areas = w.areas
  templates : w'.templates = w.templates
  hour : w'.hour = w.hour

namespace Change

def rooms : Change → List RoomId
  | setRoomFlag room .. => [room]
  | openExit room .. => [room]
  | closeExit room .. => [room]
  | setDescription room .. => [room]
  | resetDescription room => [room]
  | addRoomItems room .. => [room]
  | removeRoomItems room .. => [room]
  | spawnNpc room .. => [room]
  | despawnNpc room .. => [room]
  | moveNpc _ source target => [source, target]
  | _ => []

def actors : Change → List ActorId
  | moveActor actor .. => [actor]
  | adjustHealth actor .. => [actor]
  | addEffect actor .. => [actor]
  | removeEffect actor .. => [actor]
  | giveItem actor .. => [actor]
  | takeItem actor .. => [actor]
  | addExperience actor .. => [actor]
  | _ => []

end Change

section SameBut

variable {w v w' : World} {rs rs' : List RoomId} {as as' : List ActorId}

theorem SameBut.refl (rs : List RoomId) (as : List ActorId) (w : World) : SameBut rs as w w :=
  ⟨fun _ _ => rfl, fun _ _ => rfl, rfl, rfl, rfl⟩

theorem SameBut.trans (h : SameBut rs as w v) (h' : SameBut rs' as' v w') :
    SameBut (rs ++ rs') (as ++ as') w w' where
  room k hk := (h'.room k fun hm => hk (List.mem_append_right _ hm)).trans
    (h.room k fun hm => hk (List.mem_append_left _ hm))
  actor k hk := (h'.actor k fun hm => hk (List.mem_append_right _ hm)).trans
    (h.actor k fun hm => hk (List.mem_append_left _ hm))
  areas := h'.areas.trans h.areas
  templates := h'.templates.trans h.templates
  hour := h'.hour.trans h.hour

theorem sameBut_putRoom (w : World) (room : RoomId) (r : Room) :
    SameBut [room] [] w (w.putRoom room r) where
  room k hk := by
    rw [putRoom, SortedMap.get?_insert, if_neg (by simpa using hk)]
  actor _ _ := rfl
  areas := rfl
  templates := rfl
  hour := rfl

theorem sameBut_putActor (w : World) (actor : ActorId) (a : Actor) :
    SameBut [] [actor] w (w.putActor actor a) where
  room _ _ := rfl
  actor k hk := by
    rw [putActor, SortedMap.get?_insert, if_neg (by simpa using hk)]
  areas := rfl
  templates := rfl
  hour := rfl

theorem sameBut_spawnNpc {room : RoomId} {template : TemplateId} (h : w.spawnNpc room template = .ok w') :
    SameBut [room] [] w w' := by
  obtain ⟨r, -, h⟩ := bind_eq_ok.mp h
  cases h
  exact sameBut_putRoom ..

theorem sameBut_despawnNpc {room : RoomId} {template : TemplateId}
    (h : w.despawnNpc room template = .ok w') : SameBut [room] [] w w' := by
  obtain ⟨r, -, h⟩ := bind_eq_ok.mp h
  obtain ⟨r', -, h⟩ := bind_eq_ok.mp h
  cases h
  exact sameBut_putRoom ..

theorem sameBut_apply {c : Change} (h : c.apply w = .ok w') : SameBut c.rooms c.actors w w' := by
  cases c with
  | setRoomFlag =>
    obtain ⟨r, -, h⟩ := bind_eq_ok.mp h
    cases h
    exact sameBut_putRoom ..
  | openExit =>
    obtain ⟨⟨_, _⟩, hmade, rfl⟩ := map_eq_ok.mp h
    obtain ⟨-, -, h⟩ := bind_eq_ok.mp hmade
    obtain ⟨r, -, h⟩ := bind_eq_ok.mp h
    cases h
    exact sameBut_putRoom ..
  | closeExit =>
    obtain ⟨⟨_, _⟩, hmade, rfl⟩ := map_eq_ok.mp h
    obtain ⟨r, -, h⟩ := bind_eq_ok.mp hmade
    cases h
    exact sameBut_putRoom ..
  | setDescription =>
    obtain ⟨r, -, h⟩ := bind_eq_ok.mp h
    cases h
    exact sameBut_putRoom ..
  | resetDescription =>
    obtain ⟨r, -, h⟩ := bind_eq_ok.mp h
    cases h
    exact sameBut_putRoom ..
  | addRoomItems =>
    obtain ⟨r, -, h⟩ := bind_eq_ok.mp h
    obtain ⟨r', -, h⟩ := bind_eq_ok.mp h
    cases h
    exact sameBut_putRoom ..
  | removeRoomItems =>
    obtain ⟨⟨_, _⟩, hmade, rfl⟩ := map_eq_ok.mp h
    obtain ⟨r, -, h⟩ := bind_eq_ok.mp hmade
    cases h
    exact sameBut_putRoom ..
  | spawnNpc => exact sameBut_spawnNpc h
  | despawnNpc => exact sameBut_despawnNpc h
  | moveNpc =>
    obtain ⟨-, -, h⟩ := bind_eq_ok.mp h
    obtain ⟨mid, hmid, h⟩ := bind_eq_ok.mp h
    exact (sameBut_despawnNpc hmid).trans (sameBut_spawnNpc h)
  | moveActor =>
    obtain ⟨⟨_, _⟩, hmade, rfl⟩ := map_eq_ok.mp h
    obtain ⟨-, -, h⟩ := bind_eq_ok.mp hmade
    obtain ⟨a, -, h⟩ := bind_eq_ok.mp h
    cases h
    exact sameBut_putActor ..
  | adjustHealth =>
    obtain ⟨⟨_, _⟩, hmade, rfl⟩ := map_eq_ok.mp h
    obtain ⟨a, -, h⟩ := bind_eq_ok.mp hmade
    cases h
    exact sameBut_putActor ..
  | addEffect =>
    obtain ⟨⟨_, _⟩, hmade, rfl⟩ := map_eq_ok.mp h
    obtain ⟨a, -, h⟩ := bind_eq_ok.mp hmade
    cases h
    exact sameBut_putActor ..
  | removeEffect =>
    obtain ⟨⟨_, _⟩, hmade, rfl⟩ := map_eq_ok.mp h
    obtain ⟨a, -, h⟩ := bind_eq_ok.mp hmade
    cases h
    exact sameBut_putActor ..
  | giveItem =>
    obtain ⟨a, -, h⟩ := bind_eq_ok.mp h
    obtain ⟨a', -, h⟩ := bind_eq_ok.mp h
    cases h
    exact sameBut_putActor ..
  | takeItem =>
    obtain ⟨a, -, h⟩ := bind_eq_ok.mp h
    obtain ⟨a', -, h⟩ := bind_eq_ok.mp h
    cases h
    exact sameBut_putActor ..
  | addExperience =>
    obtain ⟨a, -, h⟩ := bind_eq_ok.mp h
    split at h <;> cases h
    exact sameBut_putActor ..

end SameBut

end World

end WorldTriggers
