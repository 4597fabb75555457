import WorldTriggers.Proofs.World.Change
import WorldTriggers.World.Fixture

namespace WorldTriggers

section Fits

structure Actor.Fits (a : Actor) : Prop where
  health : a.health ≤ a.maxHealth
  maxHealth : a.maxHealth ≤ Width.maxNat 32
  level : a.level ≤ Width.maxNat 32
  experience : a.experience ≤ maxExperience
  inventory : a.inventory.Fits

structure World.Fits (w : World) : Prop where
  rooms : ∀ room r, w.rooms.get? room = some r → r.items.Fits
  actors : ∀ actor a, w.actors.get? actor = some a → a.Fits

structure WorldFixture.Fits (f : WorldFixture) : Prop where
  items : ∀ x ∈ f.rooms, x.items.Fits
  maxHealth : ∀ x ∈ f.actors, x.maxHealth ≤ Width.maxNat 32
  level : ∀ x ∈ f.actors, x.level ≤ Width.maxNat 32
  inventory : ∀ x ∈ f.actors, x.inventory.Fits

theorem Actor.Becomes.fits {w : World} {a a' : Actor} (h : a.Becomes w a') (hfits : a.Fits) : a'.Fits where
  health := h.health hfits.health
  maxHealth := h.maxHealth ▸ hfits.maxHealth
  level := h.level ▸ hfits.level
  experience := h.experience hfits.experience
  inventory := h.inventory hfits.inventory

theorem ActorFixture.fits_build {x : ActorFixture} (hmax : x.maxHealth ≤ Width.maxNat 32)
    (hlevel : x.level ≤ Width.maxNat 32) (hinventory : x.inventory.Fits) : x.build.Fits where
  health := min_le_right _ _
  maxHealth := max_le hmax (by decide)
  level := hlevel
  experience := Nat.zero_le _
  inventory := hinventory

end Fits

section Build

theorem Room.foldl_addNpc (npcs : List TemplateId) (r : Room) :
    ∃ ns, npcs.foldl Room.addNpc r = { r with npcs := ns } := by
  induction npcs generalizing r with
  | nil => exact ⟨r.npcs, rfl⟩
  | cons npc npcs ih =>
    obtain ⟨ns, h⟩ := ih (r.addNpc npc)
    exact ⟨ns, h⟩

theorem RoomFixture.build_eq (x : RoomFixture) :
    x.build.id = x.id ∧ x.build.exits = x.exits ∧ x.build.items = x.items := by
  obtain ⟨ns, h⟩ := Room.foldl_addNpc x.npcs
    { id := x.id, name := x.name, area := x.area, description := x.description, exits := x.exits,
      flags := x.flags, items := x.items }
  unfold build
  rw [h]
  exact ⟨rfl, rfl, rfl⟩

namespace World

variable {w w' : World}

theorem addRoom_eq_ok {r : Room} : w.addRoom r = .ok w' ↔
    w.rooms.contains r.id = false ∧ w' = { w with rooms := w.rooms.insert r.id r } := by
  unfold addRoom
  cases w.rooms.contains r.id <;> simp [eq_comm]

theorem addActor_eq_ok {a : Actor} (h : w.addActor a = .ok w') : w.actors.contains a.id = false ∧
    (∀ room, a.room = some room → w.rooms.contains room = true) ∧
      w' = { w with actors := w.actors.insert a.id a } := by
  unfold addActor at h
  split at h
  · cases h
  · rename_i hnew
    split at h
    · cases h
    · rename_i hroom
      cases h
      refine ⟨by simpa using hnew, fun room hr => ?_, rfl⟩
      simpa [hr, Option.filter] using hroom

theorem rooms_of_addRooms {xs : List RoomFixture}
    (h : xs.foldlM (fun w x => w.addRoom x.build) w = .ok w') : w' = { w with rooms := w'.rooms } ∧
      ∀ room r, w'.rooms.get? room = some r ↔
        w.rooms.get? room = some r ∨ ∃ x ∈ xs, x.id = room ∧ r = x.build := by
  induction xs generalizing w with
  | nil =>
    cases h
    simp
  | cons x xs ih =>
    rw [List.foldlM_cons] at h
    obtain ⟨mid, hadd, h⟩ := bind_eq_ok.mp h
    obtain ⟨hnew, rfl⟩ := addRoom_eq_ok.mp hadd
    obtain ⟨hw, hrooms⟩ := ih h
    refine ⟨hw, fun room r => ?_⟩
    rw [hrooms, SortedMap.get?_insert_of_new hnew, (RoomFixture.build_eq x).1]
    simp [or_assoc]

theorem actors_of_addActors {xs : List ActorFixture}
    (h : xs.foldlM (fun w x => w.addActor x.build) w = .ok w') : w' = { w with actors := w'.actors } ∧
      (∀ x ∈ xs, ∀ room, x.room = some room → w.rooms.contains room = true) ∧
      ∀ actor a, w'.actors.get? actor = some a ↔
        w.actors.get? actor = some a ∨ ∃ x ∈ xs, x.id = actor ∧ a = x.build := by
  induction xs generalizing w with
  | nil =>
    cases h
    simp
  | cons x xs ih =>
    rw [List.foldlM_cons] at h
    obtain ⟨mid, hadd, h⟩ := bind_eq_ok.mp h
    obtain ⟨hnew, hroom, rfl⟩ := addActor_eq_ok hadd
    obtain ⟨hw, hstand, hactors⟩ := ih h
    refine ⟨hw, List.forall_mem_cons.mpr ⟨hroom, hstand⟩, fun actor a => ?_⟩
    rw [hactors, SortedMap.get?_insert_of_new hnew]
    change ((_ ∨ x.id = actor ∧ _) ∨ _) ↔ _
    simp [or_assoc]

theorem areas_of_addAreas (areas : List (AreaId × String)) (w : World) :
    areas.foldl (fun w (id, name) => w.addArea id name) w =
        { w with areas := (areas.foldl (fun w (id, name) => w.addArea id name) w).areas } ∧
      ∀ area, (areas.foldl (fun w (id, name) => w.addArea id name) w).areas.contains area = true ↔
        w.areas.contains area = true ∨ area ∈ areas.map (·.1) := by
  induction areas generalizing w with
  | nil => simp
  | cons x areas ih =>
    obtain ⟨hw, hareas⟩ := ih (w.addArea x.1 x.2)
    refine ⟨hw, fun area => ?_⟩
    rw [List.foldl_cons, hareas]
    by_cases hx : area = x.1 <;> simp [addArea, SortedMap.contains, SortedMap.get?_insert, hx]

theorem validateExits_eq_ok {u : Unit} (h : w.validateExits = .ok u) {room target : RoomId} {r : Room}
    {d : Direction} (hr : w.rooms.get? room = some r) (hd : r.exits.get? d = some target) :
    w.rooms.contains target = true := by
  have hnone : w.danglingExit? = none := by
    unfold validateExits at h
    split at h
    · cases h
    · assumption
  have hexits := List.findSome?_eq_none_iff.mp hnone (room, r) (SortedMap.get?_eq_some_iff.mp hr)
  have hexit := List.findSome?_eq_none_iff.mp hexits (d, target) (SortedMap.get?_eq_some_iff.mp hd)
  dsimp only at hexit
  split at hexit
  · assumption
  · cases hexit

end World

end Build

namespace World

variable {f : WorldFixture} {w w' : World}

structure Consistent (f : WorldFixture) (w : World) : Prop where
  exits : ∀ room r d target, w.rooms.get? room = some r → r.exits.get? d = some target →
    w.rooms.contains target = true
  standing : ∀ actor a room, w.actors.get? actor = some a → a.room = some room →
    w.rooms.contains room = true
  health : ∀ actor a, w.actors.get? actor = some a → a.health ≤ a.maxHealth ∧ 1 ≤ a.maxHealth
  roomIds : ∀ room r, w.rooms.get? room = some r → r.id = room
  actorIds : ∀ actor a, w.actors.get? actor = some a → a.id = actor
  rooms : ∀ room, w.rooms.contains room = true ↔ room ∈ f.rooms.map (·.id)
  actors : ∀ actor, w.actors.contains actor = true ↔ actor ∈ f.actors.map (·.id)
  areas : ∀ area, w.areas.contains area = true ↔ area ∈ f.areas.map (·.1)
  templates : w.templates = f.templates
  hour : w.hour < 24

section Build

structure Built (f : WorldFixture) (w : World) : Prop where
  rooms : ∀ room r, w.rooms.get? room = some r ↔ ∃ x ∈ f.rooms, x.id = room ∧ r = x.build
  actors : ∀ actor a, w.actors.get? actor = some a ↔ ∃ x ∈ f.actors, x.id = actor ∧ a = x.build
  exits : ∀ room r d target, w.rooms.get? room = some r → r.exits.get? d = some target →
    w.rooms.contains target = true
  standing : ∀ x ∈ f.actors, ∀ room, x.room = some room → w.rooms.contains room = true
  areas : ∀ area, w.areas.contains area = true ↔ area ∈ f.areas.map (·.1)
  templates : w.templates = f.templates
  hour : w.hour < 24

theorem built_of_build (h : f.build = .ok w) : Built f w := by
  obtain ⟨hareas, hcontains⟩ := areas_of_addAreas f.areas (setHour {} f.hour)
  unfold WorldFixture.build at h
  dsimp only at h
  obtain ⟨mid, hrooms, h⟩ := bind_eq_ok.mp h
  obtain ⟨_, hexits, h⟩ := bind_eq_ok.mp h
  obtain ⟨hmid, hrooms⟩ := rooms_of_addRooms hrooms
  obtain ⟨hw, hstanding, hactors⟩ := actors_of_addActors h
  rw [hw, hmid, hareas]
  rw [hmid, hareas] at hactors
  refine ⟨fun room r => ?_, fun actor a => ?_, fun room r d target hr hd => ?_, hstanding,
    fun area => ?_, rfl, Nat.mod_lt _ (by decide)⟩
  · rw [hrooms, hareas]
    simp [setHour]
  · rw [hactors]
    simp [setHour]
  · exact validateExits_eq_ok hexits hr hd
  · rw [hcontains]
    simp [setHour, SortedMap.contains]

theorem Built.consistent (h : Built f w) : w.Consistent f where
  exits := h.exits
  standing actor a room ha hroom := by
    obtain ⟨x, hx, -, rfl⟩ := (h.actors actor a).mp ha
    exact h.standing x hx room hroom
  health actor a ha := by
    obtain ⟨x, -, -, rfl⟩ := (h.actors actor a).mp ha
    exact ⟨min_le_right _ _, le_max_right _ _⟩
  roomIds room r hr := by
    obtain ⟨x, -, hid, rfl⟩ := (h.rooms room r).mp hr
    rw [(RoomFixture.build_eq x).1, hid]
  actorIds actor a ha := by
    obtain ⟨x, -, hid, rfl⟩ := (h.actors actor a).mp ha
    exact hid
  rooms room := by
    simp [SortedMap.contains_eq_true_iff, h.rooms]
  actors actor := by
    simp [SortedMap.contains_eq_true_iff, h.actors]
  areas := h.areas
  templates := h.templates
  hour := h.hour

theorem Built.fits (h : Built f w) (hfits : f.Fits) : w.Fits where
  rooms room r hr := by
    obtain ⟨x, hx, -, rfl⟩ := (h.rooms room r).mp hr
    rw [(RoomFixture.build_eq x).2.2]
    exact hfits.items x hx
  actors actor a ha := by
    obtain ⟨x, hx, -, rfl⟩ := (h.actors actor a).mp ha
    exact ActorFixture.fits_build (hfits.maxHealth x hx) (hfits.level x hx) (hfits.inventory x hx)

end Build

section Rewrite

theorem Consistent.putRoom {room : RoomId} {r r' : Room} (h : w.Consistent f)
    (hr : w.rooms.get? room = some r) (hr' : r.Becomes w r') : (w.putRoom room r').Consistent f := by
  have hcontains := SortedMap.contains_insert_of_get? hr r'
  refine { h with
    exits := fun k s d target hs hd => (hcontains target).trans ?_
    standing := fun actor a k ha hk => (hcontains k).trans (h.standing actor a k ha hk)
    roomIds := fun k s hs => ?_
    rooms := fun k => (Bool.eq_iff_iff.mp (hcontains k)).trans (h.rooms k) }
  · refine SortedMap.of_get?_insert
      (p := fun _ s => s.exits.get? d = some target → w.rooms.contains target = true) hs (fun hd => ?_)
      (fun k s hs hd => h.exits k s d target hs hd) hd
    exact (hr'.exits d target hd).elim (h.exits room r d target hr) fun htarget => htarget
  · exact SortedMap.of_get?_insert (p := fun k s => s.id = k) hs (hr'.id.trans (h.roomIds room r hr))
      h.roomIds

theorem Consistent.putActor {actor : ActorId} {a a' : Actor} (h : w.Consistent f)
    (ha : w.actors.get? actor = some a) (ha' : a.Becomes w a') : (w.putActor actor a').Consistent f := by
  have hcontains := SortedMap.contains_insert_of_get? ha a'
  refine { h with
    standing := fun k b room hb hroom => ?_
    health := fun k b hb => ?_
    actorIds := fun k b hb => ?_
    actors := fun k => (Bool.eq_iff_iff.mp (hcontains k)).trans (h.actors k) }
  · refine SortedMap.of_get?_insert
      (p := fun _ b => b.room = some room → w.rooms.contains room = true) hb (fun hroom => ?_)
      (fun k b hb hroom => h.standing k b room hb hroom) hroom
    exact (ha'.room room hroom).elim (h.standing actor a room ha) fun hroom => hroom
  · obtain ⟨hhealth, hmax⟩ := h.health actor a ha
    exact SortedMap.of_get?_insert (p := fun _ b => b.health ≤ b.maxHealth ∧ 1 ≤ b.maxHealth) hb
      ⟨ha'.health hhealth, ha'.maxHealth ▸ hmax⟩ h.health
  · exact SortedMap.of_get?_insert (p := fun k b => b.id = k) hb (ha'.id.trans (h.actorIds actor a ha))
      h.actorIds

theorem Consistent.rewrite (h : w.Consistent f) (hw : Rewrite w w') : w'.Consistent f := by
  cases hw with
  | room hr hr' => exact h.putRoom hr hr'
  | actor ha ha' => exact h.putActor ha ha'

theorem Fits.rewrite (h : w.Fits) (hw : Rewrite w w') : w'.Fits := by
  cases hw with
  | @room room r r' hr hr' =>
    have hnew := hr'.items (h.rooms room r hr)
    refine { h with rooms := fun k s hs => ?_ }
    exact SortedMap.of_get?_insert (p := fun _ s => s.items.Fits) hs hnew h.rooms
  | @actor actor a a' ha ha' =>
    have hnew := ha'.fits (h.actors actor a ha)
    refine { h with actors := fun k b hb => ?_ }
    exact SortedMap.of_get?_insert (p := fun _ b => b.Fits) hb hnew h.actors

end Rewrite

section Exact

def Change.Exact (w w' : World) : Change → Prop
  | .addRoomItems room item quantity =>
    w'.roomItemCount room item = w.roomItemCount room item + quantity
  | .removeRoomItems room item quantity =>
    w'.roomItemCount room item + min quantity (w.roomItemCount room item) = w.roomItemCount room item
  | .adjustHealth actor delta => ∃ a a', w.actors.get? actor = some a ∧ w'.actors.get? actor = some a' ∧
    (a'.health : Int) = max 0 (min (a.health + delta) a.maxHealth)
  | .giveItem actor item quantity =>
    w'.actorItemCount actor item = w.actorItemCount actor item + quantity
  | .takeItem actor item quantity =>
    w'.actorItemCount actor item + quantity = w.actorItemCount actor item
  | .addExperience actor amount => ∃ a a', w.actors.get? actor = some a ∧ w'.actors.get? actor = some a' ∧
    a'.experience = a.experience + amount
  | _ => True

variable {room : RoomId} {actor : ActorId} {r : Room} {a : Actor}

theorem roomItemCount_of_get? (h : w.rooms.get? room = some r) (item : TemplateId) :
    w.roomItemCount room item = r.items.count item := by
  rw [roomItemCount, h]

theorem roomItemCount_putRoom (w : World) (room : RoomId) (r : Room) (item : TemplateId) :
    (w.putRoom room r).roomItemCount room item = r.items.count item :=
  roomItemCount_of_get? (SortedMap.get?_insert_self _ _ _) item

theorem actorItemCount_of_get? (h : w.actors.get? actor = some a) (item : TemplateId) :
    w.actorItemCount actor item = a.inventory.count item := by
  rw [actorItemCount, h]

theorem actorItemCount_putActor (w : World) (actor : ActorId) (a : Actor) (item : TemplateId) :
    (w.putActor actor a).actorItemCount actor item = a.inventory.count item :=
  actorItemCount_of_get? (SortedMap.get?_insert_self _ _ _) item

theorem exact_apply {c : Change} (h : c.apply w = .ok w') : c.Exact w w' := by
  cases c with
  | addRoomItems room item quantity =>
    obtain ⟨r, hr, h⟩ := bind_eq_ok.mp h
    obtain ⟨r', hadd, h⟩ := bind_eq_ok.mp h
    cases h
    change roomItemCount _ _ _ = _
    rw [roomItemCount_putRoom, roomItemCount_of_get? (findRoom_eq_ok.mp hr), Room.count_addItems hadd]
  | removeRoomItems room item quantity =>
    obtain ⟨⟨_, _⟩, hmade, rfl⟩ := map_eq_ok.mp h
    obtain ⟨r, hr, h⟩ := bind_eq_ok.mp hmade
    cases h
    change roomItemCount _ _ _ + _ = _
    rw [roomItemCount_putRoom, roomItemCount_of_get? (findRoom_eq_ok.mp hr)]
    exact r.count_removeItems item quantity
  | adjustHealth actor delta =>
    obtain ⟨⟨_, _⟩, hmade, rfl⟩ := map_eq_ok.mp h
    obtain ⟨a, ha, h⟩ := bind_eq_ok.mp hmade
    cases h
    exact ⟨a, _, findActor_eq_ok.mp ha, SortedMap.get?_insert_self _ _ _, a.health_adjustHealth delta⟩
  | giveItem actor item quantity =>
    obtain ⟨a, ha, h⟩ := bind_eq_ok.mp h
    obtain ⟨a', hgive, h⟩ := bind_eq_ok.mp h
    cases h
    change actorItemCount _ _ _ = _
    rw [actorItemCount_putActor, actorItemCount_of_get? (findActor_eq_ok.mp ha), Actor.count_give hgive]
  | takeItem actor item quantity =>
    obtain ⟨a, ha, h⟩ := bind_eq_ok.mp h
    obtain ⟨a', htake, h⟩ := bind_eq_ok.mp h
    cases h
    change actorItemCount _ _ _ + _ = _
    rw [actorItemCount_putActor, actorItemCount_of_get? (findActor_eq_ok.mp ha), Actor.count_take htake]
  | addExperience actor amount =>
    obtain ⟨a, ha, h⟩ := bind_eq_ok.mp h
    split at h
    · cases h
      exact ⟨a, _, findActor_eq_ok.mp ha, SortedMap.get?_insert_self _ _ _, rfl⟩
    · cases h
  | _ => trivial

theorem adjustHealth_of_get? (hfits : w.Fits) (ha : w.actors.get? actor = some a) (delta : Int) :
    ∃ change a', w.adjustHealth actor delta = .ok (change, w.putActor actor a') ∧
      change = (a'.health : Int) - a.health ∧
      (a'.health : Int) = max 0 (min (a.health + delta) a.maxHealth) ∧
      (a'.health : Int) = max 0 (min (Width.hold 64 (a.health + delta)) a.maxHealth) ∧
      Width.hold 64 change = change := by
  have hhealth := a.health_adjustHealth delta
  have hle := (hfits.actors actor a ha).health
  have hmax := (hfits.actors actor a ha).maxHealth
  have hmax' : a.maxHealth ≤ 4294967295 := hmax
  have hhold (n : Int) : Width.hold 64 n = max (-9223372036854775808) (min n 9223372036854775807) := rfl
  refine ⟨(a.adjustHealth delta).1, (a.adjustHealth delta).2, ?_, ?_, hhealth, ?_, ?_⟩
  · unfold World.adjustHealth
    rw [findActor_eq_ok.mpr ha]
    rfl
  · rw [hhealth]
    rfl
  · rw [hhealth, hhold]
    omega
  · rw [hhold]
    change max _ (min (max 0 (min ((a.health : Int) + delta) a.maxHealth) - (a.health : Int)) _) =
      max 0 (min ((a.health : Int) + delta) a.maxHealth) - (a.health : Int)
    omega

end Exact

theorem consistent_of_build (hfits : f.Fits) (hbuild : f.build = .ok w) (cs : List Change) :
    (w.afterChanges cs).Consistent f ∧ (w.afterChanges cs).Fits ∧
      (∀ (c : Change) (v : World), c.apply (w.afterChanges cs) = .ok v → c.Exact (w.afterChanges cs) v) ∧
      ∀ actor a, (w.afterChanges cs).actors.get? actor = some a → ∀ delta : Int,
        ∃ change a', (w.afterChanges cs).adjustHealth actor delta =
            .ok (change, (w.afterChanges cs).putActor actor a') ∧
          change = (a'.health : Int) - a.health ∧
          (a'.health : Int) = max 0 (min (a.health + delta) a.maxHealth) ∧
          (a'.health : Int) = max 0 (min (Width.hold 64 (a.health + delta)) a.maxHealth) ∧
          Width.hold 64 change = change := by
  have hbuilt := built_of_build hbuild
  have hafter := afterChanges_induct (motive := fun v => v.Consistent f ∧ v.Fits) cs
    (fun _ _ hrewrite h => ⟨h.1.rewrite hrewrite, h.2.rewrite hrewrite⟩)
    ⟨hbuilt.consistent, hbuilt.fits hfits⟩
  exact ⟨hafter.1, hafter.2, fun c v => exact_apply, fun actor a ha => adjustHealth_of_get? hafter.2 ha⟩

def stairs : WorldFixture where
  hour := 30
  areas := [("keep", "The Keep")]
  templates := .ofList [("torch", "a torch")]
  rooms := [
    { id := "hall", name := "Hall", area := some "keep", description := "", flags := .empty
      exits := .ofList [(.down, "cellar")], items := .ofList [("torch", 4294967290)], npcs := ["rat"] },
    { id := "cellar", name := "Cellar", area := none, description := "", flags := .empty
      exits := .ofList [(.up, "hall")], items := .empty, npcs := [] }]
  actors := [
    { id := "alice", name := "Alice", room := some "hall", health := 250, maxHealth := 120, level := 1
      inventory := .ofList [("torch", 2)], equipped := ["torch"], effects := [], inCombat := false }]

def upheaval : List Change :=
  [.openExit "hall" .north "tower", .closeExit "hall" .down, .addRoomItems "hall" "torch" 9,
    .addRoomItems "hall" "torch" 5, .moveNpc "rat" "hall" "cellar", .moveActor "alice" "tower",
    .moveActor "alice" "cellar", .adjustHealth "alice" (-9223372036854775808), .takeItem "alice" "torch" 2,
    .addExperience "alice" 18446744073709551615]

theorem fits_stairs : stairs.Fits := by
  constructor <;> decide +kernel

theorem consistent_stairs : ∃ w, stairs.build = .ok w ∧ (w.afterChanges upheaval).Consistent stairs ∧
    (w.afterChanges upheaval).roomItemCount "hall" "torch" = 4294967295 ∧
    (w.afterChanges upheaval).npcCount "cellar" "rat" = 1 ∧
    (w.afterChanges upheaval).actorRoom? "alice" = some "cellar" ∧
    ∃ change v, (w.afterChanges upheaval).adjustHealth "alice" 9223372036854775807 = .ok (change, v) ∧
      change = 120 := by
  have hafter : (stairs.build.map fun w =>
      ((w.afterChanges upheaval).roomItemCount "hall" "torch",
        (w.afterChanges upheaval).npcCount "cellar" "rat",
        (w.afterChanges upheaval).actorRoom? "alice",
        (w.afterChanges upheaval).actorHealth? "alice")) =
      .ok (4294967295, 1, some "cellar", some (0, 120)) := by decide +kernel
  obtain ⟨w, hbuild, hw⟩ := map_eq_ok.mp hafter
  simp only [Prod.mk.injEq] at hw
  obtain ⟨htorches, hrats, hroom, hhealth⟩ := hw
  obtain ⟨hconsistent, -, -, hadjust⟩ := consistent_of_build fits_stairs hbuild upheaval
  obtain ⟨a, ha, hbounds⟩ := Option.map_eq_some_iff.mp hhealth
  obtain ⟨change, a', hok, hchange, hnew, -⟩ := hadjust "alice" a ha 9223372036854775807
  refine ⟨w, hbuild, hconsistent, htorches, hrats, hroom, change, _, hok, ?_⟩
  obtain ⟨hold, hmax⟩ := Prod.mk.inj hbounds
  rw [hchange, hnew, hold, hmax]
  decide

end World

end WorldTriggers
