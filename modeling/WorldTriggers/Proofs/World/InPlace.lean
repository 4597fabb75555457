import WorldTriggers.Proofs.World.Change

/-!
The changes of a world made in place, one write after the other. A change that fails leaves behind what it
has written by then, and each change here leaves nothing: it comes to the same as a change of a copy that
is taken over if all goes well (`commit`).
-/

namespace WorldTriggers

namespace InPlace

variable {σ τ κ ε α β : Type}

/-- Changes a copy, and takes it over if that succeeds. -/
def commit (f : σ → Except ε (α × σ)) : EStateM ε σ α := fun s =>
  match f s with
  | .ok (a, s') => .ok a s'
  | .error e => .error e s

def consult (f : σ → Except ε α) : EStateM ε σ α := commit fun s => (f s).map (·, s)

def within (part : σ → τ) (put : τ → σ → σ) (m : EStateM ε τ α) : EStateM ε σ α := fun s =>
  match m (part s) with
  | .ok a t => .ok a (put t s)
  | .error e t => .error e (put t s)

def atKey [Ord κ] [Std.TransOrd κ] [Std.LawfulEqOrd κ] (k : κ) (missing : ε)
    (m : EStateM ε τ α) : EStateM ε (SortedMap κ τ) α := fun s =>
  match s.get? k with
  | none => .error missing s
  | some t =>
    match m t with
    | .ok a t => .ok a (s.insert k t)
    | .error e t => .error e (s.insert k t)

theorem commit_apply (f : σ → Except ε (α × σ)) (s : σ) : commit f s =
    match f s with
    | .ok (a, s') => .ok a s'
    | .error e => .error e s := rfl

theorem commit_congr {f g : σ → Except ε (α × σ)} {s : σ} (h : f s = g s) : commit f s = commit g s := by
  rw [commit_apply, commit_apply, h]

theorem commit_of_ok {f : σ → Except ε (α × σ)} {s s' : σ} {a : α} (h : f s = .ok (a, s')) :
    commit f s = .ok a s' := by
  rw [commit, h]

theorem commit_of_error {f : σ → Except ε (α × σ)} {s : σ} {e : ε} (h : f s = .error e) :
    commit f s = .error e s := by
  rw [commit, h]

theorem within_commit {part : σ → τ} {put : τ → σ → σ} (h : ∀ s, put (part s) s = s)
    (f : τ → Except ε (α × τ)) : within part put (commit f) =
      commit fun s => (f (part s)).map fun x => (x.1, put x.2 s) := by
  funext s
  unfold within
  cases hf : f (part s) with
  | error e =>
    rw [commit_of_error hf, commit_of_error (by rw [hf]; rfl)]
    exact congrArg _ (h s)
  | ok x => rw [commit_of_ok hf, commit_of_ok (by rw [hf]; rfl)]

theorem atKey_commit [Ord κ] [DecidableEq κ] [Std.TransOrd κ] [Std.LawfulEqOrd κ] (k : κ)
    (missing : ε) (f : τ → Except ε (α × τ)) : atKey k missing (commit f) = commit fun s =>
      match s.get? k with
      | none => .error missing
      | some t => (f t).map fun x => (x.1, s.insert k x.2) := by
  funext s
  rw [commit_apply]
  unfold atKey
  cases hs : s.get? k with
  | none => rfl
  | some t =>
    dsimp only
    cases hf : f t with
    | error e =>
      rw [commit_of_error hf]
      exact congrArg _ (SortedMap.insert_eq_self hs)
    | ok x =>
      rw [commit_of_ok hf]
      rfl

theorem within_atKey_commit [Ord κ] [DecidableEq κ] [Std.TransOrd κ] [Std.LawfulEqOrd κ]
    (find : σ → Except ε τ) {part : σ → SortedMap κ τ} {put : SortedMap κ τ → σ → σ} {k : κ} {missing : ε}
    (hput : ∀ s, put (part s) s = s)
    (hfind : ∀ s, find s = match (part s).get? k with
      | some t => .ok t
      | none => .error missing) (f : τ → Except ε (α × τ)) :
    within part put (atKey k missing (commit f)) = commit fun s =>
      find s >>= fun t => (f t).map fun x => (x.1, put ((part s).insert k x.2) s) := by
  rw [atKey_commit, within_commit hput]
  refine congrArg commit (funext fun s => ?_)
  rw [hfind]
  cases (part s).get? k with
  | none => rfl
  | some t =>
    change Except.map _ (Except.map _ (f t)) = Except.map _ (f t)
    cases f t <;> rfl

theorem commit_change (find : σ → Except ε τ) (put : σ → τ → σ) (f : τ → Except ε τ) :
    (commit fun s => find s >>= fun t => ((f t).map ((), ·)).map fun x => (x.1, put s x.2)) =
      commit fun s => (find s >>= fun t => f t >>= fun t => .ok (put s t)).map ((), ·) := by
  refine congrArg commit (funext fun s => ?_)
  cases find s with
  | error e => rfl
  | ok t =>
    change Except.map _ (Except.map _ (f t)) = Except.map _ (f t >>= _)
    cases f t <;> rfl

theorem consult_bind_of_ok (f : σ → Except ε α) (k : α → EStateM ε σ β) {s : σ} {a : α}
    (h : f s = .ok a) : (consult f >>= k) s = k a s := by
  change EStateM.bind (consult f) k s = _
  rw [EStateM.bind, consult, commit_of_ok (by rw [h]; rfl)]

theorem consult_bind_of_error (f : σ → Except ε α) (k : α → EStateM ε σ β) {s : σ} {e : ε}
    (h : f s = .error e) : (consult f >>= k) s = .error e s := by
  change EStateM.bind (consult f) k s = _
  rw [EStateM.bind, consult, commit_of_error (by rw [h]; rfl)]

theorem consult_bind_commit (f : σ → Except ε α) (g : α → σ → Except ε (β × σ)) :
    (consult f >>= fun a => commit (g a)) = commit fun s => f s >>= fun a => g a s := by
  funext s
  cases hf : f s with
  | error e => rw [consult_bind_of_error f _ hf, commit_of_error (by rw [hf]; rfl)]
  | ok a =>
    rw [consult_bind_of_ok f _ hf]
    exact commit_congr (by rw [hf]; rfl)

theorem commit_bind_commit {f : σ → Except ε (α × σ)} {g : α → σ → Except ε (β × σ)} {s : σ}
    (h : ∀ a s', f s = .ok (a, s') → ∃ x, g a s' = .ok x) :
    (commit f >>= fun a => commit (g a)) s = commit (fun s => f s >>= fun x => g x.1 x.2) s := by
  change EStateM.bind (commit f) _ s = _
  unfold EStateM.bind
  cases hf : f s with
  | error e => rw [commit_of_error hf, commit_of_error (by rw [hf]; rfl)]
  | ok x =>
    obtain ⟨y, hy⟩ := h x.1 x.2 hf
    rw [commit_of_ok hf, commit_of_ok (by rw [hf]; exact hy)]
    exact commit_of_ok hy

end InPlace

open InPlace

/-- Adds to a stack. There is one, with nothing on it, before the sum is known. -/
def Stacks.addInPlace (item : TemplateId) (quantity : Nat) : EStateM WorldError Stacks Unit := do
  modify fun s => if s.contains item then s else s.insert item 0
  let held := count (← get) item
  if held + quantity ≤ maxStack then modify (·.insert item (held + quantity))
  else throw .arithmeticOverflow

namespace Room

def addItemsInPlace (item : TemplateId) (quantity : Nat) : EStateM WorldError Room Unit :=
  within Room.items (fun items r => { r with items }) (Stacks.addInPlace item quantity)

def takeNpcInPlace (template : TemplateId) : EStateM WorldError Room Unit := do
  let r ← get
  match r.npcs.count template with
  | 0 => throw (.npcNotPresent template r.id)
  | n + 1 => set { r with npcs := r.npcs.put template n }

end Room

namespace Actor

def giveInPlace (item : TemplateId) (quantity : Nat) : EStateM WorldError Actor Unit :=
  within Actor.inventory (fun inventory a => { a with inventory }) (Stacks.addInPlace item quantity)

def takeInPlace (item : TemplateId) (quantity : Nat) : EStateM WorldError Actor Unit := do
  let a ← get
  let held := a.inventory.count item
  if held < quantity then throw (.notEnoughItems a.id item held quantity)
  else if held = quantity then
    modify fun a => { a with inventory := a.inventory.erase item }
    modify fun a => { a with equipped := a.equipped.erase item }
  else modify fun a => { a with inventory := a.inventory.insert item (held - quantity) }

def addExperienceInPlace (amount : Nat) : EStateM WorldError Actor Unit := do
  let a ← get
  if a.experience + amount ≤ maxExperience then set { a with experience := a.experience + amount }
  else throw .arithmeticOverflow

end Actor

namespace World.InPlace

def inRoom {α : Type} (room : RoomId) (m : EStateM WorldError Room α) : EStateM WorldError World α :=
  within World.rooms (fun rooms w => { w with rooms }) (atKey room (.roomNotFound room) m)

def inActor {α : Type} (actor : ActorId) (m : EStateM WorldError Actor α) : EStateM WorldError World α :=
  within World.actors (fun actors w => { w with actors }) (atKey actor (.actorNotFound actor) m)

def setRoomFlag (room : RoomId) (flag : String) (value : Json) : EStateM WorldError World Unit :=
  inRoom room (modify fun r => { r with flags := r.flags.insert flag value })

def openExit (room : RoomId) (d : Direction) (target : RoomId) : EStateM WorldError World Bool := do
  consult (·.requireRoom target)
  inRoom room (modifyGet (·.openExit d target))

def closeExit (room : RoomId) (d : Direction) : EStateM WorldError World Bool :=
  inRoom room (modifyGet (·.closeExit d))

def setDescription (room : RoomId) (text : String) : EStateM WorldError World Unit :=
  inRoom room (modify fun r => { r with descriptionOverride := some text })

def resetDescription (room : RoomId) : EStateM WorldError World Unit :=
  inRoom room (modify fun r => { r with descriptionOverride := none })

def addRoomItems (room : RoomId) (item : TemplateId) (quantity : Nat) : EStateM WorldError World Unit :=
  inRoom room (Room.addItemsInPlace item quantity)

def removeRoomItems (room : RoomId) (item : TemplateId) (quantity : Nat) :
    EStateM WorldError World Nat :=
  inRoom room (modifyGet (·.removeItems item quantity))

def spawnNpc (room : RoomId) (template : TemplateId) : EStateM WorldError World Unit :=
  inRoom room (modify (·.addNpc template))

def despawnNpc (room : RoomId) (template : TemplateId) : EStateM WorldError World Unit :=
  inRoom room (Room.takeNpcInPlace template)

def moveNpc (template : TemplateId) (source target : RoomId) : EStateM WorldError World Unit := do
  consult (·.requireRoom target)
  despawnNpc source template
  spawnNpc target template

def moveActor (actor : ActorId) (room : RoomId) : EStateM WorldError World (Option RoomId) := do
  consult (·.requireRoom room)
  inActor actor (modifyGet fun a => (a.room, { a with room := some room }))

def adjustHealth (actor : ActorId) (delta : Int) : EStateM WorldError World Int :=
  inActor actor (modifyGet (·.adjustHealth delta))

def addEffect (actor : ActorId) (effect : String) : EStateM WorldError World Bool :=
  inActor actor (modifyGet fun a =>
    (!a.effects.contains effect, { a with effects := a.effects.insert effect () }))

def removeEffect (actor : ActorId) (effect : String) : EStateM WorldError World Bool :=
  inActor actor (modifyGet fun a =>
    (a.effects.contains effect, { a with effects := a.effects.erase effect }))

def giveItem (actor : ActorId) (item : TemplateId) (quantity : Nat) : EStateM WorldError World Unit :=
  inActor actor (Actor.giveInPlace item quantity)

def takeItem (actor : ActorId) (item : TemplateId) (quantity : Nat) : EStateM WorldError World Unit :=
  inActor actor (Actor.takeInPlace item quantity)

def addExperience (actor : ActorId) (amount : Nat) : EStateM WorldError World Unit :=
  inActor actor (Actor.addExperienceInPlace amount)

end World.InPlace

section Parts

variable {item : TemplateId} {quantity : Nat}

theorem Stacks.addInPlace_eq (h : quantity ≤ maxStack) : addInPlace item quantity =
    commit fun s => (s.add item quantity).map ((), ·) := by
  funext s
  obtain ⟨opened, hopened⟩ : ∃ opened, opened = if s.contains item then s else s.insert item 0 := ⟨_, rfl⟩
  have hadd : addInPlace item quantity s =
      if count opened item + quantity ≤ maxStack then
        .ok () (opened.insert item (count opened item + quantity))
      else .error .arithmeticOverflow opened := by
    subst hopened
    change (if _ then _ else _ : EStateM WorldError Stacks Unit) _ = _
    split <;> rfl
  rw [hadd]
  cases hs : s.contains item with
  | false =>
    rw [hs, if_neg Bool.false_ne_true] at hopened
    subst hopened
    have hcount : s.count item = 0 := by rw [count, SortedMap.contains_eq_false_iff.mp hs]; rfl
    -- A stack that was opened for what is added has room for it, so that none is left open.
    have hfits : s.count item + quantity ≤ maxStack := by omega
    rw [count_insert, ← hcount, if_pos hfits, SortedMap.insert_insert,
      commit_of_ok (by rw [add, if_pos hfits]; rfl)]
  | true =>
    rw [hs, if_pos rfl] at hopened
    subst hopened
    split
    · rw [commit_of_ok (by rw [add, if_pos ‹_›]; rfl)]
    · rw [commit_of_error (by rw [add, if_neg ‹_›]; rfl)]

example : Stacks.addInPlace "coin" (maxStack + 1) .empty =
    .error .arithmeticOverflow (.insert .empty "coin" 0) := by cbv

theorem Room.addItemsInPlace_eq (h : quantity ≤ maxStack) : Room.addItemsInPlace item quantity =
    commit fun r => (r.addItems item quantity).map ((), ·) := by
  rw [addItemsInPlace, Stacks.addInPlace_eq h, within_commit fun _ => rfl]
  refine congrArg commit (funext fun r => ?_)
  unfold Room.addItems
  cases r.items.add item quantity <;> rfl

theorem Room.takeNpcInPlace_eq (template : TemplateId) : Room.takeNpcInPlace template =
    commit fun r => (r.takeNpc template).map ((), ·) := by
  funext r
  change (match r.npcs.count template with
    | 0 => _
    | n + 1 => _ : EStateM WorldError Room Unit) r = _
  rw [commit_apply, Room.takeNpc]
  cases r.npcs.count template <;> rfl

theorem Actor.giveInPlace_eq (h : quantity ≤ maxStack) : Actor.giveInPlace item quantity =
    commit fun a => (a.give item quantity).map ((), ·) := by
  rw [giveInPlace, Stacks.addInPlace_eq h, within_commit fun _ => rfl]
  refine congrArg commit (funext fun a => ?_)
  unfold Actor.give
  cases a.inventory.add item quantity <;> rfl

theorem Actor.takeInPlace_eq (item : TemplateId) (quantity : Nat) : Actor.takeInPlace item quantity =
    commit fun a => (a.take item quantity).map ((), ·) := by
  funext a
  change (if _ then _ else if _ then _ else _ : EStateM WorldError Actor Unit) a = _
  rw [commit_apply, Actor.take]
  split
  · rfl
  · split <;> rfl

theorem Actor.addExperienceInPlace_eq (amount : Nat) : Actor.addExperienceInPlace amount =
    commit fun a => if a.experience + amount ≤ maxExperience then
      .ok ((), { a with experience := a.experience + amount }) else .error .arithmeticOverflow := by
  funext a
  change (if _ then _ else _ : EStateM WorldError Actor Unit) a = _
  rw [commit_apply]
  split <;> rfl

end Parts

namespace World.InPlace

variable {α : Type} {item : TemplateId} {quantity : Nat}

theorem inRoom_commit (room : RoomId) (f : Room → Except WorldError (α × Room)) :
    inRoom room (commit f) = commit fun w =>
      w.findRoom room >>= fun r => (f r).map fun x => (x.1, w.putRoom room x.2) := by
  unfold inRoom
  refine within_atKey_commit (findRoom · room) (fun _ => rfl) (fun w => ?_) f
  unfold findRoom
  cases w.rooms.get? room <;> rfl

theorem inRoom_modifyGet (room : RoomId) (f : Room → α × Room) : inRoom room (modifyGet f) =
    commit fun w => w.findRoom room >>= fun r => .ok ((f r).1, w.putRoom room (f r).2) :=
  inRoom_commit room fun r => .ok (f r)

theorem inRoom_change (room : RoomId) (f : Room → Except WorldError Room) :
    inRoom room (commit fun r => (f r).map ((), ·)) = commit fun w =>
      (w.findRoom room >>= fun r => f r >>= fun r => .ok (w.putRoom room r)).map ((), ·) :=
  (inRoom_commit room _).trans (commit_change _ (putRoom · room) f)

theorem inRoom_modify (room : RoomId) (f : Room → Room) : inRoom room (modify f) = commit fun w =>
    (w.findRoom room >>= fun r => .ok (w.putRoom room (f r))).map ((), ·) :=
  inRoom_change room fun r => .ok (f r)

theorem inActor_commit (actor : ActorId) (f : Actor → Except WorldError (α × Actor)) :
    inActor actor (commit f) = commit fun w =>
      w.findActor actor >>= fun a => (f a).map fun x => (x.1, w.putActor actor x.2) := by
  unfold inActor
  refine within_atKey_commit (findActor · actor) (fun _ => rfl) (fun w => ?_) f
  unfold findActor
  cases w.actors.get? actor <;> rfl

theorem inActor_modifyGet (actor : ActorId) (f : Actor → α × Actor) : inActor actor (modifyGet f) =
    commit fun w => w.findActor actor >>= fun a => .ok ((f a).1, w.putActor actor (f a).2) :=
  inActor_commit actor fun a => .ok (f a)

theorem inActor_change (actor : ActorId) (f : Actor → Except WorldError Actor) :
    inActor actor (commit fun a => (f a).map ((), ·)) = commit fun w =>
      (w.findActor actor >>= fun a => f a >>= fun a => .ok (w.putActor actor a)).map ((), ·) :=
  (inActor_commit actor _).trans (commit_change _ (putActor · actor) f)

theorem setRoomFlag_eq (room : RoomId) (flag : String) (value : Json) : setRoomFlag room flag value =
    commit fun w => (w.setRoomFlag room flag value).map ((), ·) := inRoom_modify room _

theorem openExit_eq (room : RoomId) (d : Direction) (target : RoomId) : openExit room d target =
    commit fun w => w.openExit room d target := by
  unfold openExit
  rw [inRoom_modifyGet]
  exact consult_bind_commit _ fun _ => _

theorem closeExit_eq (room : RoomId) (d : Direction) : closeExit room d =
    commit fun w => w.closeExit room d := inRoom_modifyGet room _

theorem setDescription_eq (room : RoomId) (text : String) : setDescription room text =
    commit fun w => (w.setDescription room text).map ((), ·) := inRoom_modify room _

theorem resetDescription_eq (room : RoomId) : resetDescription room =
    commit fun w => (w.resetDescription room).map ((), ·) := inRoom_modify room _

theorem addRoomItems_eq (room : RoomId) (item : TemplateId) (h : quantity ≤ maxStack) :
    addRoomItems room item quantity =
      commit fun w => (w.addRoomItems room item quantity).map ((), ·) := by
  rw [addRoomItems, Room.addItemsInPlace_eq h]
  exact inRoom_change room _

theorem removeRoomItems_eq (room : RoomId) (item : TemplateId) (quantity : Nat) :
    removeRoomItems room item quantity = commit fun w => w.removeRoomItems room item quantity :=
  inRoom_modifyGet room _

theorem spawnNpc_eq (room : RoomId) (template : TemplateId) : spawnNpc room template =
    commit fun w => (w.spawnNpc room template).map ((), ·) := inRoom_modify room _

theorem despawnNpc_eq (room : RoomId) (template : TemplateId) : despawnNpc room template =
    commit fun w => (w.despawnNpc room template).map ((), ·) := by
  rw [despawnNpc, Room.takeNpcInPlace_eq]
  exact inRoom_change room _

theorem moveNpc_eq (template : TemplateId) (source target : RoomId) : moveNpc template source target =
    commit fun w => (w.moveNpc template source target).map ((), ·) := by
  -- The room that was asked for is there still after the character left its own.
  have hpresent {w w' : World} (htarget : w.rooms.contains target = true)
      (h : w.despawnNpc source template = .ok w') : ∃ w'', w'.spawnNpc target template = .ok w'' := by
    obtain ⟨r, hr, h⟩ := bind_eq_ok.mp h
    obtain ⟨r', -, h⟩ := bind_eq_ok.mp h
    cases h
    have hkept := (SortedMap.contains_insert_of_get? (findRoom_eq_ok.mp hr) r' target).trans htarget
    obtain ⟨t, ht⟩ := SortedMap.contains_eq_true_iff.mp hkept
    exact ⟨_, bind_eq_ok.mpr ⟨t, findRoom_eq_ok.mpr ht, rfl⟩⟩
  funext w
  unfold moveNpc
  rw [despawnNpc_eq, spawnNpc_eq]
  cases htarget : w.requireRoom target with
  | error e =>
    refine (consult_bind_of_error (World.requireRoom · target) _ htarget).trans (commit_of_error ?_).symm
    rw [World.moveNpc, htarget]
    rfl
  | ok u =>
    refine (consult_bind_of_ok (World.requireRoom · target) _ htarget).trans
      ((commit_bind_commit fun u' w' h => ?_).trans ?_)
    · obtain ⟨mid, hmid, h⟩ := map_eq_ok.mp h
      cases h
      obtain ⟨w'', hw''⟩ := hpresent (requireRoom_eq_ok.mp htarget) hmid
      exact ⟨_, by rw [hw'']; rfl⟩
    · apply commit_congr
      rw [World.moveNpc, htarget]
      change Except.map _ (w.despawnNpc source template) >>= _ =
        Except.map _ (w.despawnNpc source template >>= _)
      cases w.despawnNpc source template <;> rfl

theorem moveActor_eq (actor : ActorId) (room : RoomId) : moveActor actor room =
    commit fun w => w.moveActor actor room := by
  unfold moveActor
  rw [inActor_modifyGet]
  exact consult_bind_commit _ fun _ => _

theorem adjustHealth_eq (actor : ActorId) (delta : Int) : adjustHealth actor delta =
    commit fun w => w.adjustHealth actor delta := inActor_modifyGet actor _

theorem addEffect_eq (actor : ActorId) (effect : String) : addEffect actor effect =
    commit fun w => w.addEffect actor effect := inActor_modifyGet actor _

theorem removeEffect_eq (actor : ActorId) (effect : String) : removeEffect actor effect =
    commit fun w => w.removeEffect actor effect := inActor_modifyGet actor _

theorem giveItem_eq (actor : ActorId) (item : TemplateId) (h : quantity ≤ maxStack) :
    giveItem actor item quantity = commit fun w => (w.giveItem actor item quantity).map ((), ·) := by
  rw [giveItem, Actor.giveInPlace_eq h]
  exact inActor_change actor _

theorem takeItem_eq (actor : ActorId) (item : TemplateId) (quantity : Nat) :
    takeItem actor item quantity = commit fun w => (w.takeItem actor item quantity).map ((), ·) := by
  rw [takeItem, Actor.takeInPlace_eq]
  exact inActor_change actor _

theorem addExperience_eq (actor : ActorId) (amount : Nat) : addExperience actor amount =
    commit fun w => (w.addExperience actor amount).map ((), ·) := by
  rw [addExperience, Actor.addExperienceInPlace_eq, inActor_commit]
  refine congrArg commit (funext fun w => ?_)
  unfold World.addExperience
  cases w.findActor actor with
  | error e => rfl
  | ok a =>
    change Except.map _ (if _ then _ else _) = Except.map _ (if _ then _ else _)
    split <;> rfl

end World.InPlace

end WorldTriggers
