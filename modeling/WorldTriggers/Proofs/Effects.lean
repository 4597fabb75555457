import WorldTriggers.Proofs.Action

namespace WorldTriggers

namespace World

def SameEffects (w w' : World) : Prop :=
  ∀ actor effect, w'.actorHasEffect actor effect = w.actorHasEffect actor effect

section Changes

variable {w w' w'' : World} {room : RoomId} {actor : ActorId} {r : Room} {a b : Actor}

theorem SameEffects.refl (w : World) : SameEffects w w := fun _ _ => rfl

theorem SameEffects.trans (h : SameEffects w w') (h' : SameEffects w' w'') : SameEffects w w'' :=
  fun actor effect => (h' actor effect).trans (h actor effect)

theorem findActor_eq_ok : w.findActor actor = .ok a ↔ w.actors.get? actor = some a := by
  unfold findActor
  cases w.actors.get? actor <;> simp

theorem actorHasEffect_putActor (w : World) (actor : ActorId) (a : Actor) (k : ActorId)
    (effect : String) : (w.putActor actor a).actorHasEffect k effect =
      if k = actor then a.effects.contains effect else w.actorHasEffect k effect := by
  unfold actorHasEffect putActor
  dsimp only
  rw [SortedMap.get?_insert]
  split <;> rfl

theorem actorHasEffect_of_findActor (h : w.findActor actor = .ok a) (effect : String) :
    w.actorHasEffect actor effect = a.effects.contains effect := by
  rw [actorHasEffect, findActor_eq_ok.mp h, Option.any_some]

theorem sameEffects_of_actors (h : w'.actors = w.actors) : SameEffects w w' := by
  intro actor effect
  rw [actorHasEffect, h, actorHasEffect]

theorem sameEffects_putActor (h : w.findActor actor = .ok a) (hb : b.effects = a.effects) :
    SameEffects w (w.putActor actor b) := by
  intro k effect
  rw [actorHasEffect_putActor]
  split
  · subst k
    rw [hb, actorHasEffect_of_findActor h]
  · rfl

theorem actors_setRoomFlag {flag : String} {value : Json}
    (h : w.setRoomFlag room flag value = .ok w') : w'.actors = w.actors := by
  obtain ⟨r, -, h⟩ := bind_eq_ok.mp h
  cases h
  rfl

theorem actors_openExit {d : Direction} {target : RoomId} {changed : Bool}
    (h : w.openExit room d target = .ok (changed, w')) : w'.actors = w.actors := by
  obtain ⟨-, -, h⟩ := bind_eq_ok.mp h
  obtain ⟨r, -, h⟩ := bind_eq_ok.mp h
  cases h
  rfl

theorem actors_closeExit {d : Direction} {changed : Bool}
    (h : w.closeExit room d = .ok (changed, w')) : w'.actors = w.actors := by
  obtain ⟨r, -, h⟩ := bind_eq_ok.mp h
  cases h
  rfl

theorem actors_setDescription {text : String} (h : w.setDescription room text = .ok w') :
    w'.actors = w.actors := by
  obtain ⟨r, -, h⟩ := bind_eq_ok.mp h
  cases h
  rfl

theorem actors_resetDescription (h : w.resetDescription room = .ok w') : w'.actors = w.actors := by
  obtain ⟨r, -, h⟩ := bind_eq_ok.mp h
  cases h
  rfl

theorem actors_addRoomItems {item : TemplateId} {quantity : Nat}
    (h : w.addRoomItems room item quantity = .ok w') : w'.actors = w.actors := by
  obtain ⟨r, -, h⟩ := bind_eq_ok.mp h
  obtain ⟨r', -, h⟩ := bind_eq_ok.mp h
  cases h
  rfl

theorem actors_removeRoomItems {item : TemplateId} {quantity removed : Nat}
    (h : w.removeRoomItems room item quantity = .ok (removed, w')) : w'.actors = w.actors := by
  obtain ⟨r, -, h⟩ := bind_eq_ok.mp h
  cases h
  rfl

theorem actors_spawnNpc {template : TemplateId} (h : w.spawnNpc room template = .ok w') :
    w'.actors = w.actors := by
  obtain ⟨r, -, h⟩ := bind_eq_ok.mp h
  cases h
  rfl

theorem actors_despawnNpc {template : TemplateId} (h : w.despawnNpc room template = .ok w') :
    w'.actors = w.actors := by
  obtain ⟨r, -, h⟩ := bind_eq_ok.mp h
  obtain ⟨r', -, h⟩ := bind_eq_ok.mp h
  cases h
  rfl

theorem actors_moveNpc {template : TemplateId} {source target : RoomId}
    (h : w.moveNpc template source target = .ok w') : w'.actors = w.actors := by
  obtain ⟨-, -, h⟩ := bind_eq_ok.mp h
  obtain ⟨mid, hmid, h⟩ := bind_eq_ok.mp h
  exact (actors_spawnNpc h).trans (actors_despawnNpc hmid)

theorem sameEffects_moveActor {source : Option RoomId}
    (h : w.moveActor actor room = .ok (source, w')) : SameEffects w w' := by
  obtain ⟨-, -, h⟩ := bind_eq_ok.mp h
  obtain ⟨a, ha, h⟩ := bind_eq_ok.mp h
  cases h
  exact sameEffects_putActor ha rfl

theorem sameEffects_adjustHealth {delta change : Int}
    (h : w.adjustHealth actor delta = .ok (change, w')) : SameEffects w w' := by
  obtain ⟨a, ha, h⟩ := bind_eq_ok.mp h
  cases h
  exact sameEffects_putActor ha rfl

theorem sameEffects_giveItem {item : TemplateId} {quantity : Nat}
    (h : w.giveItem actor item quantity = .ok w') : SameEffects w w' := by
  obtain ⟨a, ha, h⟩ := bind_eq_ok.mp h
  obtain ⟨b, hb, h⟩ := bind_eq_ok.mp h
  cases h
  unfold Actor.give at hb
  cases hadd : a.inventory.add item quantity with
  | error e => simp [hadd, Except.map] at hb
  | ok inventory =>
    rw [hadd] at hb
    cases hb
    exact sameEffects_putActor ha rfl

theorem sameEffects_takeItem {item : TemplateId} {quantity : Nat}
    (h : w.takeItem actor item quantity = .ok w') : SameEffects w w' := by
  obtain ⟨a, ha, h⟩ := bind_eq_ok.mp h
  obtain ⟨b, hb, h⟩ := bind_eq_ok.mp h
  cases h
  have heffects : b.effects = a.effects := by
    unfold Actor.take at hb
    dsimp only at hb
    split at hb
    · cases hb
    · split at hb <;> cases hb <;> rfl
  exact sameEffects_putActor ha heffects

theorem sameEffects_addExperience {amount : Nat} (h : w.addExperience actor amount = .ok w') :
    SameEffects w w' := by
  obtain ⟨a, ha, h⟩ := bind_eq_ok.mp h
  split at h
  · cases h
    exact sameEffects_putActor ha rfl
  · cases h

theorem addEffect_eq_ok {effect : String} {isNew : Bool}
    (h : w.addEffect actor effect = .ok (isNew, w')) :
    isNew = !w.actorHasEffect actor effect ∧ ∀ k name,
      w'.actorHasEffect k name = (w.actorHasEffect k name || decide (k = actor ∧ name = effect)) := by
  obtain ⟨a, ha, h⟩ := bind_eq_ok.mp h
  cases h
  refine ⟨by rw [actorHasEffect_of_findActor ha], fun k name => ?_⟩
  rw [actorHasEffect_putActor]
  by_cases hk : k = actor
  · subst hk
    rw [actorHasEffect_of_findActor ha]
    unfold SortedMap.contains
    by_cases hname : name = effect <;> simp [SortedMap.get?_insert, hname]
  · simp [hk]

theorem removeEffect_eq_ok {effect : String} {wasActive : Bool}
    (h : w.removeEffect actor effect = .ok (wasActive, w')) (k : ActorId) (name : String) :
    w'.actorHasEffect k name = (w.actorHasEffect k name && decide ¬(k = actor ∧ name = effect)) := by
  obtain ⟨a, ha, h⟩ := bind_eq_ok.mp h
  cases h
  rw [actorHasEffect_putActor]
  by_cases hk : k = actor
  · subst hk
    rw [actorHasEffect_of_findActor ha]
    unfold SortedMap.contains
    by_cases hname : name = effect <;> simp [SortedMap.get?_erase, hname]
  · simp [hk]

end Changes

def effectsOf (w : World) : List (ActorId × List String) :=
  w.actors.entries.map fun entry => (entry.1, entry.2.effects.keys)

theorem actorHasEffect_iff {w : World} {actor : ActorId} {effect : String} :
    w.actorHasEffect actor effect = true ↔ ∃ names, (actor, names) ∈ w.effectsOf ∧ effect ∈ names := by
  have hkeys (a : Actor) : a.effects.contains effect = true ↔ effect ∈ a.effects.keys := by
    simp [SortedMap.contains, Option.isSome_iff_exists, SortedMap.get?_eq_some_iff, SortedMap.keys]
  simp only [actorHasEffect, Option.any_eq_true, hkeys, SortedMap.get?_eq_some_iff, effectsOf,
    List.mem_map, Prod.mk.injEq]
  constructor
  · rintro ⟨a, ha, heffect⟩
    exact ⟨_, ⟨(actor, a), ha, rfl, rfl⟩, heffect⟩
  · rintro ⟨_, ⟨⟨k, a⟩, ha, rfl, rfl⟩, heffect⟩
    exact ⟨a, ha, heffect⟩

theorem sameEffects_of_effectsOf {w w' : World} (h : w'.effectsOf = w.effectsOf) : SameEffects w w' := by
  intro actor effect
  rw [Bool.eq_iff_iff, actorHasEffect_iff, actorHasEffect_iff, h]

end World

namespace ActionHandler

open World

def Spares (w : World) (x : Except ActionError (Outcome × World)) : Prop :=
  ∀ o w', x = .ok (o, w') → w.SameEffects w' ∧
    ∀ actor effect stat after, .expireEffect actor effect stat after ∉ o.followups

section Spares

variable {α β : Type} {x : Except ActionError α} {w w' : World}

theorem spares_bind {f : α → Except ActionError (Outcome × World)} (h : ∀ a, Spares w (f a)) :
    Spares w (x >>= f) := yields_bind fun a _ => h a

theorem spares_change {y : Except WorldError α} {f : α → Except ActionError (Outcome × World)}
    (h : ∀ a, y = .ok a → Spares w (f a)) : Spares w ((y : Except ActionError α) >>= f) :=
  yields_change h

theorem spares_pure {o : Outcome} (hw : w.SameEffects w')
    (ho : ∀ actor effect stat after, .expireEffect actor effect stat after ∉ o.followups) :
    Spares w (pure (o, w')) := yields_pure ⟨hw, ho⟩

theorem spares_done (hw : w.SameEffects w') : Spares w (pure (done w')) :=
  spares_pure hw fun _ _ _ _ h => nomatch h

theorem spares_report (n : Notice) (hw : w.SameEffects w') : Spares w (pure (report n w')) :=
  spares_pure hw fun _ _ _ _ h => nomatch h

theorem spares_throw (e : ActionError) : Spares w (throw e) := yields_throw e

end Spares

section Handlers

variable (p : Params) (env : ActionEnv)

@[simp] theorem spares_messageActor : Spares env.world (messageActor p env) :=
  spares_bind fun _ => spares_bind fun _ => spares_report _ (.refl _)

@[simp] theorem spares_messageRoom : Spares env.world (messageRoom p env) :=
  spares_bind fun _ => spares_bind fun _ => spares_report _ (.refl _)

@[simp] theorem spares_messageArea : Spares env.world (messageArea p env) :=
  spares_bind fun _ => spares_bind fun _ => spares_report _ (.refl _)

@[simp] theorem spares_spawnNpc : Spares env.world (spawnNpc p env) :=
  spares_bind fun _ => spares_bind fun _ => spares_change fun _ h =>
    spares_report _ (sameEffects_of_actors (actors_spawnNpc h))

@[simp] theorem spares_despawnNpc : Spares env.world (despawnNpc p env) :=
  spares_bind fun _ => spares_bind fun _ => spares_change fun _ h =>
    spares_report _ (sameEffects_of_actors (actors_despawnNpc h))

@[simp] theorem spares_moveNpc : Spares env.world (moveNpc p env) := by
  have hmove (source : RoomId) : Spares env.world (do
      let target ← p.string "to"
      let template ← p.string "template"
      let w ← env.world.moveNpc template source target
      pure ({ notices := [
        .entity .despawn .npc template source, .entity .spawn .npc template target] }, w)) :=
    spares_bind fun _ => spares_bind fun _ => spares_change fun _ h =>
      spares_pure (sameEffects_of_actors (actors_moveNpc h)) fun _ _ _ _ h => nomatch h
  refine spares_bind fun source => ?_
  cases source with
  | none => exact spares_bind fun source => hmove source
  | some source => exact hmove source

@[simp] theorem spares_npcSay : Spares env.world (npcSay p env) := by
  refine spares_bind fun _ => spares_bind fun _ => ?_
  split
  · exact spares_throw _
  · exact spares_bind fun _ => spares_report _ (.refl _)

@[simp] theorem spares_setFlag : Spares env.world (setFlag p env) :=
  spares_bind fun _ => spares_bind fun (_, _) => spares_change fun _ h =>
    spares_done (sameEffects_of_actors (actors_setRoomFlag h))

@[simp] theorem spares_toggleFlag : Spares env.world (toggleFlag p env) :=
  spares_bind fun _ => spares_bind fun _ => spares_change fun _ h =>
    spares_done (sameEffects_of_actors (actors_setRoomFlag h))

@[simp] theorem spares_openExit : Spares env.world (openExit p env) :=
  spares_bind fun _ => spares_bind fun _ => spares_bind fun _ => spares_change fun (_, _) h =>
    spares_done (sameEffects_of_actors (actors_openExit h))

@[simp] theorem spares_closeExit : Spares env.world (closeExit p env) :=
  spares_bind fun _ => spares_bind fun _ => spares_change fun (_, _) h =>
    spares_done (sameEffects_of_actors (actors_closeExit h))

@[simp] theorem spares_setDescription : Spares env.world (setDescription p env) :=
  spares_bind fun _ => spares_bind fun _ => spares_change fun _ h =>
    spares_done (sameEffects_of_actors (actors_setDescription h))

@[simp] theorem spares_resetDescription : Spares env.world (resetDescription p env) :=
  spares_bind fun _ => spares_change fun _ h =>
    spares_done (sameEffects_of_actors (actors_resetDescription h))

@[simp] theorem spares_spawnItem : Spares env.world (spawnItem p env) :=
  spares_bind fun _ => spares_bind fun _ => spares_bind fun _ => spares_change fun _ h =>
    spares_report _ (sameEffects_of_actors (actors_addRoomItems h))

@[simp] theorem spares_despawnItem : Spares env.world (despawnItem p env) := by
  refine spares_bind fun _ => spares_bind fun _ => spares_bind fun _ => spares_change fun (_, _) h => ?_
  dsimp only
  split
  · exact spares_done (sameEffects_of_actors (actors_removeRoomItems h))
  · exact spares_report _ (sameEffects_of_actors (actors_removeRoomItems h))

@[simp] theorem spares_teleport : Spares env.world (teleport p env) :=
  spares_bind fun _ => spares_bind fun _ => spares_change fun (_, _) h =>
    spares_report _ (sameEffects_moveActor h)

theorem spares_adjustHealth (delta : Int) : Spares env.world (adjustHealth env delta) :=
  spares_bind fun _ => spares_change fun (_, _) h => spares_report _ (sameEffects_adjustHealth h)

@[simp] theorem spares_damage : Spares env.world (damage p env) :=
  spares_bind fun _ => spares_adjustHealth env _

@[simp] theorem spares_heal : Spares env.world (heal p env) :=
  spares_bind fun _ => spares_adjustHealth env _

@[simp] theorem spares_giveItem : Spares env.world (giveItem p env) :=
  spares_bind fun _ => spares_bind fun _ => spares_bind fun _ => spares_change fun _ h =>
    spares_done (sameEffects_giveItem h)

@[simp] theorem spares_takeItem : Spares env.world (takeItem p env) :=
  spares_bind fun _ => spares_bind fun _ => spares_bind fun _ => spares_change fun _ h =>
    spares_done (sameEffects_takeItem h)

@[simp] theorem spares_grantExperience : Spares env.world (grantExperience p env) :=
  spares_bind fun _ => spares_bind fun _ => spares_change fun _ h =>
    spares_report _ (sameEffects_addExperience h)

@[simp] theorem spares_setEnabled (enabled : Bool) : Spares env.world (setEnabled enabled p env) :=
  spares_bind fun _ => spares_pure (.refl _) (by simp)

@[simp] theorem spares_fireTrigger : Spares env.world (fireTrigger p env) :=
  spares_bind fun _ => spares_pure (.refl _) (by simp)

@[simp] theorem spares_cancel : Spares env.world (cancel p env) :=
  spares_pure (.refl _) fun _ _ _ _ h => nomatch h

end Handlers

section Effects

variable {p : Params} {env : ActionEnv} {o : Outcome} {w' : World}

theorem actor_eq_ok {actor : ActorId} : env.actor = .ok actor ↔ env.context.actor = some actor := by
  unfold ActionEnv.actor
  cases env.context.actor <;> simp

theorem applyEffect_eq_ok (h : applyEffect p env = .ok (o, w')) :
    ∃ actor effect stat duration isNew, env.context.actor = some actor ∧
      p.string "effect" = .ok effect ∧ effectStat p = .ok stat ∧ effectDuration p = .ok duration ∧
      env.world.addEffect actor effect = .ok (isNew, w') ∧
      o = if isNew then {
          notices := (stat.map fun s => Notice.statDelta actor s.stat s.amount).toList
          followups := (duration.map (Followup.expireEffect actor effect stat)).toList } else {} := by
  obtain ⟨actor, hactor, h⟩ := bind_eq_ok.mp h
  obtain ⟨effect, heffect, h⟩ := bind_eq_ok.mp h
  obtain ⟨stat, hstat, h⟩ := bind_eq_ok.mp h
  obtain ⟨duration, hduration, h⟩ := bind_eq_ok.mp h
  obtain ⟨⟨isNew, w⟩, hadd, h⟩ := bind_eq_ok.mp h
  have ho : w = w' ∧ o = if isNew then {
      notices := (stat.map fun s => Notice.statDelta actor s.stat s.amount).toList
      followups := (duration.map (Followup.expireEffect actor effect stat)).toList } else {} := by
    dsimp only at h
    split at h
    · cases h
      exact ⟨rfl, (if_pos ‹_›).symm⟩
    · cases h
      exact ⟨rfl, (if_neg ‹_›).symm⟩
  obtain ⟨rfl, ho⟩ := ho
  exact ⟨actor, effect, stat, duration, isNew, actor_eq_ok.mp hactor, mapError_eq_ok.mp heffect, hstat,
    hduration, mapError_eq_ok.mp hadd, ho⟩

theorem removeEffect_eq_ok (h : removeEffect p env = .ok (o, w')) :
    ∃ actor effect wasActive, env.context.actor = some actor ∧ p.string "effect" = .ok effect ∧
      env.world.removeEffect actor effect = .ok (wasActive, w') ∧ o = {} := by
  obtain ⟨actor, hactor, h⟩ := bind_eq_ok.mp h
  obtain ⟨effect, heffect, h⟩ := bind_eq_ok.mp h
  obtain ⟨⟨wasActive, w⟩, hremove, h⟩ := bind_eq_ok.mp h
  cases h
  exact ⟨actor, effect, wasActive, actor_eq_ok.mp hactor, mapError_eq_ok.mp heffect,
    mapError_eq_ok.mp hremove, rfl⟩

end Effects

theorem effects_cases {kind : String} {act : ActionHandler}
    (h : ActionRegistry.builtin.get? kind = some act) :
    (kind = "apply_effect" ∧ act = applyEffect) ∨ (kind = "remove_effect" ∧ act = removeEffect) ∨
      kind ≠ "apply_effect" ∧ kind ≠ "remove_effect" ∧ ∀ p env, Spares env.world (act p env) := by
  have hmem := SortedMap.mem_ofList (SortedMap.get?_eq_some_iff.mp h)
  simp only [List.mem_cons, Prod.mk.injEq, List.not_mem_nil, or_false] at hmem
  repeat
    rcases hmem with ⟨rfl, rfl⟩ | hmem
    · first
      | exact .inl ⟨rfl, rfl⟩
      | exact .inr (.inl ⟨rfl, rfl⟩)
      | exact .inr (.inr ⟨by decide, by decide, by simp⟩)
  obtain ⟨rfl, rfl⟩ := hmem
  exact .inr (.inr ⟨by decide, by decide, by simp⟩)

end ActionHandler

end WorldTriggers
