import WorldTriggers.Proofs.Engine.Operation
import WorldTriggers.Proofs.InPlace

namespace WorldTriggers

open InPlace

namespace ActionHandler

namespace InPlace

section Atomic

/-- An action comes to the same in place and on a copy. If it is done, only these rooms and these actors
are others than before, and if it fails, nothing is. -/
inductive Atomic (rooms : List RoomId) (actors : List ActorId) (env : ActionEnv) :
    EStateM.Result ActionError ActionEnv Outcome → Except ActionError (Outcome × World) → Prop
  | done (o : Outcome) {w : World} (h : env.world.SameBut rooms actors w) :
    Atomic rooms actors env (.ok o { env with world := w }) (.ok (o, w))
  | failed (e : ActionError) : Atomic rooms actors env (.error e env) (.error e)

variable {α : Type} {rooms : List RoomId} {actors : List ActorId} {env env' : ActionEnv}
  {k : α → InPlace Outcome} {o : Outcome} {e : ActionError} {y : Except ActionError (Outcome × World)}

theorem Atomic.of_ok (h : Atomic rooms actors env (.ok o env') y) : y = .ok (o, env'.world) ∧
    env' = { env with world := env'.world } ∧ env.world.SameBut rooms actors env'.world := by
  cases h
  exact ⟨rfl, rfl, ‹_›⟩

theorem Atomic.of_error (h : Atomic rooms actors env (.error e env') y) :
    env' = env ∧ y = .error e := by
  cases h
  exact ⟨rfl, rfl⟩

theorem atomic_consult {f : ActionEnv → Except ActionError α}
    {g : α → Except ActionError (Outcome × World)}
    (h : ∀ a, f env = .ok a → Atomic rooms actors env (k a env) (g a)) :
    Atomic rooms actors env ((consult f >>= k) env) (f env >>= g) := by
  cases hf : f env with
  | error e =>
    rw [consult_bind_of_error f k hf]
    exact .failed e
  | ok a =>
    rw [consult_bind_of_ok f k hf]
    exact h a hf

theorem atomic_read {x : Except ActionError α} {g : α → Except ActionError (Outcome × World)}
    (h : ∀ a, x = .ok a → Atomic rooms actors env (k a env) (g a)) :
    Atomic rooms actors env (((x : InPlace α) >>= k) env) (x >>= g) := atomic_consult h

theorem atomic_param {x : Except ParamError α} {g : α → Except ActionError (Outcome × World)}
    (h : ∀ a, x = .ok a → Atomic rooms actors env (k a env) (g a)) :
    Atomic rooms actors env (((x : InPlace α) >>= k) env) ((x : Except ActionError α) >>= g) :=
  atomic_consult fun a ha => h a (mapError_eq_ok.mp ha)

theorem atomic_pure (o : Outcome) :
    Atomic rooms actors env ((pure o : InPlace Outcome) env) (pure (o, env.world)) := .done o (.refl ..)

theorem inWorld_of_ok {m : EStateM WorldError World α} {a : α} {w : World} (h : m env.world = .ok a w) :
    inWorld m env = .ok a { env with world := w } := by
  rw [inWorld, h]

theorem inWorld_of_error {m : EStateM WorldError World α} {e : WorldError} {w : World}
    (h : m env.world = .error e w) : inWorld m env = .error (.world e) { env with world := w } := by
  rw [inWorld, h]

theorem atomic_answer {m : EStateM WorldError World α} {f : World → Except WorldError (α × World)}
    {g : α × World → Except ActionError (Outcome × World)} (hm : m = commit f)
    (hf : ∀ a w, f env.world = .ok (a, w) → env.world.SameBut rooms actors w) (out : α → Outcome)
    (hk : ∀ a, k a = pure (out a)) (hg : ∀ a w, g (a, w) = pure (out a, w)) :
    Atomic rooms actors env (((m : InPlace α) >>= k) env)
      ((f env.world : Except ActionError _) >>= g) := by
  subst hm
  change Atomic rooms actors env (EStateM.bind (inWorld (commit f)) k env) _
  unfold EStateM.bind
  cases hw : f env.world with
  | error e =>
    rw [inWorld_of_error (commit_of_error hw)]
    exact .failed (.world e)
  | ok x =>
    obtain ⟨a, w⟩ := x
    rw [inWorld_of_ok (commit_of_ok hw)]
    -- The world is written by now, so that all that may be left is to tell the outcome.
    change Atomic rooms actors env (k a _) (g (a, w))
    rw [hk, hg]
    exact .done (out a) (hf a w hw)

theorem atomic_change {m : EStateM WorldError World Unit} {f : World → Except WorldError World}
    (hm : m = commit fun w => (f w).map ((), ·))
    (hf : ∀ w, f env.world = .ok w → env.world.SameBut rooms actors w) (o : Outcome) :
    Atomic rooms actors env (((m : InPlace Unit) >>= fun _ => pure o) env)
      ((f env.world : Except ActionError World) >>= fun w => pure (o, w)) := by
  have hsame : ((f env.world : Except ActionError World) >>= fun w => pure (o, w)) =
      ((liftM ((f env.world).map ((), ·)) : Except ActionError (Unit × World)) >>= fun x =>
        pure (o, x.2)) := by
    cases f env.world <;> rfl
  rw [hsame]
  refine atomic_answer (g := fun x => pure (o, x.2)) hm (fun a w h => ?_) (fun _ => o)
    (fun _ => rfl) fun _ _ => rfl
  obtain ⟨w', h, hw⟩ := map_eq_ok.mp h
  cases hw
  exact hf w h

def roomOf (p : Params) (env : ActionEnv) : List RoomId := (env.room p).toOption.toList

theorem atomic_room {p : Params} {k : RoomId → InPlace Outcome}
    {g : RoomId → Except ActionError (Outcome × World)}
    (h : ∀ room, Atomic [room] [] env (k room env) (g room)) :
    Atomic (roomOf p env) [] env ((consult (ActionEnv.room · p) >>= k) env) (env.room p >>= g) := by
  refine atomic_consult fun room hroom => ?_
  rw [roomOf, hroom]
  exact h room

theorem atomic_actor {k : ActorId → InPlace Outcome} {g : ActorId → Except ActionError (Outcome × World)}
    (h : ∀ actor, Atomic [] [actor] env (k actor env) (g actor)) :
    Atomic [] env.context.actor.toList env ((consult ActionEnv.actor >>= k) env) (env.actor >>= g) := by
  refine atomic_consult fun actor hactor => ?_
  rw [actor_eq_ok.mp hactor]
  exact h actor

end Atomic

section Handlers

open World (sameBut_apply)

variable (p : Params) (env : ActionEnv)

theorem atomic_messageActor :
    Atomic [] [] env (messageActor p env) (ActionHandler.messageActor p env) :=
  atomic_consult fun _ _ => atomic_param fun _ _ => atomic_pure _

theorem atomic_messageRoom : Atomic [] [] env (messageRoom p env) (ActionHandler.messageRoom p env) :=
  atomic_consult fun _ _ => atomic_param fun _ _ => atomic_pure _

theorem atomic_messageArea : Atomic [] [] env (messageArea p env) (ActionHandler.messageArea p env) :=
  atomic_consult fun _ _ => atomic_param fun _ _ => atomic_pure _

theorem atomic_spawnNpc :
    Atomic (roomOf p env) [] env (spawnNpc p env) (ActionHandler.spawnNpc p env) :=
  atomic_room fun room => atomic_param fun template _ =>
    atomic_change (World.InPlace.spawnNpc_eq ..)
      (fun _ h => sameBut_apply (c := .spawnNpc room template) h) _

theorem atomic_despawnNpc :
    Atomic (roomOf p env) [] env (despawnNpc p env) (ActionHandler.despawnNpc p env) :=
  atomic_room fun room => atomic_param fun template _ =>
    atomic_change (World.InPlace.despawnNpc_eq ..)
      (fun _ h => sameBut_apply (c := .despawnNpc room template) h) _

def sourceRoom (p : Params) (env : ActionEnv) : Except ActionError RoomId := do
  match ← p.string? "from" with
  | some r => pure r
  | none => env.ownRoom

def bothRooms (p : Params) (env : ActionEnv) : List RoomId :=
  match sourceRoom p env, p.string "to" with
  | .ok source, .ok target => [source, target]
  | _, _ => []

theorem atomic_moveNpc :
    Atomic (bothRooms p env) [] env (moveNpc p env) (ActionHandler.moveNpc p env) := by
  -- Both ways to come by a source lead here.
  have hmove (source : RoomId) (hsource : sourceRoom p env = .ok source) :
      Atomic (bothRooms p env) [] env
        ((do
          let target ← p.string "to"
          let template ← p.string "template"
          World.InPlace.moveNpc template source target
          pure { notices := [
            .entity .despawn .npc template source, .entity .spawn .npc template target] } :
          InPlace Outcome) env)
        (do
          let target ← p.string "to"
          let template ← p.string "template"
          let w ← env.world.moveNpc template source target
          pure ({ notices := [
            .entity .despawn .npc template source, .entity .spawn .npc template target] }, w)) := by
    refine atomic_param fun target htarget => atomic_param fun template _ => ?_
    rw [bothRooms, hsource, htarget]
    exact atomic_change (World.InPlace.moveNpc_eq ..)
      (fun _ h => sameBut_apply (c := .moveNpc template source target) h) _
  refine atomic_param fun source hfrom => ?_
  cases source with
  | none =>
    refine atomic_consult fun source hsource => hmove source ?_
    rw [sourceRoom, hfrom]
    exact hsource
  | some source =>
    refine hmove source ?_
    rw [sourceRoom, hfrom]
    rfl

theorem atomic_npcSay : Atomic [] [] env (npcSay p env) (ActionHandler.npcSay p env) := by
  refine atomic_consult fun room _ => atomic_param fun template _ => ?_
  change Atomic _ _ _ ((if env.world.npcCount room template = 0 then _ else _ : InPlace Outcome) env) _
  split
  · exact .failed _
  · exact atomic_param fun _ _ => atomic_pure _

theorem atomic_setFlag : Atomic (roomOf p env) [] env (setFlag p env) (ActionHandler.setFlag p env) :=
  atomic_room fun room => atomic_read fun (flag, value) _ =>
    atomic_change (World.InPlace.setRoomFlag_eq ..)
      (fun _ h => sameBut_apply (c := .setRoomFlag room flag value) h) _

theorem atomic_toggleFlag :
    Atomic (roomOf p env) [] env (toggleFlag p env) (ActionHandler.toggleFlag p env) :=
  atomic_room fun room => atomic_param fun flag _ =>
    atomic_change (World.InPlace.setRoomFlag_eq ..)
      (fun _ h => sameBut_apply (c := .setRoomFlag room flag _) h) _

theorem atomic_openExit :
    Atomic (roomOf p env) [] env (openExit p env) (ActionHandler.openExit p env) :=
  atomic_room fun room => atomic_read fun d _ => atomic_param fun target _ =>
    atomic_answer (World.InPlace.openExit_eq ..)
      (fun _ _ h => sameBut_apply (c := .openExit room d target) (map_eq_ok.mpr ⟨_, h, rfl⟩))
      (fun _ => {}) (fun _ => rfl) fun _ _ => rfl

theorem atomic_closeExit :
    Atomic (roomOf p env) [] env (closeExit p env) (ActionHandler.closeExit p env) :=
  atomic_room fun room => atomic_read fun d _ =>
    atomic_answer (World.InPlace.closeExit_eq ..)
      (fun _ _ h => sameBut_apply (c := .closeExit room d) (map_eq_ok.mpr ⟨_, h, rfl⟩))
      (fun _ => {}) (fun _ => rfl) fun _ _ => rfl

theorem atomic_setDescription :
    Atomic (roomOf p env) [] env (setDescription p env) (ActionHandler.setDescription p env) :=
  atomic_room fun room => atomic_param fun _ _ =>
    atomic_change (World.InPlace.setDescription_eq ..)
      (fun _ h => sameBut_apply (c := .setDescription room _) h) _

theorem atomic_resetDescription :
    Atomic (roomOf p env) [] env (resetDescription p env) (ActionHandler.resetDescription p env) :=
  atomic_room fun room =>
    atomic_change (World.InPlace.resetDescription_eq _)
      (fun _ h => sameBut_apply (c := .resetDescription room) h) _

theorem le_maxStack_of_natural {p : Params} {key : String} {n : Nat} (h : p.natural key 1 = .ok n) :
    n ≤ maxStack := by
  obtain ⟨x, -, h⟩ := bind_eq_ok.mp h
  cases x with
  | none =>
    cases h
    decide
  | some i =>
    dsimp only at h
    split at h
    · cases h
      change _ ≤ Width.maxNat 32
      omega
    · cases h

theorem atomic_spawnItem :
    Atomic (roomOf p env) [] env (spawnItem p env) (ActionHandler.spawnItem p env) :=
  atomic_room fun room => atomic_param fun item _ => atomic_param fun quantity hquantity =>
    atomic_change (World.InPlace.addRoomItems_eq _ _ (le_maxStack_of_natural hquantity))
      (fun _ h => sameBut_apply (c := .addRoomItems room item quantity) h) _

theorem atomic_despawnItem :
    Atomic (roomOf p env) [] env (despawnItem p env) (ActionHandler.despawnItem p env) := by
  refine atomic_room fun room => atomic_param fun item _ => atomic_param fun quantity _ =>
    atomic_answer (World.InPlace.removeRoomItems_eq ..)
      (fun _ _ h => sameBut_apply (c := .removeRoomItems room item quantity) (map_eq_ok.mpr ⟨_, h, rfl⟩))
      (fun removed => if removed = 0 then {} else { notices := [.entity .despawn .item item room] })
      (fun removed => ?_) fun removed w => ?_
  · split <;> rfl
  · dsimp only
    split <;> rfl

theorem atomic_teleport :
    Atomic [] env.context.actor.toList env (teleport p env) (ActionHandler.teleport p env) :=
  atomic_actor fun actor => atomic_param fun target _ =>
    atomic_answer (World.InPlace.moveActor_eq ..)
      (fun _ _ h => sameBut_apply (c := .moveActor actor target) (map_eq_ok.mpr ⟨_, h, rfl⟩))
      (fun source => { notices := [.actorMoved actor source target] }) (fun _ => rfl) fun _ _ => rfl

theorem atomic_applyEffect :
    Atomic [] env.context.actor.toList env (applyEffect p env) (ActionHandler.applyEffect p env) := by
  refine atomic_actor fun actor => atomic_param fun effect _ => atomic_read fun stat _ =>
    atomic_read fun duration _ => atomic_answer (World.InPlace.addEffect_eq ..)
      (fun _ _ h => sameBut_apply (c := .addEffect actor effect) (map_eq_ok.mpr ⟨_, h, rfl⟩))
      (fun isNew => if isNew then {
        notices := (stat.map fun s => Notice.statDelta actor s.stat s.amount).toList
        followups := (duration.map (Followup.expireEffect actor effect stat)).toList } else {})
      (fun isNew => ?_) fun isNew w => ?_
  · cases isNew <;> rfl
  · cases isNew <;> rfl

theorem atomic_removeEffect :
    Atomic [] env.context.actor.toList env (removeEffect p env) (ActionHandler.removeEffect p env) :=
  atomic_actor fun actor => atomic_param fun effect _ =>
    atomic_answer (World.InPlace.removeEffect_eq ..)
      (fun _ _ h => sameBut_apply (c := .removeEffect actor effect) (map_eq_ok.mpr ⟨_, h, rfl⟩))
      (fun _ => {}) (fun _ => rfl) fun _ _ => rfl

theorem atomic_adjustHealth (delta : Int) :
    Atomic [] env.context.actor.toList env (adjustHealth delta env)
      (ActionHandler.adjustHealth env delta) :=
  atomic_actor fun actor =>
    atomic_answer (World.InPlace.adjustHealth_eq ..)
      (fun _ _ h => sameBut_apply (c := .adjustHealth actor delta) (map_eq_ok.mpr ⟨_, h, rfl⟩))
      (fun change => { notices := [.statDelta actor "health" change] }) (fun _ => rfl) fun _ _ => rfl

theorem atomic_damage :
    Atomic [] env.context.actor.toList env (damage p env) (ActionHandler.damage p env) :=
  atomic_read fun n _ => atomic_adjustHealth env (-n)

theorem atomic_heal : Atomic [] env.context.actor.toList env (heal p env) (ActionHandler.heal p env) :=
  atomic_read fun n _ => atomic_adjustHealth env n

theorem atomic_giveItem :
    Atomic [] env.context.actor.toList env (giveItem p env) (ActionHandler.giveItem p env) :=
  atomic_actor fun actor => atomic_param fun item _ => atomic_param fun quantity hquantity =>
    atomic_change (World.InPlace.giveItem_eq _ _ (le_maxStack_of_natural hquantity))
      (fun _ h => sameBut_apply (c := .giveItem actor item quantity) h) _

theorem atomic_takeItem :
    Atomic [] env.context.actor.toList env (takeItem p env) (ActionHandler.takeItem p env) :=
  atomic_actor fun actor => atomic_param fun item _ => atomic_param fun quantity _ =>
    atomic_change (World.InPlace.takeItem_eq ..)
      (fun _ h => sameBut_apply (c := .takeItem actor item quantity) h) _

theorem atomic_grantExperience :
    Atomic [] env.context.actor.toList env (grantExperience p env)
      (ActionHandler.grantExperience p env) :=
  atomic_actor fun actor => atomic_read fun n _ =>
    atomic_change (World.InPlace.addExperience_eq ..)
      (fun _ h => sameBut_apply (c := .addExperience actor n.toNat) h) _

theorem atomic_setEnabled (enabled : Bool) :
    Atomic [] [] env (setEnabled enabled p env) (ActionHandler.setEnabled enabled p env) :=
  atomic_consult fun _ _ => atomic_pure _

theorem atomic_fireTrigger : Atomic [] [] env (fireTrigger p env) (ActionHandler.fireTrigger p env) :=
  atomic_consult fun _ _ => atomic_pure _

theorem atomic_cancel : Atomic [] [] env (cancel p env) (ActionHandler.cancel p env) := atomic_pure _

end Handlers

def Handler.forget (m : Handler) : ActionHandler := fun p env =>
  match m p env with
  | .ok o env => .ok (o, env.world)
  | .error e _ => .error e

theorem forget_eq {rooms : Params → ActionEnv → List RoomId} {actors : Params → ActionEnv → List ActorId}
    {m : Handler} {act : ActionHandler}
    (h : ∀ p env, Atomic (rooms p env) (actors p env) env (m p env) (act p env)) : m.forget = act := by
  funext p env
  have hatomic := h p env
  unfold Handler.forget
  generalize m p env = x at hatomic
  generalize act p env = y at hatomic
  cases hatomic <;> rfl

def roomKinds : List String :=
  ["spawn_npc", "despawn_npc", "set_flag", "toggle_flag", "open_exit", "close_exit", "set_description",
    "reset_description", "spawn_item", "despawn_item"]

def actorKinds : List String :=
  ["teleport", "apply_effect", "remove_effect", "damage", "heal", "give_item", "take_item", "grant_xp"]

def roomsOf (kind : String) (p : Params) (env : ActionEnv) : List RoomId :=
  if kind ∈ roomKinds then roomOf p env else if kind = "move_npc" then bothRooms p env else []

def actorsOf (kind : String) (env : ActionEnv) : List ActorId :=
  if kind ∈ actorKinds then env.context.actor.toList else []

theorem entries_atomic : ∃ xs, ActionRegistry.builtin = ⟨.ofList xs⟩ ∧
    List.Forall₂ (fun (x : String × Handler) (y : String × ActionHandler) => y.1 = x.1 ∧
      ∀ p env, Atomic (roomsOf x.1 p env) (actorsOf x.1 env) env (x.2 p env) (y.2 p env)) entries xs :=
  ⟨_, rfl,
    .cons ⟨rfl, atomic_messageActor⟩ <| .cons ⟨rfl, atomic_messageRoom⟩ <|
    .cons ⟨rfl, atomic_messageArea⟩ <| .cons ⟨rfl, atomic_spawnNpc⟩ <|
    .cons ⟨rfl, atomic_despawnNpc⟩ <| .cons ⟨rfl, atomic_moveNpc⟩ <| .cons ⟨rfl, atomic_npcSay⟩ <|
    .cons ⟨rfl, atomic_setFlag⟩ <| .cons ⟨rfl, atomic_toggleFlag⟩ <| .cons ⟨rfl, atomic_openExit⟩ <|
    .cons ⟨rfl, atomic_closeExit⟩ <| .cons ⟨rfl, atomic_setDescription⟩ <|
    .cons ⟨rfl, atomic_resetDescription⟩ <| .cons ⟨rfl, atomic_teleport⟩ <|
    .cons ⟨rfl, atomic_applyEffect⟩ <| .cons ⟨rfl, atomic_removeEffect⟩ <|
    .cons ⟨rfl, atomic_damage⟩ <| .cons ⟨rfl, atomic_heal⟩ <| .cons ⟨rfl, atomic_giveItem⟩ <|
    .cons ⟨rfl, atomic_takeItem⟩ <| .cons ⟨rfl, atomic_grantExperience⟩ <|
    .cons ⟨rfl, atomic_spawnItem⟩ <| .cons ⟨rfl, atomic_despawnItem⟩ <|
    .cons ⟨rfl, (atomic_setEnabled · · true)⟩ <| .cons ⟨rfl, (atomic_setEnabled · · false)⟩ <|
    .cons ⟨rfl, atomic_fireTrigger⟩ <| .cons ⟨rfl, atomic_cancel⟩ <| .nil⟩

theorem entries_forget :
    (∀ x ∈ entries, ∀ p env,
      Atomic (roomsOf x.1 p env) (actorsOf x.1 env) env (x.2 p env) (x.2.forget p env)) ∧
      ActionRegistry.builtin.handlers = .ofList (entries.map fun x => (x.1, x.2.forget)) := by
  obtain ⟨xs, hxs, hall⟩ := entries_atomic
  obtain ⟨hatomic, hforget⟩ := (List.forall₂_and_left _ _).mp (hall.imp fun x y h =>
    show (∀ p env, Atomic (roomsOf x.1 p env) (actorsOf x.1 env) env (x.2 p env) (x.2.forget p env)) ∧
      (x.1, x.2.forget) = y by
    rw [forget_eq h.2]
    exact ⟨h.2, Prod.ext h.1.symm rfl⟩)
  have hlist : entries.map (fun x => (x.1, x.2.forget)) = xs := by
    rw [← List.forall₂_eq_eq_eq]
    exact List.forall₂_map_left_iff.mpr hforget
  exact ⟨hatomic, by rw [hxs, hlist]⟩

theorem handlers_builtin : ActionRegistry.builtin.handlers = builtin.map Handler.forget := by
  rw [entries_forget.2, builtin, SortedMap.map_ofList]

theorem atomic_of_get? {kind : String} {m : Handler} (h : builtin.get? kind = some m) (p : Params)
    (env : ActionEnv) : Atomic (roomsOf kind p env) (actorsOf kind env) env (m p env) (m.forget p env) :=
  entries_forget.1 _ (SortedMap.mem_ofList (SortedMap.get?_eq_some_iff.mp h)) p env

end InPlace

end ActionHandler

namespace Run

variable {cascade : Option Cascade} {f : Firing} {a : Action} {as rest : List Action} {run : Run}
  {act : ActionHandler} {e : ActionError}

theorem runActions_of_error (resumed : Bool) (index : Nat)
    (hwait : (if resumed then none else a.wait?) = none)
    (hact : run.engine.settings.actions.get? a.kind = some act)
    (herror : act a.params ⟨run.world, f.context, f.scope⟩ = .error e) :
    runActions cascade f resumed index (a :: rest) run =
      runActions cascade f false (index + 1) rest (run.fail f a.kind e.message) := by
  rw [runActions, hwait]
  dsimp only
  rw [hact]
  dsimp only
  rw [herror]

def failure? (run : Run) (f : Firing) (a : Action) : Option Notice :=
  match run.engine.settings.actions.get? a.kind with
  | none => none
  | some act =>
    match act a.params ⟨run.world, f.context, f.scope⟩ with
    | .error e => some (.actionFailed f.rule.id a.kind e.message)
    | .ok _ => none

theorem failure?_eq_some {n : Notice} (h : run.failure? f a = some n) :
    ∃ act e, run.engine.settings.actions.get? a.kind = some act ∧
      act a.params ⟨run.world, f.context, f.scope⟩ = .error e ∧
      n = .actionFailed f.rule.id a.kind e.message := by
  unfold failure? at h
  split at h
  · cases h
  · split at h <;> cases h
    exact ⟨_, _, ‹_›, ‹_›, rfl⟩

theorem runActions_append_of_failure (index : Nat)
    (h : ∀ a ∈ as, a.wait? = none ∧ (run.failure? f a).isSome) :
    runActions cascade f false index (as ++ rest) run =
      runActions cascade f false (index + as.length) rest (run.note (as.filterMap (run.failure? f))) := by
  induction as generalizing index run with
  | nil =>
    rw [List.filterMap_nil, note, List.append_nil]
    rfl
  | cons a as ih =>
    obtain ⟨⟨hwait, hfails⟩, hrest⟩ := List.forall_mem_cons.mp h
    obtain ⟨n, hn⟩ := Option.isSome_iff_exists.mp hfails
    obtain ⟨act, e, hact, herror, rfl⟩ := failure?_eq_some hn
    -- The world is as it was, and so is what would fail in it.
    have hsame : (run.fail f a.kind e.message).failure? f = run.failure? f := rfl
    rw [← hsame] at hrest
    rw [List.cons_append, runActions_of_error false index hwait hact herror, ih (index + 1) hrest, hsame,
      List.filterMap_cons_some hn, List.length_cons, Nat.add_assoc, Nat.add_comm 1]
    simp only [fail, note, List.append_assoc, List.cons_append, List.nil_append]

end Run

namespace ActionHandler

open InPlace in
/-- A built-in action, made in place, is done as a whole or not at all. When it fails, the world is what
it was, and the engine tells of the failure and goes on with the next action, with nothing left to be done
for this one. When it is done, no room and no actor is another but those that it works on. -/
theorem execute_whole {kind : String} {act : ActionHandler}
    (h : ActionRegistry.builtin.get? kind = some act) :
    ∃ m : Handler, InPlace.builtin.get? kind = some m ∧
      (∀ p env e env', m p env = .error e env' → env' = env ∧ act p env = .error e) ∧
      (∀ p env o env', m p env = .ok o env' → act p env = .ok (o, env'.world) ∧
        env' = { env with world := env'.world } ∧
        env.world.SameBut (roomsOf kind p env) (actorsOf kind env) env'.world) ∧
      ∀ cascade f resumed index (a : Action) rest (run : Run) e env',
        run.engine.settings.actions.get? a.kind = some act → (if resumed then none else a.wait?) = none →
        m a.params ⟨run.world, f.context, f.scope⟩ = .error e env' →
        Run.runActions cascade f resumed index (a :: rest) run =
          Run.runActions cascade f false (index + 1) rest
            { run with
              world := env'.world
              notices := run.notices ++ [.actionFailed f.rule.id a.kind e.message] } := by
  have hget : ActionRegistry.builtin.get? kind = (InPlace.builtin.get? kind).map Handler.forget := by
    rw [ActionRegistry.get?, handlers_builtin, SortedMap.get?_map]
  obtain ⟨m, hm, rfl⟩ := Option.map_eq_some_iff.mp (hget.symm.trans h)
  have herror p env e env' (hr : m p env = .error e env') : env' = env ∧ m.forget p env = .error e :=
    (hr ▸ atomic_of_get? hm p env).of_error
  refine ⟨m, hm, herror, fun p env o env' hr => (hr ▸ atomic_of_get? hm p env).of_ok, ?_⟩
  intro cascade f resumed index a rest run e env' hact hwait hr
  obtain ⟨rfl, hfails⟩ := herror _ _ _ _ hr
  exact Run.runActions_of_error resumed index hwait hact hfails

def hoard : World where
  actors := .ofList [
    ("alice", { id := "alice", name := "Alice", inventory := .ofList [("coin", maxStack)] }),
    ("bob", { id := "bob", name := "Bob", inventory := .ofList [("coin", 3)] })]

def giveCoin : Action := ⟨"give_item", .ofList [("item", .string "coin")], 0⟩

def almsgiving : Firing :=
  ⟨.room "hall", 0, .plain "alms" .enter [giveCoin], { actor := some "alice" }⟩

def atHoard : ActionEnv := ⟨hoard, almsgiving.context, almsgiving.scope⟩

theorem execute_whole_hoard : ∃ m, InPlace.builtin.get? "give_item" = some m ∧
    m giveCoin.params atHoard = .error (.world .arithmeticOverflow) atHoard ∧
    (∃ o env', m (.ofList [("item", .string "coin"), ("quantity", .int 0)]) atHoard = .ok o env' ∧
      env'.world.actors.get? "bob" = hoard.actors.get? "bob") ∧
    Run.runActions none almsgiving true 0 almsgiving.rule.actions
        (.start { settings := .builtin 8 } hoard 0) =
      { Run.start { settings := .builtin 8 } hoard 0 with
        notices := [.actionFailed "alms" "give_item" "arithmetic overflow in world calculation"] } := by
  obtain ⟨m, hm, hfails, hdone, hpassed⟩ :=
    execute_whole (show ActionRegistry.builtin.get? "give_item" = some giveItem from rfl)
  have hover : m giveCoin.params atHoard = .error (.world .arithmeticOverflow) atHoard := by
    cases hr : m giveCoin.params atHoard with
    | ok o env' => exact nomatch (hdone _ _ _ _ hr).1
    | error e env' =>
      obtain ⟨rfl, he⟩ := hfails _ _ _ _ hr
      rw [← Except.error.inj he]
  have hnone : ∃ o env',
      m (.ofList [("item", .string "coin"), ("quantity", .int 0)]) atHoard = .ok o env' ∧
      env'.world.actors.get? "bob" = hoard.actors.get? "bob" := by
    cases hr : m (.ofList [("item", .string "coin"), ("quantity", .int 0)]) atHoard with
    | ok o env' => exact ⟨o, env', rfl, (hdone _ _ _ _ hr).2.2.actor "bob" (by decide)⟩
    | error e env' => exact nomatch (hfails _ _ _ _ hr).2
  refine ⟨m, hm, hover, hnone, ?_⟩
  exact hpassed none almsgiving true 0 giveCoin [] (.start { settings := .builtin 8 } hoard 0) _ _
    rfl rfl hover

end ActionHandler

end WorldTriggers
