import WorldTriggers.Proofs.World.Census

namespace WorldTriggers.ActionHandler

open World

def ReportsChanges (kind : String) (w : World) : Except ActionError (Outcome × World) → Prop :=
  Yields fun o w' => Tells w (o.notices.map (Emission.mk (some kind))) w'

variable {kind : String} {w w' : World}

theorem reportsChanges_done (hw : w'.census = w.census) : ReportsChanges kind w (pure (done w')) :=
  yields_pure (tells_nil hw)

theorem reportsChanges_message (audience : Audience) (text : String) :
    ReportsChanges kind w (pure (report (.message audience text) w)) :=
  yields_pure (tells_single rfl rfl nofun)

theorem reportsChanges_item (change : EntityChange) (item : TemplateId) (room : RoomId)
    (hw : w'.census = w.census) : ReportsChanges kind w (pure (report (.entity change .item item room) w')) :=
  yields_pure (tells_single rfl (by cases change <;> exact hw.symm) nofun)

theorem census_of_map {α : Type} {c : Change} {x : Except WorldError (α × World)} {a : α}
    (hc : c.isQuiet = true) (happly : c.apply w = x.map (·.2)) (h : x = .ok (a, w')) :
    w'.census = w.census :=
  census_apply hc (by rw [happly, h]; rfl)

section Handlers

variable (kind : String) (p : Params) (env : ActionEnv)

@[simp] theorem reportsChanges_messageActor : ReportsChanges kind env.world (messageActor p env) :=
  yields_bind fun _ _ => yields_bind fun _ _ => reportsChanges_message _ _

@[simp] theorem reportsChanges_messageRoom : ReportsChanges kind env.world (messageRoom p env) :=
  yields_bind fun _ _ => yields_bind fun _ _ => reportsChanges_message _ _

@[simp] theorem reportsChanges_messageArea : ReportsChanges kind env.world (messageArea p env) :=
  yields_bind fun _ _ => yields_bind fun _ _ => reportsChanges_message _ _

@[simp] theorem reportsChanges_spawnNpc : ReportsChanges kind env.world (spawnNpc p env) :=
  yields_bind fun _ _ => yields_bind fun _ _ => yields_change fun _ h =>
    yields_pure (tells_single rfl (census_spawnNpc h).symm nofun)

@[simp] theorem reportsChanges_despawnNpc : ReportsChanges kind env.world (despawnNpc p env) :=
  yields_bind fun _ _ => yields_bind fun _ _ => yields_change fun _ h =>
    yields_pure (tells_single rfl (census_despawnNpc h).symm nofun)

@[simp] theorem reportsChanges_moveNpc : ReportsChanges kind env.world (moveNpc p env) := by
  have hmove (source : RoomId) : ReportsChanges kind env.world (do
      let target ← p.string "to"
      let template ← p.string "template"
      let w ← env.world.moveNpc template source target
      pure ({ notices := [
        .entity .despawn .npc template source, .entity .spawn .npc template target] }, w)) := by
    refine yields_bind fun target _ => yields_bind fun template _ => yields_change fun w hw => ?_
    obtain ⟨-, -, h⟩ := bind_eq_ok.mp hw
    obtain ⟨mid, hmid, h⟩ := bind_eq_ok.mp h
    have hleft := tells_single (m := ⟨some kind, .entity .despawn .npc template source⟩) rfl
      (census_despawnNpc hmid).symm nofun
    exact yields_pure (hleft.trans (tells_single rfl (census_spawnNpc h).symm nofun))
  refine yields_bind fun source _ => ?_
  cases source with
  | none => exact yields_bind fun source _ => hmove source
  | some source => exact hmove source

@[simp] theorem reportsChanges_npcSay : ReportsChanges kind env.world (npcSay p env) := by
  refine yields_bind fun _ _ => yields_bind fun _ _ => ?_
  split
  · exact yields_throw _
  · exact yields_bind fun _ _ => reportsChanges_message _ _

@[simp] theorem reportsChanges_setFlag : ReportsChanges kind env.world (setFlag p env) :=
  yields_bind fun room _ => yields_bind fun (flag, value) _ => yields_change fun _ h =>
    reportsChanges_done (census_apply (c := .setRoomFlag room flag value) rfl h)

@[simp] theorem reportsChanges_toggleFlag : ReportsChanges kind env.world (toggleFlag p env) :=
  yields_bind fun room _ => yields_bind fun flag _ => yields_change fun _ h =>
    reportsChanges_done (census_apply (c := .setRoomFlag room flag _) rfl h)

@[simp] theorem reportsChanges_openExit : ReportsChanges kind env.world (openExit p env) :=
  yields_bind fun room _ => yields_bind fun d _ => yields_bind fun target _ =>
    yields_change fun (_, _) h => reportsChanges_done (census_of_map (c := .openExit room d target) rfl rfl h)

@[simp] theorem reportsChanges_closeExit : ReportsChanges kind env.world (closeExit p env) :=
  yields_bind fun room _ => yields_bind fun d _ => yields_change fun (_, _) h =>
    reportsChanges_done (census_of_map (c := .closeExit room d) rfl rfl h)

@[simp] theorem reportsChanges_setDescription : ReportsChanges kind env.world (setDescription p env) :=
  yields_bind fun room _ => yields_bind fun _ _ => yields_change fun _ h =>
    reportsChanges_done (census_apply (c := .setDescription room _) rfl h)

@[simp] theorem reportsChanges_resetDescription : ReportsChanges kind env.world (resetDescription p env) :=
  yields_bind fun room _ => yields_change fun _ h =>
    reportsChanges_done (census_apply (c := .resetDescription room) rfl h)

@[simp] theorem reportsChanges_spawnItem : ReportsChanges kind env.world (spawnItem p env) :=
  yields_bind fun room _ => yields_bind fun item _ => yields_bind fun quantity _ =>
    yields_change fun _ h =>
      reportsChanges_item _ _ _ (census_apply (c := .addRoomItems room item quantity) rfl h)

@[simp] theorem reportsChanges_despawnItem : ReportsChanges kind env.world (despawnItem p env) := by
  refine yields_bind fun room _ => yields_bind fun item _ => yields_bind fun quantity _ =>
    yields_change fun (_, _) h => ?_
  have hw := census_of_map (c := .removeRoomItems room item quantity) rfl rfl h
  dsimp only
  split
  · exact reportsChanges_done hw
  · exact reportsChanges_item _ _ _ hw

@[simp] theorem reportsChanges_teleport : ReportsChanges kind env.world (teleport p env) := by
  refine yields_bind fun actor _ => yields_bind fun target _ => yields_change fun (source, w) h => ?_
  obtain ⟨hsource, hw⟩ := census_moveActor h
  refine yields_pure (tells_single rfl hw.symm fun k s t hmoved => ?_)
  cases hmoved
  exact hsource

@[simp] theorem reportsChanges_removeEffect : ReportsChanges kind env.world (removeEffect p env) :=
  yields_bind fun actor _ => yields_bind fun effect _ => yields_change fun (_, _) h =>
    reportsChanges_done (census_of_map (c := .removeEffect actor effect) rfl rfl h)

@[simp] theorem reportsChanges_giveItem : ReportsChanges kind env.world (giveItem p env) :=
  yields_bind fun actor _ => yields_bind fun item _ => yields_bind fun quantity _ =>
    yields_change fun _ h => reportsChanges_done (census_apply (c := .giveItem actor item quantity) rfl h)

@[simp] theorem reportsChanges_takeItem : ReportsChanges kind env.world (takeItem p env) :=
  yields_bind fun actor _ => yields_bind fun item _ => yields_bind fun quantity _ =>
    yields_change fun _ h => reportsChanges_done (census_apply (c := .takeItem actor item quantity) rfl h)

@[simp] theorem reportsChanges_setEnabled (enabled : Bool) :
    ReportsChanges kind env.world (setEnabled enabled p env) :=
  yields_bind fun _ _ => yields_pure (tells_nil rfl)

@[simp] theorem reportsChanges_fireTrigger : ReportsChanges kind env.world (fireTrigger p env) :=
  yields_bind fun _ _ => yields_pure (tells_nil rfl)

@[simp] theorem reportsChanges_cancel : ReportsChanges kind env.world (cancel p env) :=
  yields_pure (tells_nil rfl)

@[simp] theorem reportsChanges_applyEffect : ReportsChanges "apply_effect" env.world (applyEffect p env) := by
  refine yields_bind fun actor _ => yields_bind fun effect _ => yields_bind fun stat _ =>
    yields_bind fun duration _ => yields_change fun (isNew, w) h => ?_
  have hw := census_of_map (c := .addEffect actor effect) rfl rfl h
  dsimp only
  split
  · cases stat with
    | none => exact yields_pure (tells_nil hw)
    | some s => exact yields_pure (tells_single rfl hw.symm nofun)
  · exact reportsChanges_done hw

theorem reportsChanges_adjustHealth {kind : String} (hkind : kind = "damage" ∨ kind = "heal") (delta : Int) :
    ReportsChanges kind env.world (adjustHealth env delta) :=
  yields_bind fun actor _ => yields_change fun (change, w) h => by
    refine yields_pure (tells_single rfl ?_ nofun)
    rw [census_adjustHealth h]
    exact if_pos (by simpa using hkind)

@[simp] theorem reportsChanges_damage : ReportsChanges "damage" env.world (damage p env) :=
  yields_bind fun _ _ => reportsChanges_adjustHealth env (.inl rfl) _

@[simp] theorem reportsChanges_heal : ReportsChanges "heal" env.world (heal p env) :=
  yields_bind fun _ _ => reportsChanges_adjustHealth env (.inr rfl) _

theorem amount_nonneg {n : Int} (h : amount p = .ok n) : 0 ≤ n := by
  obtain ⟨m, -, h⟩ := bind_eq_ok.mp h
  split at h
  · cases h
  · cases h
    omega

@[simp] theorem reportsChanges_grantExperience :
    ReportsChanges "grant_xp" env.world (grantExperience p env) := by
  refine yields_bind fun actor _ => yields_bind fun n hn => yields_change fun w h => ?_
  refine yields_pure (tells_single rfl ?_ nofun)
  rw [census_addExperience h, Int.toNat_of_nonneg (amount_nonneg p hn)]
  rfl

end Handlers

theorem reportsChanges_builtin {act : ActionHandler} (h : ActionRegistry.builtin.get? kind = some act)
    (p : Params) (env : ActionEnv) : ReportsChanges kind env.world (act p env) := by
  have hmem := SortedMap.mem_ofList (SortedMap.get?_eq_some_iff.mp h)
  simp only [List.mem_cons, Prod.mk.injEq, List.not_mem_nil, or_false] at hmem
  repeat
    rcases hmem with ⟨rfl, rfl⟩ | hmem
    · simp
  obtain ⟨rfl, rfl⟩ := hmem
  simp

end WorldTriggers.ActionHandler
