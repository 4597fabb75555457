import WorldTriggers.Proofs.Atomicity
import WorldTriggers.Proofs.World.Stock

namespace WorldTriggers

open World

def Notice.isOfItem : Notice → Bool
  | entity _ .item _ _ => true
  | _ => false

namespace ActionHandler

def asked? (p : Params) : Option (TemplateId × Nat) := do
  let item ← (p.string "item").toOption
  let quantity ← (p.natural "quantity" 1).toOption
  pure (item, quantity)

def inRoom? (p : Params) (env : ActionEnv) (deal : Holder → TemplateId → Nat → Dealing) :
    Option Dealing := do
  let room ← (env.room p).toOption
  let (item, quantity) ← asked? p
  pure (deal (.room room) item quantity)

def ofActor? (p : Params) (env : ActionEnv) (deal : Holder → TemplateId → Nat → Dealing) :
    Option Dealing := do
  let actor ← env.context.actor
  let (item, quantity) ← asked? p
  pure (deal (.actor actor) item quantity)

def dealing? (kind : String) (p : Params) (env : ActionEnv) : Option Dealing :=
  match kind with
  | "spawn_item" => inRoom? p env .add
  | "despawn_item" => inRoom? p env .remove
  | "give_item" => ofActor? p env .add
  | "take_item" => ofActor? p env .take
  | _ => none

def told (w : World) : Option Dealing → List Notice
  | some (.add (.room room) item _) => [.entity .spawn .item item room]
  | some (.remove (.room room) item quantity) =>
    if min quantity (w.held (.room room) item) = 0 then [] else [.entity .despawn .item item room]
  | some (.take (.room room) item quantity) =>
    if quantity = 0 then [] else [.entity .despawn .item item room]
  | _ => []

def Deals (w : World) (d : Option Dealing) : Except ActionError (Outcome × World) → Prop :=
  Yields fun o w' => Restock w w' d ∧ o.notices.filter Notice.isOfItem = told w d

variable {w w' : World} {kind : String} {d : Option Dealing}

theorem deals_done (h : Restock w w' none) : Deals w none (pure (done w')) := yields_pure ⟨h, rfl⟩

theorem deals_report {n : Notice} (hn : n.isOfItem = false) (h : Restock w w' none) :
    Deals w none (pure (report n w')) :=
  yields_pure ⟨h, by simp [hn, told]⟩

theorem restock_of_map {α : Type} {c : Change} {x : Except WorldError (α × World)} {a : α}
    (happly : c.apply w = x.map (·.2)) (h : x = .ok (a, w')) : Restock w w' c.dealing? :=
  restock_apply (by rw [happly, h]; rfl)

theorem mem_told_iff (h : Restock w w' d) (room : RoomId) (item : TemplateId) :
    (.entity .spawn .item item room ∈ told w d ↔
        w.roomItemCount room item < w'.roomItemCount room item ∨ d = some (.add (.room room) item 0)) ∧
      (.entity .despawn .item item room ∈ told w d ↔
        w'.roomItemCount room item < w.roomItemCount room item) := by
  have hcount : (w'.roomItemCount room item : Int) = w.roomItemCount room item + _ := h.held (.room room) item
  rcases d with _ | ⟨k | a, i, n⟩ | ⟨k | a, i, n⟩ | ⟨k | a, i, n⟩
  case none | some.add.actor | some.remove.actor | some.take.actor =>
    simp [told, Dealing.holder] at hcount ⊢
    omega
  case some.add.room | some.remove.room | some.take.room =>
    by_cases hdealt : room = k ∧ item = i
    · obtain ⟨rfl, rfl⟩ := hdealt
      simp [told, held, Dealing.holder, Dealing.item, dealt] at hcount ⊢
      omega
    · simp [told, held, Dealing.holder, Dealing.item, dealt, hdealt] at hcount ⊢
      grind

section Handlers

variable (p : Params) (env : ActionEnv)

@[simp] theorem deals_messageActor : Deals env.world none (messageActor p env) :=
  yields_bind fun _ _ => yields_bind fun _ _ => deals_report rfl rfl

@[simp] theorem deals_messageRoom : Deals env.world none (messageRoom p env) :=
  yields_bind fun _ _ => yields_bind fun _ _ => deals_report rfl rfl

@[simp] theorem deals_messageArea : Deals env.world none (messageArea p env) :=
  yields_bind fun _ _ => yields_bind fun _ _ => deals_report rfl rfl

@[simp] theorem deals_spawnNpc : Deals env.world none (spawnNpc p env) :=
  yields_bind fun _ _ => yields_bind fun _ _ => yields_change fun _ h =>
    deals_report rfl (restock_spawnNpc h)

@[simp] theorem deals_despawnNpc : Deals env.world none (despawnNpc p env) :=
  yields_bind fun _ _ => yields_bind fun _ _ => yields_change fun _ h =>
    deals_report rfl (restock_despawnNpc h)

@[simp] theorem deals_moveNpc : Deals env.world none (moveNpc p env) := by
  have hmove (source : RoomId) : Deals env.world none (do
      let target ← p.string "to"
      let template ← p.string "template"
      let w ← env.world.moveNpc template source target
      pure ({ notices := [
        .entity .despawn .npc template source, .entity .spawn .npc template target] }, w)) :=
    yields_bind fun target _ => yields_bind fun template _ => yields_change fun _ h =>
      yields_pure ⟨restock_apply (c := .moveNpc template source target) h, rfl⟩
  refine yields_bind fun source _ => ?_
  cases source with
  | none => exact yields_bind fun source _ => hmove source
  | some source => exact hmove source

@[simp] theorem deals_npcSay : Deals env.world none (npcSay p env) := by
  refine yields_bind fun _ _ => yields_bind fun _ _ => ?_
  split
  · exact yields_throw _
  · exact yields_bind fun _ _ => deals_report rfl rfl

@[simp] theorem deals_setFlag : Deals env.world none (setFlag p env) :=
  yields_bind fun room _ => yields_bind fun (flag, value) _ => yields_change fun _ h =>
    deals_done (restock_apply (c := .setRoomFlag room flag value) h)

@[simp] theorem deals_toggleFlag : Deals env.world none (toggleFlag p env) :=
  yields_bind fun room _ => yields_bind fun flag _ => yields_change fun _ h =>
    deals_done (restock_apply (c := .setRoomFlag room flag _) h)

@[simp] theorem deals_openExit : Deals env.world none (openExit p env) :=
  yields_bind fun room _ => yields_bind fun d _ => yields_bind fun target _ =>
    yields_change fun (_, _) h => deals_done (restock_of_map (c := .openExit room d target) rfl h)

@[simp] theorem deals_closeExit : Deals env.world none (closeExit p env) :=
  yields_bind fun room _ => yields_bind fun d _ => yields_change fun (_, _) h =>
    deals_done (restock_of_map (c := .closeExit room d) rfl h)

@[simp] theorem deals_setDescription : Deals env.world none (setDescription p env) :=
  yields_bind fun room _ => yields_bind fun _ _ => yields_change fun _ h =>
    deals_done (restock_apply (c := .setDescription room _) h)

@[simp] theorem deals_resetDescription : Deals env.world none (resetDescription p env) :=
  yields_bind fun room _ => yields_change fun _ h =>
    deals_done (restock_apply (c := .resetDescription room) h)

@[simp] theorem deals_teleport : Deals env.world none (teleport p env) :=
  yields_bind fun actor _ => yields_bind fun target _ => yields_change fun (_, _) h =>
    deals_report rfl (restock_of_map (c := .moveActor actor target) rfl h)

@[simp] theorem deals_applyEffect : Deals env.world none (applyEffect p env) := by
  refine yields_bind fun actor _ => yields_bind fun effect _ => yields_bind fun stat _ =>
    yields_bind fun duration _ => yields_change fun (isNew, w) h => ?_
  have hw := restock_of_map (c := .addEffect actor effect) rfl h
  dsimp only
  split
  · refine yields_pure ⟨hw, ?_⟩
    cases stat <;> rfl
  · exact deals_done hw

@[simp] theorem deals_removeEffect : Deals env.world none (removeEffect p env) :=
  yields_bind fun actor _ => yields_bind fun effect _ => yields_change fun (_, _) h =>
    deals_done (restock_of_map (c := .removeEffect actor effect) rfl h)

theorem deals_adjustHealth (delta : Int) : Deals env.world none (adjustHealth env delta) :=
  yields_bind fun actor _ => yields_change fun (_, _) h =>
    deals_report rfl (restock_of_map (c := .adjustHealth actor delta) rfl h)

@[simp] theorem deals_damage : Deals env.world none (damage p env) :=
  yields_bind fun _ _ => deals_adjustHealth env _

@[simp] theorem deals_heal : Deals env.world none (heal p env) :=
  yields_bind fun _ _ => deals_adjustHealth env _

@[simp] theorem deals_grantExperience : Deals env.world none (grantExperience p env) :=
  yields_bind fun actor _ => yields_bind fun n _ => yields_change fun _ h =>
    deals_report rfl (restock_apply (c := .addExperience actor n.toNat) h)

@[simp] theorem deals_setEnabled (enabled : Bool) : Deals env.world none (setEnabled enabled p env) :=
  yields_bind fun _ _ => yields_pure ⟨rfl, rfl⟩

@[simp] theorem deals_fireTrigger : Deals env.world none (fireTrigger p env) :=
  yields_bind fun _ _ => yields_pure ⟨rfl, rfl⟩

@[simp] theorem deals_cancel : Deals env.world none (cancel p env) := yields_pure ⟨rfl, rfl⟩

end Handlers

section Dealers

variable {p : Params} {env : ActionEnv} {room : RoomId} {actor : ActorId} {item : TemplateId} {quantity : Nat}
  {deal : Holder → TemplateId → Nat → Dealing}

theorem asked?_eq (hitem : (p.string "item" : Except ActionError String) = .ok item)
    (hquantity : (p.natural "quantity" 1 : Except ActionError Nat) = .ok quantity) :
    asked? p = some (item, quantity) := by
  have hitem : p.string "item" = .ok item := mapError_eq_ok.mp hitem
  have hquantity : p.natural "quantity" 1 = .ok quantity := mapError_eq_ok.mp hquantity
  rw [asked?, hitem, hquantity]
  rfl

theorem inRoom?_eq (hroom : env.room p = .ok room)
    (hitem : (p.string "item" : Except ActionError String) = .ok item)
    (hquantity : (p.natural "quantity" 1 : Except ActionError Nat) = .ok quantity) :
    inRoom? p env deal = some (deal (.room room) item quantity) := by
  rw [inRoom?, hroom, asked?_eq hitem hquantity]
  rfl

theorem ofActor?_eq (hactor : env.actor = .ok actor)
    (hitem : (p.string "item" : Except ActionError String) = .ok item)
    (hquantity : (p.natural "quantity" 1 : Except ActionError Nat) = .ok quantity) :
    ofActor? p env deal = some (deal (.actor actor) item quantity) := by
  rw [ofActor?, actor_eq_ok.mp hactor, asked?_eq hitem hquantity]
  rfl

variable (p env)

@[simp] theorem deals_spawnItem : Deals env.world (dealing? "spawn_item" p env) (spawnItem p env) := by
  refine yields_bind fun room hroom => yields_bind fun item hitem => yields_bind fun quantity hquantity =>
    yields_change fun w h => ?_
  rw [dealing?, inRoom?_eq hroom hitem hquantity]
  exact yields_pure ⟨restock_apply (c := .addRoomItems room item quantity) h, rfl⟩

@[simp] theorem deals_despawnItem : Deals env.world (dealing? "despawn_item" p env) (despawnItem p env) := by
  refine yields_bind fun room hroom => yields_bind fun item hitem => yields_bind fun quantity hquantity =>
    yields_change fun (removed, w) h => ?_
  have hrestock := restock_of_map (c := .removeRoomItems room item quantity) rfl h
  rw [dealing?, inRoom?_eq hroom hitem hquantity]
  obtain rfl := removed_eq h
  dsimp only
  split
  · exact yields_pure ⟨hrestock, (if_pos ‹_›).symm⟩
  · exact yields_pure ⟨hrestock, (if_neg ‹_›).symm⟩

@[simp] theorem deals_giveItem : Deals env.world (dealing? "give_item" p env) (giveItem p env) := by
  refine yields_bind fun actor hactor => yields_bind fun item hitem => yields_bind fun quantity hquantity =>
    yields_change fun w h => ?_
  rw [dealing?, ofActor?_eq hactor hitem hquantity]
  exact yields_pure ⟨restock_apply (c := .giveItem actor item quantity) h, rfl⟩

@[simp] theorem deals_takeItem : Deals env.world (dealing? "take_item" p env) (takeItem p env) := by
  refine yields_bind fun actor hactor => yields_bind fun item hitem => yields_bind fun quantity hquantity =>
    yields_change fun w h => ?_
  rw [dealing?, ofActor?_eq hactor hitem hquantity]
  exact yields_pure ⟨restock_apply (c := .takeItem actor item quantity) h, rfl⟩

end Dealers

theorem deals_builtin {act : ActionHandler} (h : ActionRegistry.builtin.get? kind = some act)
    (p : Params) (env : ActionEnv) : Deals env.world (dealing? kind p env) (act p env) := by
  have hmem := SortedMap.mem_ofList (SortedMap.get?_eq_some_iff.mp h)
  simp only [List.mem_cons, Prod.mk.injEq, List.not_mem_nil, or_false] at hmem
  repeat
    rcases hmem with ⟨rfl, rfl⟩ | hmem
    · first
      | exact deals_spawnItem p env
      | exact deals_despawnItem p env
      | exact deals_giveItem p env
      | exact deals_takeItem p env
      | simp [dealing?]
  obtain ⟨rfl, rfl⟩ := hmem
  simp [dealing?]

end ActionHandler

inductive Act where
  | change (c : World.Change)
  | action (kind : String) (p : Params) (context : Context) (scope : Scope)

namespace Act

open ActionHandler (told deals_builtin)

def Fits : Act → Prop
  | change c => c.Fits
  | action .. => True

def perform : Act → EStateM ActionError World (List Notice)
  | change c => fun w =>
    match c.inPlace w with
    | .ok _ w => .ok [] w
    | .error e w => .error (.world e) w
  | action kind p context scope => fun w =>
    match ActionHandler.InPlace.builtin.get? kind with
    | none => .ok [] w
    | some m =>
      match m p ⟨w, context, scope⟩ with
      | .ok o env => .ok o.notices env.world
      | .error e env => .error e env.world

def dealing? (w : World) : Act → Option Dealing
  | change c => c.dealing?
  | action kind p context scope => ActionHandler.dealing? kind p ⟨w, context, scope⟩

def after (w : World) (d : Act) : World :=
  match d.perform w with
  | .ok _ w => w
  | .error _ w => w

/-- Nothing is added to nothing. -/
def AddsEmptyStack (w : World) (d : Act) : Prop :=
  (∃ notices w', d.perform w = .ok notices w') ∧
    ∃ h item, d.dealing? w = some (.add h item 0) ∧ w.held h item = 0

theorem dealing?_of_unknown {kind : String} (h : ActionHandler.InPlace.builtin.get? kind = none)
    (p : Params) (env : ActionEnv) : ActionHandler.dealing? kind p env = none := by
  unfold ActionHandler.dealing?
  split
  · exact nomatch h
  · exact nomatch h
  · exact nomatch h
  · exact nomatch h
  · rfl

theorem perform_change {c : Change} (hc : c.Fits) (w : World) :
    (∃ e, (Act.change c).perform w = .error e w) ∨
      ∃ w', (Act.change c).perform w = .ok [] w' ∧ Restock w w' c.dealing? := by
  have hperform : (Act.change c).perform w = match c.inPlace w with
    | .ok _ w => .ok [] w
    | .error e w => .error (.world e) w := rfl
  rw [hperform, Change.inPlace_eq hc, InPlace.commit_apply]
  cases happly : c.apply w with
  | error e => exact .inl ⟨_, rfl⟩
  | ok w' => exact .inr ⟨w', rfl, restock_apply happly⟩

theorem perform_action (kind : String) (p : Params) (context : Context) (scope : Scope) (w : World) :
    (∃ e, (Act.action kind p context scope).perform w = .error e w) ∨
      ∃ notices w', (Act.action kind p context scope).perform w = .ok notices w' ∧
        Restock w w' (ActionHandler.dealing? kind p ⟨w, context, scope⟩) ∧
        notices.filter Notice.isOfItem = told w (ActionHandler.dealing? kind p ⟨w, context, scope⟩) := by
  unfold perform
  dsimp only
  cases hm : ActionHandler.InPlace.builtin.get? kind with
  | none =>
    rw [dealing?_of_unknown hm]
    exact .inr ⟨[], w, rfl, rfl, rfl⟩
  | some m =>
    have hatomic := ActionHandler.InPlace.atomic_of_get? hm p ⟨w, context, scope⟩
    have hact : ActionRegistry.builtin.get? kind = some m.forget := by
      rw [ActionRegistry.get?, ActionHandler.InPlace.handlers_builtin, SortedMap.get?_map, hm]
      rfl
    have hdeals := deals_builtin hact p ⟨w, context, scope⟩
    dsimp only
    cases hr : m p ⟨w, context, scope⟩ with
    | ok o env =>
      obtain ⟨hok, -, -⟩ := (hr ▸ hatomic).of_ok
      exact .inr ⟨o.notices, env.world, rfl, hdeals o env.world hok⟩
    | error e env =>
      obtain ⟨rfl, -⟩ := (hr ▸ hatomic).of_error
      exact .inl ⟨e, rfl⟩

theorem after_cases {d : Act} (hd : d.Fits) (w : World) :
    (∃ e, d.perform w = .error e w ∧ d.after w = w) ∨
      ∃ notices, d.perform w = .ok notices (d.after w) ∧ Restock w (d.after w) (d.dealing? w) := by
  have hcases : (∃ e, d.perform w = .error e w) ∨
      ∃ notices w', d.perform w = .ok notices w' ∧ Restock w w' (d.dealing? w) := by
    cases d with
    | change c =>
      rcases perform_change hd w with herror | ⟨w', hok, hrestock⟩
      · exact .inl herror
      · exact .inr ⟨[], w', hok, hrestock⟩
    | action kind p context scope =>
      rcases perform_action kind p context scope w with herror | ⟨notices, w', hok, hrestock, -⟩
      · exact .inl herror
      · exact .inr ⟨notices, w', hok, hrestock⟩
  unfold after
  rcases hcases with ⟨e, he⟩ | ⟨notices, w', hok, hrestock⟩
  · exact .inl ⟨e, he, by rw [he]⟩
  · rw [hok]
    exact .inr ⟨notices, rfl, hrestock⟩

theorem stocked_after_iff {d : Act} (hd : d.Fits) {w : World} (hw : w.Stocked) :
    (d.after w).Stocked ↔ ¬ d.AddsEmptyStack w := by
  rcases after_cases hd w with ⟨e, he, hsame⟩ | ⟨notices, hok, hrestock⟩
  · rw [hsame]
    refine ⟨?_, fun _ => hw⟩
    rintro - ⟨⟨notices, w', hok⟩, -⟩
    cases he.symm.trans hok
  · rw [hw.restock hrestock, AddsEmptyStack]
    exact ⟨fun h hd => h hd.2, fun h hd => h ⟨⟨notices, _, hok⟩, hd⟩⟩

theorem carried_after {d : Act} (hd : d.Fits) {w : World} (hw : w.Carried) : (d.after w).Carried := by
  rcases after_cases hd w with ⟨e, -, hsame⟩ | ⟨notices, -, hrestock⟩
  · rwa [hsame]
  · exact hw.restock hrestock

end Act

namespace World

variable {f : WorldFixture} {w : World} {ds : List Act}

def afterActs (w : World) (ds : List Act) : World := ds.foldl Act.after w

theorem stocked_along_iff (hds : ∀ d ∈ ds, d.Fits) :
    (∀ before, before <+: ds → (w.afterActs before).Stocked) ↔
      w.Stocked ∧ ∀ before d, before ++ [d] <+: ds → ¬ d.AddsEmptyStack (w.afterActs before) := by
  induction ds generalizing w with
  | nil => simp [afterActs]
  | cons d ds ih =>
    obtain ⟨hd, hds⟩ := List.forall_mem_cons.mp hds
    have htail := ih (w := d.after w) hds
    constructor
    · intro h
      have hw : w.Stocked := h [] (List.nil_prefix)
      have hafter : (d.after w).Stocked := h [d] (List.prefix_cons_inj d |>.mpr List.nil_prefix)
      obtain ⟨-, hlater⟩ := htail.mp fun before hb => h (d :: before) ((List.prefix_cons_inj d).mpr hb)
      refine ⟨hw, fun before x hx => ?_⟩
      cases before with
      | nil =>
        obtain rfl : x = d := (List.cons_prefix_cons.mp hx).1
        exact (Act.stocked_after_iff hd hw).mp hafter
      | cons y before =>
        obtain ⟨rfl, hrest⟩ := List.cons_prefix_cons.mp hx
        exact hlater before x hrest
    · rintro ⟨hw, hsound⟩
      have hfirst : ¬ d.AddsEmptyStack w := hsound [] d (List.cons_prefix_cons.mpr ⟨rfl, List.nil_prefix⟩)
      have hlater := htail.mpr ⟨(Act.stocked_after_iff hd hw).mpr hfirst, fun before x hx =>
        hsound (d :: before) x (List.cons_prefix_cons.mpr ⟨rfl, hx⟩)⟩
      intro before hb
      cases before with
      | nil => exact hw
      | cons y before =>
        obtain ⟨rfl, hrest⟩ := List.cons_prefix_cons.mp hb
        exact hlater before hrest

theorem carried_afterActs (hds : ∀ d ∈ ds, d.Fits) (hw : w.Carried) : (w.afterActs ds).Carried := by
  induction ds generalizing w with
  | nil => exact hw
  | cons d ds ih =>
    obtain ⟨hd, hds⟩ := List.forall_mem_cons.mp hds
    exact ih hds (Act.carried_after hd hw)

end World

section Fixtures

variable {f : WorldFixture} {w : World}

def WorldFixture.Stocked (f : WorldFixture) : Prop :=
  (∀ x ∈ f.rooms, x.items.Positive) ∧ ∀ x ∈ f.actors, x.inventory.Positive

instance (f : WorldFixture) : Decidable f.Stocked := inferInstanceAs (Decidable (_ ∧ _))

def WorldFixture.Carried (f : WorldFixture) : Prop :=
  ∀ x ∈ f.actors, ∀ item ∈ x.equipped, 0 < x.inventory.count item

instance (f : WorldFixture) : Decidable f.Carried :=
  inferInstanceAs (Decidable (∀ x ∈ f.actors, ∀ item ∈ x.equipped, 0 < x.inventory.count item))

theorem stocked_iff_of_built (h : Built f w) : w.Stocked ↔ f.Stocked := by
  constructor
  · intro hw
    refine ⟨fun x hx => ?_, fun x hx => ?_⟩
    · have hr := (h.rooms x.id x.build).mpr ⟨x, hx, rfl, rfl⟩
      have hpositive := hw (.room x.id) x.build.stock (by rw [stock?, hr]; rfl)
      rwa [Stock.Positive, Room.stock, (RoomFixture.build_eq x).2.2] at hpositive
    · have ha := (h.actors x.id x.build).mpr ⟨x, hx, rfl, rfl⟩
      exact hw (.actor x.id) x.build.stock (by rw [stock?, ha]; rfl)
  · rintro ⟨hrooms, hactors⟩ (room | actor) s hs
    · obtain ⟨r, hr, rfl⟩ := Option.map_eq_some_iff.mp hs
      obtain ⟨x, hx, -, rfl⟩ := (h.rooms room r).mp hr
      rw [Stock.Positive, Room.stock, (RoomFixture.build_eq x).2.2]
      exact hrooms x hx
    · obtain ⟨a, ha, rfl⟩ := Option.map_eq_some_iff.mp hs
      obtain ⟨x, hx, -, rfl⟩ := (h.actors actor a).mp ha
      exact hactors x hx

theorem carried_of_built (h : Built f w) (hf : f.Carried) : w.Carried := by
  rintro (room | actor) s hs item hitem
  · obtain ⟨r, -, rfl⟩ := Option.map_eq_some_iff.mp hs
    cases hitem
  · obtain ⟨a, ha, rfl⟩ := Option.map_eq_some_iff.mp hs
    obtain ⟨x, hx, -, rfl⟩ := (h.actors actor a).mp ha
    obtain ⟨u, hu⟩ := SortedMap.contains_eq_true_iff.mp hitem
    have hmem := SortedMap.mem_ofList (SortedMap.get?_eq_some_iff.mp hu)
    obtain ⟨k, hk, heq⟩ := List.mem_map.mp hmem
    cases heq
    exact hf x hx item hk

end Fixtures

namespace World

/-- A world that is built keeps account of its items, whatever is done to it with quantities of 32 bits. No
stack is empty for as long as none is in the fixture and nothing is added to nothing, and actors go on
carrying what they wear. What is done changes one number by what was dealt, and what fails changes none.
Actions tell of items that appear in a room, or vanish from it, where there are more or fewer of them than
before; only an action that adds none tells of it too. -/
theorem accounts_of_build {f : WorldFixture} {w : World} (hbuild : f.build = .ok w) (ds : List Act)
    (hds : ∀ d ∈ ds, d.Fits) :
    ((∀ before, before <+: ds → (w.afterActs before).Stocked) ↔
        f.Stocked ∧ ∀ before d, before ++ [d] <+: ds → ¬ d.AddsEmptyStack (w.afterActs before)) ∧
      (f.Carried → (w.afterActs ds).Carried) ∧
      ∀ v, v = w.afterActs ds →
        (∀ d : Act, d.Fits → (∃ e, d.perform v = .error e v) ∨ ∃ notices v',
          d.perform v = .ok notices v' ∧ ∀ h item, (v'.held h item : Int) = v.held h item +
            ((d.dealing? v).elim 0 fun x => if h = x.holder ∧ item = x.item then v.dealt x else 0)) ∧
        (∀ room item quantity n v', InPlace.removeRoomItems room item quantity v = .ok n v' →
          n = min quantity (v.roomItemCount room item)) ∧
        ∀ kind p context scope notices v',
          (Act.action kind p context scope).perform v = .ok notices v' → ∀ room item,
          (.entity .spawn .item item room ∈ notices ↔
            v.roomItemCount room item < v'.roomItemCount room item ∨
              (Act.action kind p context scope).dealing? v = some (.add (.room room) item 0)) ∧
          (.entity .despawn .item item room ∈ notices ↔
            v'.roomItemCount room item < v.roomItemCount room item) := by
  have hbuilt := built_of_build hbuild
  refine ⟨?_, fun hf => carried_afterActs hds (carried_of_built hbuilt hf), fun v hv => ⟨?_, ?_, ?_⟩⟩
  · rw [stocked_along_iff hds, stocked_iff_of_built hbuilt]
  · intro d hd
    rcases Act.after_cases hd v with ⟨e, he, -⟩ | ⟨notices, hok, hrestock⟩
    · exact .inl ⟨e, he⟩
    · exact .inr ⟨notices, _, hok, hrestock.held⟩
  · intro room item quantity n v' h
    rw [InPlace.removeRoomItems_eq, WorldTriggers.InPlace.commit_apply] at h
    split at h <;> cases h
    exact removed_eq ‹_›
  · intro kind p context scope notices v' hok room item
    rcases Act.perform_action kind p context scope v with ⟨e, he⟩ | ⟨notices, v', hok', hrestock, htold⟩
    · cases he.symm.trans hok
    · cases hok'.symm.trans hok
      have hmem (c : EntityChange) : .entity c .item item room ∈ notices ↔
          .entity c .item item room ∈ notices.filter Notice.isOfItem := by
        simp [List.mem_filter, Notice.isOfItem]
      rw [hmem, hmem, htold]
      exact ActionHandler.mem_told_iff hrestock room item

def handover : List Act := [
  .action "give_item" (.ofList [("item", .string "torch"), ("quantity", .int 3)]) { actor := some "alice" }
    (.room "hall"),
  .change (.takeItem "alice" "torch" 5),
  .action "spawn_item" (.ofList [("item", .string "torch"), ("quantity", .int 6)]) {} (.room "hall"),
  .action "spawn_item" (.ofList [("item", .string "torch"), ("room", .string "hall")]) {} (.area "keep")]

theorem accounts_stairs : ∃ w, stairs.build = .ok w ∧ (w.afterActs handover).Stocked ∧
    (w.afterActs handover).Carried ∧
    (w.afterActs handover).actorItemCount "alice" "torch" = 0 ∧
    (w.afterActs handover).roomItemCount "hall" "torch" = 4294967291 := by
  have hafter : (stairs.build.map fun w =>
      ((w.afterActs handover).actorItemCount "alice" "torch",
        (w.afterActs handover).roomItemCount "hall" "torch")) = .ok (0, 4294967291) := by decide +kernel
  obtain ⟨w, hbuild, hw⟩ := map_eq_ok.mp hafter
  obtain ⟨halice, hhall⟩ := Prod.mk.inj hw
  have hfits : ∀ d ∈ handover, d.Fits := by simp [handover, Act.Fits, Change.Fits]
  have hsound : ∀ d ∈ handover, ∀ w h item, d.dealing? w ≠ some (.add h item 0) := by
    intro d hd w h item hadd
    simp only [handover, List.mem_cons, List.not_mem_nil, or_false] at hd
    rcases hd with rfl | rfl | rfl | rfl <;> cases hadd
  obtain ⟨hstocked, hcarried, -⟩ := accounts_of_build hbuild handover hfits
  refine ⟨w, hbuild, ?_, hcarried (by decide), halice, hhall⟩
  refine hstocked.mpr ⟨by decide, fun before d hd ⟨_, h, item, hadd, _⟩ => ?_⟩ handover List.prefix_rfl
  exact hsound d (hd.subset (by simp)) _ h item hadd

def spawnNoCoin : Act :=
  .action "spawn_item" (.ofList [("item", .string "coin"), ("quantity", .int 0)]) {} (.room "hall")

def giveNoCoin : Act :=
  .action "give_item" (.ofList [("item", .string "coin"), ("quantity", .int 0)]) { actor := some "alice" }
    (.room "hall")

/-- Actions that put down no coins and hand over no coins leave stacks of nothing behind, and the first is
told of as if there were coins now. -/
theorem empty_stacks_left : ∃ w v, stairs.build = .ok w ∧ stairs.Stocked ∧
    ((w.afterActs [spawnNoCoin, giveNoCoin]).rooms.get? "hall").bind (·.items.get? "coin") = some 0 ∧
    ((w.afterActs [spawnNoCoin, giveNoCoin]).actors.get? "alice").bind (·.inventory.get? "coin") = some 0 ∧
    spawnNoCoin.perform w = .ok [.entity .spawn .item "coin" "hall"] v ∧
    v.roomItemCount "hall" "coin" = w.roomItemCount "hall" "coin" := by
  have hafter : (stairs.build.map fun w =>
      (((w.afterActs [spawnNoCoin, giveNoCoin]).rooms.get? "hall").bind (·.items.get? "coin"),
        ((w.afterActs [spawnNoCoin, giveNoCoin]).actors.get? "alice").bind (·.inventory.get? "coin"),
        match spawnNoCoin.perform w with
        | .ok notices v => some (notices, v.roomItemCount "hall" "coin", w.roomItemCount "hall" "coin")
        | .error .. => none)) =
      .ok (some 0, some 0, some ([.entity .spawn .item "coin" "hall"], 0, 0)) := by decide +kernel
  obtain ⟨w, hbuild, hw⟩ := map_eq_ok.mp hafter
  simp only [Prod.mk.injEq] at hw
  obtain ⟨hhall, halice, hspawn⟩ := hw
  split at hspawn
  · rename_i notices v hperform
    simp only [Option.some.injEq, Prod.mk.injEq] at hspawn
    obtain ⟨rfl, hafter, hbefore⟩ := hspawn
    exact ⟨w, v, hbuild, by decide, hhall, halice, hperform, hafter.trans hbefore.symm⟩
  · cases hspawn

end World

end WorldTriggers
