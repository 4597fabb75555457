import WorldTriggers.Proofs.Engine.Lifecycle

/-!
The public operations of an engine, and the engines that sequences of them lead to. Every such engine
is linked and live.
-/

namespace WorldTriggers

inductive Operation where
  | load (content : Content) (now : Instant)
  | reload (content : Content) (now : Instant)
  | unload (scope : Scope)
  | setEnabled (ref : RuleRef) (enabled : Bool) (now : Instant)
  | fire (world : World) (scope : Scope) (event : EventKind) (context : Context) (now : Instant)
  | handle (world : World) (occurrence : Occurrence) (now : Instant)
  | fireRule (world : World) (ref : RuleRef) (context : Context) (now : Instant)
  | advance (budget : Nat) (world : World) (now : Instant)
  | restore (records : List Record)

def Operation.Authored : Operation → Prop
  | load c _ => c.Authored
  | reload c _ => c.Authored
  | _ => True

def Operation.time? : Operation → Option Instant
  | load _ now => some now
  | reload _ now => some now
  | setEnabled _ _ now => some now
  | fire _ _ _ _ now => some now
  | handle _ _ now => some now
  | fireRule _ _ _ now => some now
  | advance _ _ now => some now
  | unload _ => none
  | restore _ => none

def Rule.plain (id : RuleId) (event : EventKind) (actions : List Action) : Rule where
  id := id
  event := event
  conditions := []
  actions := actions
  cooldown := 0
  maxFires := -1
  enabled := true
  permanent := false
  commandPattern := none
  timerInterval := none
  timerInitialDelay := 0

namespace Engine

variable {e e' : Engine} {op : Operation}

/-- The engine after an operation. There is none when `advance` has more jobs to run than its budget
allows; what fails leaves the engine as it was. -/
def perform (e : Engine) : Operation → Option Engine
  | .load c now => some (e.load c now).2
  | .reload c now => some (e.reload c now).2
  | .unload scope => some (e.unload scope).2
  | .setEnabled ref enabled now =>
    match e.setEnabled ref enabled now with
    | .ok (_, e') => some e'
    | .error _ => some e
  | .fire w scope event context now => some (e.fire w scope event context now).2.1
  | .handle w o now => some (e.handle w o now).2.1
  | .fireRule w ref context now =>
    match e.fireRule w ref context now with
    | .ok (_, e', _) => some e'
    | .error _ => some e
  | .advance budget w now => (e.advance budget w now).map (·.2.1)
  | .restore records => some (e.restore records).2

/-- The engines to which a sequence of operations leads, the latest operation first. -/
inductive Reaches (settings : Settings) : List Operation → Engine → Prop where
  | start : Reaches settings [] (.ofSettings settings)
  | next {ops : List Operation} {e e' : Engine} {op : Operation} (h : Reaches settings ops e)
      (ha : op.Authored) (hp : e.perform op = some e') : Reaches settings (op :: ops) e'

def after? (settings : Settings) : List Operation → Option Engine
  | [] => some (.ofSettings settings)
  | op :: ops => (after? settings ops).bind (·.perform op)

theorem reaches_iff {settings : Settings} {ops : List Operation} :
    Reaches settings ops e ↔ (∀ op ∈ ops, op.Authored) ∧ after? settings ops = some e := by
  constructor
  · intro h
    induction h with
    | start => exact ⟨List.forall_mem_nil _, rfl⟩
    | next h ha hp ih =>
      refine ⟨List.forall_mem_cons.mpr ⟨ha, ih.1⟩, ?_⟩
      rw [after?, ih.2]
      exact hp
  · rintro ⟨ha, he⟩
    induction ops generalizing e with
    | nil =>
      cases he
      exact .start
    | cons op ops ih =>
      obtain ⟨e, he, hp⟩ := Option.bind_eq_some_iff.mp he
      obtain ⟨hop, hops⟩ := List.forall_mem_cons.mp ha
      exact .next (ih hops he) hop hp

theorem exists_reaches (settings : Settings) (ops : List Operation) (p : Engine → Bool)
    (ha : ∀ op ∈ ops, op.Authored) (h : (after? settings ops).any p = true) :
    ∃ e, Reaches settings ops e ∧ p e = true := by
  obtain ⟨e, he, hp⟩ := (Option.any_eq_true p _).mp h
  exact ⟨e, reaches_iff.mpr ⟨ha, he⟩, hp⟩

section Dispatch

variable {w : World} {now : Instant}

theorem offers_fire (hsound : e.catalog.Sound) (w : World) (scope : Scope) (event : EventKind)
    (context : Context) (now : Instant) :
    ∃ run, Run.Offers (Run.start e w now) run ∧ (e.fire w scope event context now).2.1 = run.engine :=
  ⟨_, Run.offers_fireIn hsound scope event context, rfl⟩

theorem offers_fireRule {ref : RuleRef} {context : Context} {d : Dispatch} {w' : World}
    (h : e.fireRule w ref context now = .ok (d, e', w')) :
    ∃ run, Run.Offers (Run.start e w now) run ∧ e' = run.engine := by
  unfold fireRule at h
  obtain ⟨⟨epoch, rule⟩, ht, h⟩ := bind_eq_ok.mp h
  have ht := target_eq_ok_iff.mp ht
  cases h
  exact ⟨_, .single ⟨_, installed_of_target? ht context, Run.leads_offer _ _⟩, rfl⟩

theorem offers_handle (hsound : e.catalog.Sound) (w : World) (o : Occurrence) (now : Instant) :
    ∃ run, Run.Offers (Run.start e w now) run ∧ (e.handle w o now).2.1 = run.engine := by
  have hfire (scope : Scope) (event : EventKind) (context : Context) :=
    show Run.Offers (Run.start e w now) ((Run.start e w now).fireIn scope event context) from
      Run.offers_fireIn hsound scope event context
  cases o with
  | roomEntered actor room direction => exact ⟨_, hfire .., rfl⟩
  | roomExited actor room direction => exact ⟨_, hfire .., rfl⟩
  | areaEntered actor source target => exact ⟨_, hfire .., rfl⟩
  | areaExited actor source target => exact ⟨_, hfire .., rfl⟩
  | commandAttempted actor room text =>
    have hroom := hfire (.room room) .command { roomContext w actor room with command := some text }
    unfold handle
    dsimp only
    split
    · split
      · refine ⟨_, hroom.trans (Run.offers_fireIn ?_ _ _ _), rfl⟩
        rw [hroom.steps.2.catalog]
        exact hsound
      · exact ⟨_, hroom, rfl⟩
    · exact ⟨_, hroom, rfl⟩

end Dispatch

theorem Linked.offers {run run' : Run} (hl : run.engine.Linked) (h : Run.Offers run run') :
    run'.engine.Linked := hl.steps h.steps.2

theorem Live.offers {run run' : Run} (hl : run.engine.Linked) (hv : run.engine.Live)
    (h : Run.Offers run run') : run'.engine.Live := hv.steps hl h.steps.2

theorem linked_ofSettings (settings : Settings) : (ofSettings settings).Linked := by
  constructor
  case catalog => exact Catalog.sound_empty
  all_goals
    intros
    contradiction

theorem live_ofSettings (settings : Settings) : (ofSettings settings).Live := by
  intro h r ref epoch hj
  cases hj

inductive Performs (e : Engine) : Operation → Engine → Prop where
  | unchanged (op : Operation) : Performs e op e
  | loaded (c : Content) (now : Instant) : Performs e (.load c now) (e.load c now).2
  | reloaded (c : Content) (now : Instant) : Performs e (.reload c now) (e.reload c now).2
  | unloaded (scope : Scope) : Performs e (.unload scope) (e.detach scope)
  | switched {ref : RuleRef} {enabled : Bool} {now : Instant} {notice : Notice} {e' : Engine}
      (h : e.setEnabled ref enabled now = .ok (notice, e')) :
      Performs e (.setEnabled ref enabled now) e'
  | offered {op : Operation} {w : World} {now : Instant} {run : Run} (ht : op.time? = some now)
      (h : Run.Offers (Run.start e w now) run) : Performs e op run.engine
  | advanced {budget : Nat} {w w' : World} {now : Instant} {notices : List Notice} {e' : Engine}
      (h : e.advance budget w now = some (notices, e', w')) : Performs e (.advance budget w now) e'
  | restored (records : List Record) : Performs e (.restore records) (e.restore records).2

theorem performs_of_perform (hsound : e.catalog.Sound) (hp : e.perform op = some e') :
    e.Performs op e' := by
  cases op with
  | load c now =>
    cases hp
    exact .loaded c now
  | reload c now =>
    cases hp
    exact .reloaded c now
  | unload scope =>
    cases hp
    unfold unload
    split
    · exact .unloaded scope
    · exact .unchanged _
  | setEnabled ref enabled now =>
    unfold perform at hp
    dsimp only at hp
    split at hp
    · cases hp
      exact .switched ‹_›
    · cases hp
      exact .unchanged _
  | fire w scope event context now =>
    cases hp
    obtain ⟨run, hr, he⟩ := offers_fire hsound w scope event context now
    rw [he]
    exact .offered rfl hr
  | handle w o now =>
    cases hp
    obtain ⟨run, hr, he⟩ := offers_handle hsound w o now
    rw [he]
    exact .offered rfl hr
  | fireRule w ref context now =>
    unfold perform at hp
    dsimp only at hp
    split at hp
    · cases hp
      obtain ⟨run, hr, he⟩ := offers_fireRule ‹_›
      rw [he]
      exact .offered rfl hr
    · cases hp
      exact .unchanged _
  | advance budget w now =>
    obtain ⟨⟨notices, e', w'⟩, hadv, rfl⟩ := Option.map_eq_some_iff.mp hp
    exact .advanced hadv
  | restore records =>
    cases hp
    exact .restored records

theorem linked_and_live_perform (hl : e.Linked) (hv : e.Live) (ha : op.Authored)
    (hp : e.perform op = some e') : e'.Linked ∧ e'.Live := by
  cases performs_of_perform hl.catalog hp with
  | unchanged => exact ⟨hl, hv⟩
  | loaded c now => exact ⟨hl.load ha.sound now, hv.load hl ha.sound now⟩
  | reloaded c now => exact ⟨hl.reload ha.sound now, hv.reload hl ha.sound now⟩
  | unloaded scope => exact ⟨hl.detach scope, hv.detach hl scope⟩
  | switched h => exact ⟨hl.setEnabled h, hv.setEnabled hl h⟩
  | offered ht h => exact ⟨Linked.offers hl h, Live.offers hl hv h⟩
  | advanced h =>
    exact advance_induct (motive := fun e => e.Linked ∧ e.Live)
      (fun _ _ _ _ _ hm h => ⟨hm.1.runNext? h, hm.2.runNext? hm.1 h⟩) h ⟨hl, hv⟩
  | restored records =>
    exact restore_induct (motive := fun e => e.Linked ∧ e.Live) records
      (fun _ r h => ⟨h.1.restoreOne r, h.2.restoreOne h.1 r⟩) ⟨hl, hv⟩

theorem Reaches.linked_and_live {settings : Settings} {ops : List Operation}
    (h : Reaches settings ops e) : e.Linked ∧ e.Live := by
  induction h with
  | start => exact ⟨linked_ofSettings settings, live_ofSettings settings⟩
  | next _ ha hp ih => exact linked_and_live_perform ih.1 ih.2 ha hp

theorem Reaches.linked {settings : Settings} {ops : List Operation} (h : Reaches settings ops e) :
    e.Linked := h.linked_and_live.1

theorem Reaches.live {settings : Settings} {ops : List Operation} (h : Reaches settings ops e) :
    e.Live := h.linked_and_live.2

end Engine

end WorldTriggers
