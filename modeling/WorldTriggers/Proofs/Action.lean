import Mathlib.Tactic
import WorldTriggers.Action.Builtin

namespace WorldTriggers

def Action.MayLeave (actions : ActionRegistry) (scope : Scope) (a : Action) (x : Followup) : Prop :=
  ∃ act w context outcome w', actions.get? a.kind = some act ∧
    act a.params ⟨w, context, scope⟩ = .ok (outcome, w') ∧ x ∈ outcome.followups

def Action.target? (a : Action) (scope : Scope) : Option RuleRef :=
  (ActionHandler.targetRule a.params ⟨{}, {}, scope⟩).toOption

def Rule.outline (r : Rule) (scope : Scope) : List (String × Option Span × Option RuleRef) :=
  r.actions.map fun a => (a.kind, a.wait?, a.target? scope)

def Notice.isNews : Notice → Bool
  | controlChanged .. => false
  | actionFailed .. => false
  | _ => true

namespace ActionHandler

def Yields (p : Outcome → World → Prop) (x : Except ActionError (Outcome × World)) : Prop :=
  ∀ o w, x = .ok (o, w) → p o w

section Yields

variable {α : Type} {p : Outcome → World → Prop} {x : Except ActionError α}

theorem yields_bind {f : α → Except ActionError (Outcome × World)}
    (h : ∀ a, x = .ok a → Yields p (f a)) : Yields p (x >>= f) := by
  intro o w ho
  obtain ⟨a, ha, hf⟩ := bind_eq_ok.mp ho
  exact h a ha o w hf

theorem mapError_eq_ok {ε ε' : Type} {g : ε → ε'} {y : Except ε α} {a : α} :
    y.mapError g = .ok a ↔ y = .ok a := by
  cases y <;> simp [Except.mapError]

theorem yields_change {y : Except WorldError α} {f : α → Except ActionError (Outcome × World)}
    (h : ∀ a, y = .ok a → Yields p (f a)) : Yields p ((y : Except ActionError α) >>= f) :=
  yields_bind fun a ha => h a (mapError_eq_ok.mp ha)

theorem yields_pure {o : Outcome} {w : World} (h : p o w) : Yields p (pure (o, w)) := by
  intro o' w' ho
  cases ho
  exact h

theorem yields_throw (e : ActionError) : Yields p (throw e) := by
  intro o w h
  cases h

end Yields

def IsCalm (o : Outcome) : Prop :=
  o.cancelRest = false ∧
    ∀ x ∈ o.followups, ∃ actor effect stat after, x = .expireEffect actor effect stat after

def Calm (x : Except ActionError (Outcome × World)) : Prop := ∀ o w, x = .ok (o, w) → IsCalm o

section Calm

variable {α : Type} {x : Except ActionError α} {w : World}

theorem calm_bind {f : α → Except ActionError (Outcome × World)} (h : ∀ a, Calm (f a)) :
    Calm (x >>= f) := yields_bind fun a _ => h a

theorem calm_pure {o : Outcome} (h : IsCalm o) : Calm (pure (o, w)) := yields_pure h

theorem isCalm_nil (notices : List Notice) : IsCalm { notices } := ⟨rfl, by simp⟩

theorem calm_done (w : World) : Calm (pure (done w)) := calm_pure (isCalm_nil [])

theorem calm_report (n : Notice) (w : World) : Calm (pure (report n w)) := calm_pure (isCalm_nil [n])

theorem calm_throw (e : ActionError) : Calm (throw e) := yields_throw e

theorem calm_ite {p : Prop} [Decidable p] {x y : Except ActionError (Outcome × World)} (hx : Calm x)
    (hy : Calm y) : Calm (if p then x else y) := by
  split
  · exact hx
  · exact hy

end Calm

theorem calm_moveNpc (p : Params) (env : ActionEnv) : Calm (moveNpc p env) := by
  refine calm_bind fun source => ?_
  cases source with
  | none =>
    exact calm_bind fun _ => calm_bind fun _ => calm_bind fun _ => calm_bind fun _ =>
      calm_pure (isCalm_nil _)
  | some r =>
    exact calm_bind fun _ => calm_bind fun _ => calm_bind fun _ => calm_bind fun _ =>
      calm_pure (isCalm_nil _)

theorem calm_npcSay (p : Params) (env : ActionEnv) : Calm (npcSay p env) :=
  calm_bind fun _ => calm_bind fun _ => calm_ite (calm_throw _) (calm_bind fun _ => calm_report _ _)

theorem calm_despawnItem (p : Params) (env : ActionEnv) : Calm (despawnItem p env) :=
  calm_bind fun _ => calm_bind fun _ => calm_bind fun _ => calm_bind fun (_, _) =>
    calm_ite (calm_done _) (calm_report _ _)

theorem calm_applyEffect (p : Params) (env : ActionEnv) : Calm (applyEffect p env) := by
  refine calm_bind fun actor => calm_bind fun effect => calm_bind fun stat => calm_bind fun after =>
    calm_bind fun (isNew, w) => calm_ite (calm_pure ⟨rfl, ?_⟩) (calm_done _)
  intro x hx
  cases after with
  | none => simp at hx
  | some d => exact ⟨actor, effect, stat, d, by simpa using hx⟩

def controlKinds : List String := ["enable_trigger", "disable_trigger", "fire_trigger", "cancel"]

theorem builtin_cases {kind : String} {act : ActionHandler}
    (h : ActionRegistry.builtin.get? kind = some act) :
    (kind = "enable_trigger" ∧ act = setEnabled true) ∨
      (kind = "disable_trigger" ∧ act = setEnabled false) ∨
      (kind = "fire_trigger" ∧ act = fireTrigger) ∨ (kind = "cancel" ∧ act = cancel) ∨
      kind ∉ controlKinds ∧ ∀ p env, Calm (act p env) := by
  have hmem := SortedMap.mem_ofList (SortedMap.get?_eq_some_iff.mp h)
  simp only [List.mem_cons, Prod.mk.injEq, List.not_mem_nil, or_false] at hmem
  repeat
    rcases hmem with ⟨rfl, rfl⟩ | hmem
    · first
      | exact .inl ⟨rfl, rfl⟩
      | exact .inr (.inl ⟨rfl, rfl⟩)
      | exact .inr (.inr (.inl ⟨rfl, rfl⟩))
      | refine .inr (.inr (.inr (.inr ⟨by decide, fun p env => ?_⟩)))
        first
        | exact calm_moveNpc p env
        | exact calm_npcSay p env
        | exact calm_despawnItem p env
        | exact calm_applyEffect p env
        | repeat first
            | exact calm_report _ _
            | exact calm_done _
            | exact calm_pure (isCalm_nil _)
            | refine calm_bind fun _ => ?_
  exact .inr (.inr (.inr (.inl hmem)))

theorem targetRule_eq_ok_iff {a : Action} {w : World} {context : Context} {scope : Scope}
    {target : RuleRef} :
    targetRule a.params ⟨w, context, scope⟩ = .ok target ↔ a.target? scope = some target := by
  have hindep : targetRule a.params ⟨w, context, scope⟩ = targetRule a.params ⟨{}, {}, scope⟩ := rfl
  rw [hindep, Action.target?]
  cases targetRule a.params ⟨{}, {}, scope⟩ <;> simp [Except.toOption]

theorem control_eq_ok_iff {g : RuleRef → Followup} {p : Params} {env : ActionEnv} {o : Outcome}
    {w : World} :
    (do
      let target ← targetRule p env
      pure ({ followups := [g target] }, env.world) : Except ActionError (Outcome × World)) =
        .ok (o, w) ↔
      ∃ target, targetRule p env = .ok target ∧ o = { followups := [g target] } ∧ w = env.world := by
  rw [bind_eq_ok]
  constructor
  · rintro ⟨target, ht, h⟩
    cases h
    exact ⟨target, ht, rfl, rfl⟩
  · rintro ⟨target, ht, rfl, rfl⟩
    exact ⟨target, ht, rfl⟩

end ActionHandler

namespace Action

open ActionHandler

variable {a : Action} {scope : Scope} {ref : RuleRef}

def switchKind (enabled : Bool) : String := if enabled then "enable_trigger" else "disable_trigger"

theorem mayLeave_cases {x : Followup} (h : a.MayLeave .builtin scope x) :
    (∃ ref enabled, x = .setEnabled ref enabled ∧ a.kind = switchKind enabled ∧
        a.target? scope = some ref) ∨
      (∃ ref, x = .fireRule ref ∧ a.kind = "fire_trigger" ∧ a.target? scope = some ref) ∨
      ∃ actor effect stat after, x = .expireEffect actor effect stat after := by
  obtain ⟨act, w, context, outcome, w', hact, hok, hmem⟩ := h
  have hswitch (enabled : Bool) (hk : a.kind = switchKind enabled)
      (hact : act = ActionHandler.setEnabled enabled) : ∃ ref enabled,
        x = .setEnabled ref enabled ∧ a.kind = switchKind enabled ∧ a.target? scope = some ref := by
    subst hact
    obtain ⟨target, ht, rfl, -⟩ := control_eq_ok_iff.mp hok
    exact ⟨target, enabled, List.mem_singleton.mp hmem, hk, targetRule_eq_ok_iff.mp ht⟩
  rcases builtin_cases hact with ⟨hk, h⟩ | ⟨hk, h⟩ | ⟨hk, rfl⟩ | ⟨-, rfl⟩ | ⟨-, hcalm⟩
  · exact .inl (hswitch true hk h)
  · exact .inl (hswitch false hk h)
  · obtain ⟨target, ht, rfl, -⟩ := control_eq_ok_iff.mp hok
    exact .inr (.inl ⟨target, List.mem_singleton.mp hmem, hk, targetRule_eq_ok_iff.mp ht⟩)
  · cases hok
    cases hmem
  · exact .inr (.inr ((hcalm _ _ _ _ hok).2 _ hmem))

theorem mayLeave_setEnabled_iff {enabled : Bool} :
    a.MayLeave .builtin scope (.setEnabled ref enabled) ↔
      a.kind = switchKind enabled ∧ a.target? scope = some ref := by
  constructor
  · intro h
    rcases mayLeave_cases h with ⟨_, _, hx, hrest⟩ | ⟨_, hx, -⟩ | ⟨_, _, _, _, hx⟩
    · obtain ⟨rfl, rfl⟩ := Followup.setEnabled.inj hx
      exact hrest
    · cases hx
    · cases hx
  · rintro ⟨hk, ht⟩
    have hok : ActionHandler.setEnabled enabled a.params ⟨{}, {}, scope⟩ =
        .ok ({ followups := [.setEnabled ref enabled] }, {}) :=
      control_eq_ok_iff.mpr ⟨ref, targetRule_eq_ok_iff.mpr ht, rfl, rfl⟩
    refine ⟨ActionHandler.setEnabled enabled, {}, {}, _, _, ?_, hok, List.mem_singleton_self _⟩
    rw [hk]
    cases enabled <;> rfl

theorem mayLeave_fireRule_iff :
    a.MayLeave .builtin scope (.fireRule ref) ↔
      a.kind = "fire_trigger" ∧ a.target? scope = some ref := by
  constructor
  · intro h
    rcases mayLeave_cases h with ⟨_, _, hx, -⟩ | ⟨_, hx, hrest⟩ | ⟨_, _, _, _, hx⟩
    · cases hx
    · obtain rfl := Followup.fireRule.inj hx
      exact hrest
    · cases hx
  · rintro ⟨hk, ht⟩
    have hok : fireTrigger a.params ⟨{}, {}, scope⟩ = .ok ({ followups := [.fireRule ref] }, {}) :=
      control_eq_ok_iff.mpr ⟨ref, targetRule_eq_ok_iff.mpr ht, rfl, rfl⟩
    refine ⟨fireTrigger, {}, {}, _, _, ?_, hok, List.mem_singleton_self _⟩
    rw [hk]
    rfl

end Action

end WorldTriggers
