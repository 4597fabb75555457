import WorldTriggers.Proofs.Engine.OperationSteps

namespace WorldTriggers

def Operation.leaves (scope : Scope) (rules : List Rule) : Operation → List Rule
  | load c _ => if scope = c.scope then c.rules else rules
  | reload c _ => if scope = c.scope then c.rules else rules
  | unload s => if scope = s then [] else rules
  | _ => rules

def authored (scope : Scope) (ops : List Operation) : List Rule :=
  ops.foldr (fun op rules => op.leaves scope rules) []

namespace Engine

variable {e e' : Engine} {scope : Scope} {now : Instant} {c : Content} {op : Operation}
  {rules : List Rule}

def loaded (e : Engine) (scope : Scope) : List LoadedRule :=
  ((e.catalog.get? scope).map (·.rules)).getD []

theorem loaded_congr (h : e'.catalog = e.catalog) : e'.loaded scope = e.loaded scope := by
  rw [loaded, h, loaded]

theorem get?_catalog_install (hrules : Content.Sound c.rules) (hsound : e.catalog.Sound)
    (carried : List (RuleRef × RuleState)) (now : Instant) (scope : Scope) :
    (e.install c carried now).2.catalog.get? scope =
      if scope = c.scope then some ⟨e.catalog.lastEpoch + 1, c.rules.map LoadedRule.ofRule⟩
      else e.catalog.get? scope := by
  rw [catalog_install hrules hsound]
  exact Catalog.get?_insert ..

theorem loaded_install (hrules : Content.Sound c.rules) (hsound : e.catalog.Sound)
    (carried : List (RuleRef × RuleState)) (now : Instant) (scope : Scope) :
    (e.install c carried now).2.loaded scope =
      if scope = c.scope then c.rules.map LoadedRule.ofRule else e.loaded scope := by
  rw [loaded, get?_catalog_install hrules hsound]
  split <;> rfl

theorem loaded_detach (e : Engine) (s scope : Scope) :
    (e.detach s).loaded scope = if scope = s then [] else e.loaded scope := by
  rw [loaded, show (e.detach s).catalog = e.catalog.remove s from rfl, Catalog.get?_remove]
  split <;> rfl

theorem loaded_reload (hl : e.Linked) (hrules : Content.Sound c.rules) (now : Instant)
    (scope : Scope) : (e.reload c now).2.loaded scope =
      if scope = c.scope then c.rules.map LoadedRule.ofRule else e.loaded scope := by
  rw [reload, loaded_install hrules (hl.detach c.scope).catalog]
  split
  · rfl
  · rw [loaded_detach, if_neg ‹_›]

theorem loaded_unload (e : Engine) (s scope : Scope) :
    (e.unload s).2.loaded scope = if scope = s then [] else e.loaded scope := by
  unfold unload
  cases hc : e.catalog.contains s with
  | true => exact loaded_detach e s scope
  | false =>
    rw [if_neg (by simp)]
    split
    · subst scope
      rw [Catalog.contains_eq, Option.isSome_eq_false_iff, Option.isNone_iff_eq_none] at hc
      rw [loaded, hc]
      rfl
    · rfl

theorem catalog_perform (hl : e.Linked) (hp : e.perform op = some e') (hcontent : op.content? = none)
    (hunload : ∀ s, op ≠ .unload s) : e'.catalog = e.catalog := by
  cases performs_of_perform hl.catalog hp with
  | unchanged => rfl
  | loaded | reloaded => cases hcontent
  | unloaded s => exact absurd rfl (hunload s)
  | switched h => exact catalog_of_setEnabled h
  | offered ht h => exact h.steps.2.catalog
  | advanced h =>
    have hkept : e'.Linked ∧ e'.catalog = e.catalog := by
      refine advance_induct (motive := fun d => d.Linked ∧ d.catalog = e.catalog) ?_ h ⟨hl, rfl⟩
      intro d d' w notices w' hd hnext
      obtain ⟨k, r, hr, -, hs⟩ := runNext?_steps hd.1 hnext
      exact ⟨hd.1.runNext? hnext, (hs.catalog.trans (catalog_taken ..)).trans hd.2⟩
    exact hkept.2
  | restored records => exact catalog_restore e records

theorem loaded_perform (hl : e.Linked) (ha : op.Authored) (hp : e.perform op = some e')
    (h : e.loaded scope = rules.map LoadedRule.ofRule) :
    e'.loaded scope = (op.leaves scope rules).map LoadedRule.ofRule := by
  have hinstalled (c : Content) :
      (if scope = c.scope then c.rules.map LoadedRule.ofRule else e.loaded scope) =
        (if scope = c.scope then c.rules else rules).map LoadedRule.ofRule := by
    rw [h]
    split <;> rfl
  have hsame (hcontent : op.content? = none) (hunload : ∀ s, op ≠ .unload s) :
      e'.loaded scope = rules.map LoadedRule.ofRule :=
    (loaded_congr (catalog_perform hl hp hcontent hunload)).trans h
  cases op with
  | load c now =>
    cases hp
    rw [Operation.leaves, ← hinstalled]
    rcases load_eq_install e c now with ⟨hload, -⟩ | hload
    · rw [hload, loaded_install ha.sound hl.catalog]
    · rw [hload, loaded_reload hl ha.sound]
  | reload c now =>
    cases hp
    rw [Operation.leaves, ← hinstalled]
    exact loaded_reload hl ha.sound now scope
  | unload s =>
    cases hp
    rw [Operation.leaves, loaded_unload, h]
    split <;> rfl
  | setEnabled | fire | handle | fireRule | advance | restore => exact hsame rfl (by simp)

theorem Reaches.loaded {settings : Settings} {ops : List Operation} (h : Reaches settings ops e)
    (scope : Scope) : e.loaded scope = (authored scope ops).map LoadedRule.ofRule := by
  induction h with
  | start => rfl
  | next h ha hp ih => exact loaded_perform h.linked ha hp ih

theorem OperationStep.get?_catalog {ds : List RuleEvent} (hl : e.Linked) (h : OperationStep op e ds e')
    (scope : Scope) :
    (∃ c epoch, op.content? = some c ∧ c.scope = scope ∧
      e'.catalog.get? scope = some ⟨epoch, c.rules.map LoadedRule.ofRule⟩) ∨
    e'.catalog.get? scope = none ∨ e'.catalog.get? scope = e.catalog.get? scope := by
  have hsame (hcatalog : e'.catalog = e.catalog) : e'.catalog.get? scope = e.catalog.get? scope := by
    rw [hcatalog]
  have hinstall {c : Content} {d : Engine} {carried : List (RuleRef × RuleState)} {now : Instant}
      (hop : op.content? = some c) (hrules : Content.Sound c.rules) (hd : d.catalog.Sound)
      (hget : scope ≠ c.scope → d.catalog.get? scope = e.catalog.get? scope) :
      (∃ c' epoch, op.content? = some c' ∧ c'.scope = scope ∧
        (d.install c carried now).2.catalog.get? scope =
          some ⟨epoch, c'.rules.map LoadedRule.ofRule⟩) ∨
      (d.install c carried now).2.catalog.get? scope = none ∨
      (d.install c carried now).2.catalog.get? scope = e.catalog.get? scope := by
    rw [get?_catalog_install hrules hd]
    split
    · exact .inl ⟨c, _, hop, (‹scope = c.scope›).symm, rfl⟩
    · exact .inr (.inr (hget ‹_›))
  cases h with
  | loaded hop ht hrules hc => exact hinstall hop hrules hl.catalog fun _ => rfl
  | @replaced c now hop ht hrules =>
    refine hinstall hop hrules (hl.detach c.scope).catalog fun hs => ?_
    exact (Catalog.get?_remove ..).trans (if_neg hs)
  | @removed s hop hc =>
    rw [show (e.detach s).catalog = e.catalog.remove s from rfl, Catalog.get?_remove]
    split
    · exact .inr (.inl rfl)
    · exact .inr (.inr rfl)
  | switched ht h => exact .inr (.inr (hsame (catalog_of_setEnabled h)))
  | @offered now fs ht w hfs =>
    exact .inr (.inr (hsame (fires_attempts (Run.start e w now) _ hfs).catalog))
  | popped ht hr hdue hp => exact .inr (.inr (hsame (catalog_taken ..)))
  | @woken k r c now ht w hr hdue hp =>
    have hresumed := (Run.fires_resume (Run.start (e.taken k r now) w now) k c).catalog
    exact .inr (.inr (hsame (hresumed.trans (catalog_taken ..))))
  | restored hop hr => exact .inr (.inr (hsame (catalog_restoreOne ..)))

end Engine

end WorldTriggers
