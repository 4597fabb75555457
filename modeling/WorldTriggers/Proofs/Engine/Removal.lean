import WorldTriggers.Proofs.Engine.Confinement
import WorldTriggers.Proofs.Engine.Installation
import WorldTriggers.Proofs.Engine.OperationTallies
import WorldTriggers.Proofs.Engine.Sequencing

namespace WorldTriggers

def RuleEvent.scope? : RuleEvent → Option Scope
  | fired o => some o.firing.scope
  | woke _ => none
  | stopped s _ => some s.firing.scope
  | switched ref _ => some ref.scope
  | removed scope => some scope

def Catalog.Covers (c : Catalog) (ds : List RuleEvent) : Prop :=
  ∀ x ∈ ds, ∀ scope, x.scope? = some scope → c.contains scope = true

namespace Catalog

variable {c : Catalog} {x : RuleEvent} {ds ds' : List RuleEvent} {scope : Scope}

theorem covers_nil (c : Catalog) : c.Covers [] := List.forall_mem_nil _

theorem covers_append : c.Covers (ds ++ ds') ↔ c.Covers ds ∧ c.Covers ds' := List.forall_mem_append

theorem Covers.cons (hx : x.scope? = some scope) (hc : c.contains scope = true) (h : c.Covers ds) :
    c.Covers (x :: ds) := by
  refine List.forall_mem_cons.mpr ⟨fun s hs => ?_, h⟩
  rw [← Option.some.inj (hx.symm.trans hs), hc]

theorem covers_single (hx : x.scope? = some scope) (hc : c.contains scope = true) : c.Covers [x] :=
  .cons hx hc (covers_nil c)

end Catalog

namespace Run

open Engine

variable {max depth depth' : Nat} {passage : Passage} {run run' : Run} {ds : List RuleEvent}

theorem covers_followupRuleEvents {x : Followup} (hx : ∀ target, x ≠ .fireRule target) (f : Firing)
    (run : Run) : run.engine.catalog.Covers (followupRuleEvents none f run x) := by
  cases x with
  | fireRule target => exact absurd rfl (hx target)
  | setEnabled target enabled =>
    unfold followupRuleEvents
    dsimp only
    cases hset : run.engine.setEnabled target enabled run.now with
    | ok set =>
      obtain ⟨epoch, r, ht, -⟩ := setEnabled_eq_ok hset
      exact Catalog.covers_single rfl (Catalog.contains_of_rule? (target?_eq_some_iff.mp ht).2)
    | error err => exact Catalog.covers_nil _
  | expireEffect actor effect stat after => exact Catalog.covers_nil _

theorem Unfolds.covers (h : Unfolds max passage depth run ds depth' run')
    (hg : passage.IsInstalled run.engine) : run.engine.catalog.Covers ds := by
  have hloaded {e : Engine} {f : Firing} (hf : e.Installed f) : e.catalog.contains f.scope = true :=
    Catalog.contains_of_rule? (target?_eq_some_iff.mp hf).2
  -- No passage changes the catalog, so that it covers what comes later as it does what comes first.
  induction h with
  | done | refused | settled => exact Catalog.covers_nil _
  | offered h hrest ih ihrest =>
    obtain ⟨hf, hfs⟩ := List.forall_mem_cons.mp hg
    have hcatalog := (h.fires hf).catalog
    have hlater := ihrest fun f hf => (hfs f hf).congr hcatalog
    rw [hcatalog] at hlater
    exact Catalog.covers_append.mpr ⟨ih hf, hlater⟩
  | @fired f depth depth' run run' ds hm h ih =>
    have hcatalog : (run.enter f).engine.catalog = run.engine.catalog := catalog_recordFiring ..
    have hacted := ih (hg.congr hcatalog)
    rw [hcatalog] at hacted
    exact .cons rfl (hloaded hg) hacted
  | finished | deferred | stranded => exact Catalog.covers_single rfl (hloaded hg)
  | calledOff ha hw hc h ih =>
    have hfollowed := ih trivial
    rw [engine_act] at hfollowed
    exact Catalog.covers_append.mpr ⟨hfollowed, Catalog.covers_single rfl (hloaded hg)⟩
  | @acted s resumed i a depth depth₁ depth' run mid run' ds ds' ha hw hc h hrest ih ihrest =>
    have hcatalog : mid.engine.catalog = run.engine.catalog := by
      rw [(h.fires trivial).catalog, engine_act]
    have hfollowed := ih trivial
    have hlater := ihrest (hg.congr hcatalog)
    rw [engine_act] at hfollowed
    rw [hcatalog] at hlater
    exact Catalog.covers_append.mpr ⟨hfollowed, hlater⟩
  | followed hx h ih =>
    have hlater := ih trivial
    rw [(fires_applyFollowup hx _ _).catalog] at hlater
    exact Catalog.covers_append.mpr ⟨covers_followupRuleEvents hx _ _, hlater⟩
  | tooDeep hd h ih => exact ih trivial
  | missing hd ht h ih => exact ih trivial
  | @cascaded f target epoch rule rest depth depth₁ depth' run mid run' ds ds' hd ht h hrest ih ihrest =>
    have hinstalled := installed_of_target? ht f.context
    have hlater := ihrest trivial
    rw [(h.fires hinstalled).catalog] at hlater
    exact Catalog.covers_append.mpr ⟨ih hinstalled, hlater⟩

end Run

namespace Engine

variable {e e' : Engine} {scope : Scope} {ref : RuleRef} {op : Operation} {ds : List RuleEvent}

theorem OperationStep.covers (hl : e.Linked) (h : OperationStep op e ds e') : e.catalog.Covers ds := by
  cases h with
  | loaded | popped | restored => exact Catalog.covers_nil _
  | @replaced c now hop ht hrules =>
    unfold removal
    split
    · exact Catalog.covers_single rfl ‹_›
    · exact Catalog.covers_nil _
  | removed hop hc => exact Catalog.covers_single rfl hc
  | switched ht h =>
    obtain ⟨epoch, r, htarget, -⟩ := setEnabled_eq_ok h
    exact Catalog.covers_single rfl (Catalog.contains_of_rule? (target?_eq_some_iff.mp htarget).2)
  | @offered now fs ht w hfs =>
    have hunfolds := Passage.unfolds (Nat.zero_le e.settings.maxDepth) (.offers fs) (Run.start e w now)
    exact hunfolds.covers hfs
  | @woken k r c now ht w hr hdue hp =>
    let run := Run.start (e.taken k r now) w now
    have hunfolds := Passage.unfolds (Nat.zero_le run.engine.settings.maxDepth)
      (.actions ⟨c.firing, now, []⟩ true c.next) { run with visited := c.firing.ref :: run.visited }
    have hcovers := hunfolds.covers (hl.installed_taken hr hp now)
    rw [show run.engine.catalog = e.catalog from catalog_taken ..] at hcovers
    exact List.forall_mem_cons.mpr ⟨fun _ hs => (nomatch hs), hcovers⟩

structure Vacant (e : Engine) (scope : Scope) : Prop where
  catalog : e.catalog.get? scope = none
  states : ∀ ref, ref.scope = scope → e.states.get? ref = none
  deferred : ∀ ref h, ref.scope = scope → e.deferred.get? h ≠ some ref
  jobs : ∀ ref h r, ref.scope = scope → e.job? h = some r → r.payload.ref? ≠ some ref

theorem Linked.vacant (hl : e.Linked) (hc : e.catalog.contains scope = false) : e.Vacant scope where
  catalog := by
    rwa [Catalog.contains_eq, Option.isSome_eq_false_iff, Option.isNone_iff_eq_none] at hc
  states ref hs := hl.get?_states_of_not_contains (by rwa [hs])
  deferred ref h hs hd := by
    obtain ⟨r, -, hr, -⟩ := hl.deferred h ref hd
    exact hl.scope_of_job hc hr (hl.ref?_of_deferred hd hr) hs
  jobs ref h r hs hr href := hl.scope_of_job hc hr href hs

structure Spares (scope : Scope) (e e' : Engine) : Prop where
  settings : e'.settings = e.settings
  waiting : e'.waiting = e.waiting
  catalog : ∀ s, s ≠ scope → e'.catalog.get? s = e.catalog.get? s
  states : ∀ ref, ref.scope ≠ scope → e'.states.get? ref = e.states.get? ref
  deferred : ∀ ref h, ref.scope ≠ scope → (e'.deferred.get? h = some ref ↔ e.deferred.get? h = some ref)
  jobs : ∀ h r, (∀ ref, r.payload.ref? = some ref → ref.scope ≠ scope) →
    (e'.job? h = some r ↔ e.job? h = some r)

theorem Linked.spares_detach (hl : e.Linked) (scope : Scope) : Spares scope e (e.detach scope) where
  settings := rfl
  waiting := rfl
  catalog s hs := (Catalog.get?_remove ..).trans (if_neg hs)
  states ref hs := (RuleStates.get?_withoutScope ..).trans (if_neg hs)
  deferred ref h hs := by
    have hget : (e.detach scope).deferred.get? h =
        (e.deferred.get? h).filter fun ref => !(ref.scope == scope) := get?_cancelDeferred ..
    rw [hget, Option.filter_eq_some_iff]
    simp [hs]
  jobs h r hp := by
    constructor
    · exact fun hr => (job?_of_detach hr).1
    · intro hr
      rw [job?_detach, if_neg, job?_cancelDeferred, if_neg, hr]
      · intro hany
        obtain ⟨ref, hd, hs⟩ := (Option.any_eq_true _ _).mp hany
        exact hp ref (hl.ref?_of_deferred hd hr) (eq_of_beq hs)
      · intro hmem
        obtain ⟨ref, hs, ht⟩ := mem_timersOf.mp hmem
        exact hp ref (hl.ref?_of_timerOf ht hr) hs

theorem Linked.idle_since (hl : e.Linked) (hc : e.catalog.contains scope = false)
    {later : List Operation} (ha : ∀ op ∈ later, op.Authored)
    (hlater : ∀ op ∈ later, ∀ c, op.content? = some c → c.scope ≠ scope) :
    ∃ e', e'.catalog.contains scope = false ∧ (∀ x ∈ e.ruleEventsSince later, x.scope? ≠ some scope) ∧
      (∀ ref r, e'.waiting.get? ref = some r →
        (∃ op ∈ later, op.Restores ref r) ∨ e.waiting.get? ref = some r) ∧
      ∀ d, e.performAll? later = some d → d = e' := by
  obtain ⟨e', ⟨hc', hidle, hwaiting⟩, hlast⟩ := ruleEventsSince_induct
    (motive := fun ds d => d.catalog.contains scope = false ∧ (∀ x ∈ ds, x.scope? ≠ some scope) ∧
      ∀ ref r, d.waiting.get? ref = some r →
        (∃ op ∈ later, op.Restores ref r) ∨ e.waiting.get? ref = some r) hl ha
    (fun op hop ds d ds' d' hd ht hm => by
      obtain ⟨hc, hidle, hwaiting⟩ := hm
      refine ⟨?_, ?_, fun ref r hw => ?_⟩
      · rcases ht.get?_catalog hd scope with ⟨c, epoch, hcontent, hs, -⟩ | hnone | hsame
        · exact absurd hs (hlater op hop c hcontent)
        · rw [Catalog.contains_eq, hnone]
          rfl
        · rw [Catalog.contains_eq, hsame]
          exact hc
      · refine List.forall_mem_append.mpr ⟨hidle, fun x hx hs => ?_⟩
        rw [ht.covers hd x hx scope hs] at hc
        cases hc
      · rcases ht.waiting hd hw with hrestores | hold
        · exact .inl ⟨op, hop, hrestores⟩
        · exact hwaiting ref r hold)
    ⟨hc, List.forall_mem_nil _, fun _ _ => .inr⟩
  exact ⟨e', hc', hidle, hwaiting, hlast⟩

end Engine

end WorldTriggers
