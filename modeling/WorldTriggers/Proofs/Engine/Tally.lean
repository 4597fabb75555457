import WorldTriggers.Proofs.Engine.Unfolding

namespace WorldTriggers

def Engine.tallyOf (e : Engine) (ref : RuleRef) : RuleState := (e.states.stateOf ref).carried

structure Onset.Allowed (o : Onset) (s : RuleState) : Prop where
  warm : ∀ c, o.firing.rule.cooldownSpan? = some c →
    s.isCoolingDown o.firing.cooldownKey c o.now = false
  left : s.isExhausted o.firing.rule.fireLimit? = false
  floor : o.floor = s.restoredFloor

/-- How the tally of a rule goes through firings, those of other rules among them. In between, records
of the given kind may be restored. -/
inductive Ledger (ref : RuleRef) (restored : Record → Prop) :
    RuleState → List Onset → RuleState → Prop where
  | closed (s : RuleState) : Ledger ref restored s [] s
  | other {o : Onset} {os : List Onset} {s s' : RuleState} (ho : o.ref ≠ ref)
      (h : Ledger ref restored s os s') : Ledger ref restored s (o :: os) s'
  | own {o : Onset} {os : List Onset} {s s' : RuleState} (ho : o.ref = ref) (hs : o.Allowed s)
      (h : Ledger ref restored (s.recordFiring o.firing.cooldownKey o.now) os s') :
      Ledger ref restored s (o :: os) s'
  | record {r : Record} {os : List Onset} {s s' : RuleState} (hr : restored r)
      (h : Ledger ref restored (s.restore r) os s') : Ledger ref restored s os s'

namespace Ledger

variable {ref : RuleRef} {restored : Record → Prop} {s t u : RuleState} {os qs : List Onset}

theorem append (h : Ledger ref restored s os t) (h' : Ledger ref restored t qs u) :
    Ledger ref restored s (os ++ qs) u := by
  induction h with
  | closed => exact h'
  | other ho _ ih => exact .other ho (ih h')
  | own ho hs _ ih => exact .own ho hs (ih h')
  | record hr _ ih => exact .record hr (ih h')

theorem mono {restored' : Record → Prop} (hmono : ∀ r, restored r → restored' r)
    (h : Ledger ref restored s os t) : Ledger ref restored' s os t := by
  induction h with
  | closed s => exact .closed s
  | other ho _ ih => exact .other ho ih
  | own ho hs _ ih => exact .own ho hs ih
  | record hr _ ih => exact .record (hmono _ hr) ih

theorem of_none (h : Ledger ref (fun _ => False) s os t) : Ledger ref restored s os t :=
  h.mono fun _ hr => hr.elim

end Ledger

namespace Engine

variable {e e' : Engine} {ref : RuleRef} {now : Instant}

theorem tallyOf_update {f : RuleState → RuleState}
    (hf : (f (e.states.stateOf ref)).carried = e.tallyOf ref) (k : RuleRef) :
    tallyOf { e with states := e.states.update ref f } k = e.tallyOf k := by
  unfold tallyOf at hf ⊢
  dsimp only
  rw [RuleStates.stateOf_update]
  split
  · subst k
    exact hf
  · rfl

theorem tallyOf_update_carried {f : RuleState → RuleState} (hf : ∀ s, (f s).carried = f s.carried)
    (e : Engine) (ref k : RuleRef) : tallyOf { e with states := e.states.update ref f } k =
      if k = ref then f (e.tallyOf k) else e.tallyOf k := by
  unfold tallyOf
  dsimp only
  rw [RuleStates.stateOf_update]
  split
  · subst k
    exact hf _
  · rfl

@[simp] theorem tallyOf_disarmTimer (e : Engine) (ref k : RuleRef) :
    (e.disarmTimer ref).tallyOf k = e.tallyOf k := tallyOf_update rfl k

@[simp] theorem tallyOf_armTimer (e : Engine) (scope : Scope) (epoch : Nat) (r : Rule) (now : Instant)
    (k : RuleRef) : (e.armTimer scope epoch r now).tallyOf k = e.tallyOf k := by
  cases hplan : r.timerPlan? with
  | none => rw [armTimer_of_no_plan hplan]
  | some plan =>
    have htouch : (e.touch ⟨scope, r.id⟩).tallyOf k = e.tallyOf k := tallyOf_update rfl k
    rcases armTimer_eq hplan e scope epoch now with ⟨-, he⟩ | ⟨due, -, -, he⟩
    · rw [he, htouch]
    · have hstart : ((e.touch ⟨scope, r.id⟩).startTimer ⟨scope, r.id⟩ epoch plan.interval due).tallyOf k =
          (e.touch ⟨scope, r.id⟩).tallyOf k := tallyOf_update rfl k
      rw [he, hstart, htouch]

theorem tallyOf_setEnabled {enabled : Bool} {notice : Notice}
    (h : e.setEnabled ref enabled now = .ok (notice, e')) (k : RuleRef) :
    e'.tallyOf k = e.tallyOf k := by
  have hflag : (e.flag ref enabled).tallyOf k = e.tallyOf k := tallyOf_update rfl k
  have hcancel (d : Engine) (p : RuleRef → Bool) : (d.cancelDeferred p).tallyOf k = d.tallyOf k := rfl
  obtain ⟨epoch, r, -, rfl⟩ := setEnabled_eq_ok h
  cases enabled with
  | true =>
    rw [if_pos rfl, switchedOn]
    split
    · rw [tallyOf_armTimer, hflag]
    · exact hflag
  | false =>
    rw [if_neg (by simp), switchedOff, hcancel]
    split
    · rw [tallyOf_disarmTimer, hflag]
    · exact hflag

theorem tallyOf_recordFiring (e : Engine) (f : Firing) (now : Instant) (k : RuleRef) :
    (e.recordFiring f now).tallyOf k =
      if k = f.ref then (e.tallyOf k).recordFiring f.cooldownKey now else e.tallyOf k := by
  have hupdate := tallyOf_update_carried (f := (·.recordFiring f.cooldownKey now)) (fun _ => rfl)
    e f.ref k
  unfold recordFiring
  dsimp only
  split
  · rw [tallyOf_disarmTimer, hupdate]
  · exact hupdate

end Engine

namespace Run

open Engine

variable {run mid run' : Run} {os qs : List Onset} {f : Firing}

structure Fires (run : Run) (os : List Onset) (run' : Run) : Prop where
  now : run'.now = run.now
  settings : run'.engine.settings = run.engine.settings
  catalog : run'.engine.catalog = run.engine.catalog
  fired : run'.fired = run.fired ++ os.map Onset.ref
  visited : run'.visited = (os.map Onset.ref).reverse ++ run.visited
  fresh : ∀ o ∈ os, o.ref ∉ run.visited
  distinct : (os.map Onset.ref).Nodup
  installed : ∀ o ∈ os, o.now = run.now ∧ run.engine.Installed o.firing
  ledger : ∀ ref, Ledger ref (fun _ => False) (run.engine.tallyOf ref) os (run'.engine.tallyOf ref)

theorem fires_quiet (hnow : run'.now = run.now) (hsettings : run'.engine.settings = run.engine.settings)
    (hcatalog : run'.engine.catalog = run.engine.catalog) (hfired : run'.fired = run.fired)
    (hvisited : run'.visited = run.visited)
    (htally : ∀ ref, run'.engine.tallyOf ref = run.engine.tallyOf ref) : Fires run [] run' where
  now := hnow
  settings := hsettings
  catalog := hcatalog
  fired := by simpa using hfired
  visited := by simpa using hvisited
  fresh := List.forall_mem_nil _
  distinct := .nil
  installed := List.forall_mem_nil _
  ledger ref := htally ref ▸ .closed _

theorem Fires.refl (run : Run) : Fires run [] run := fires_quiet rfl rfl rfl rfl rfl fun _ => rfl

theorem fires_fail (run : Run) (f : Firing) (action reason : String) :
    Fires run [] (run.fail f action reason) := fires_quiet rfl rfl rfl rfl rfl fun _ => rfl

theorem Fires.trans (h : Fires run os mid) (h' : Fires mid qs run') : Fires run (os ++ qs) run' := by
  have hcongr {g : Firing} (hg : mid.engine.Installed g) : run.engine.Installed g :=
    hg.congr h.catalog.symm
  refine ⟨h'.now.trans h.now, h'.settings.trans h.settings, h'.catalog.trans h.catalog, ?_, ?_, ?_, ?_,
    ?_, fun ref => (h.ledger ref).append (h'.ledger ref)⟩
  · rw [h'.fired, h.fired, List.map_append, List.append_assoc]
  · rw [h'.visited, h.visited, List.map_append, List.reverse_append, List.append_assoc]
  · intro o ho
    rcases List.mem_append.mp ho with ho | ho
    · exact h.fresh o ho
    · have hfresh := h'.fresh o ho
      rw [h.visited, List.mem_append, not_or] at hfresh
      exact hfresh.2
  · rw [List.map_append, List.nodup_append]
    refine ⟨h.distinct, h'.distinct, ?_⟩
    rintro ref href _ hqs rfl
    obtain ⟨o, ho, rfl⟩ := List.mem_map.mp hqs
    have hfresh := h'.fresh o ho
    rw [h.visited, List.mem_append, not_or, List.mem_reverse] at hfresh
    exact hfresh.1 href
  · intro o ho
    rcases List.mem_append.mp ho with ho | ho
    · exact h.installed o ho
    · obtain ⟨hnow, hf⟩ := h'.installed o ho
      exact ⟨hnow.trans h.now, hcongr hf⟩

theorem allowed_of_mayFire (hm : f.mayFire run) (level : Nat) :
    (run.onset f level).Allowed (run.engine.tallyOf f.ref) := by
  simp only [Firing.mayFire, Firing.isAllowed, Bool.and_eq_true, Bool.not_eq_true'] at hm
  obtain ⟨⟨-, ⟨-, hcool⟩, hleft⟩, -⟩ := hm
  refine ⟨fun c hc => ?_, hleft, rfl⟩
  have hc' : f.rule.cooldownSpan? = some c := hc
  rw [hc', Option.any_some] at hcool
  exact hcool

theorem fires_enter (hf : run.engine.Installed f) (hm : f.mayFire run) (level : Nat) :
    Fires run [run.onset f level] (run.enter f) where
  now := rfl
  settings := (Engine.Step.record hf : Step run.now _ (run.engine.recordFiring f run.now)).settings
  catalog := catalog_recordFiring ..
  fired := rfl
  visited := rfl
  fresh := by
    rintro o ho
    obtain rfl := List.mem_singleton.mp ho
    simp only [Firing.mayFire, Bool.and_eq_true, Bool.not_eq_true', List.contains_eq_mem,
      decide_eq_false_iff_not] at hm
    exact hm.1.1
  distinct := List.nodup_singleton _
  installed o ho := by
    obtain rfl := List.mem_singleton.mp ho
    exact ⟨rfl, hf⟩
  ledger ref := by
    have htally := tallyOf_recordFiring run.engine f run.now ref
    by_cases href : ref = f.ref
    · subst href
      rw [if_pos rfl] at htally
      exact .own rfl (allowed_of_mayFire hm level) (htally ▸ .closed _)
    · rw [if_neg href] at htally
      exact .other (Ne.symm href) (htally ▸ .closed _)

theorem fires_act (run : Run) (f : Firing) (a : Action) : Fires run [] (run.act f a).2 := by
  unfold act
  split
  · exact .refl run
  · split
    · exact fires_quiet rfl rfl rfl rfl rfl fun _ => rfl
    · exact fires_quiet rfl rfl rfl rfl rfl fun _ => rfl

@[simp] theorem engine_act (run : Run) (f : Firing) (a : Action) :
    (run.act f a).2.engine = run.engine := by
  unfold act
  split
  · rfl
  · split <;> rfl

@[simp] theorem now_act (run : Run) (f : Firing) (a : Action) : (run.act f a).2.now = run.now :=
  (fires_act run f a).now

theorem fires_applyFollowup {x : Followup} (hx : ∀ target, x ≠ .fireRule target) (f : Firing)
    (run : Run) : Fires run [] (applyFollowup none f run x) := by
  cases x with
  | fireRule target => exact absurd rfl (hx target)
  | setEnabled target enabled =>
    unfold applyFollowup
    dsimp only
    split
    · rename_i hset
      exact fires_quiet rfl (settings_of_setEnabled hset) (catalog_of_setEnabled hset) rfl rfl
        (tallyOf_setEnabled hset)
    · exact fires_quiet rfl rfl rfl rfl rfl fun _ => rfl
  | expireEffect actor effect stat after =>
    unfold applyFollowup
    dsimp only
    split
    · exact fires_quiet rfl rfl rfl rfl rfl fun _ => rfl
    · exact .refl run

theorem onsets_followupRuleEvents {x : Followup} (hx : ∀ target, x ≠ .fireRule target) (f : Firing)
    (run : Run) : onsets (followupRuleEvents none f run x) = [] := by
  cases x with
  | fireRule target => exact absurd rfl (hx target)
  | setEnabled target enabled =>
    unfold followupRuleEvents
    dsimp only
    split <;> rfl
  | expireEffect actor effect stat after => rfl

end Run

namespace Passage

def Ready (e : Engine) : Passage → Prop
  | offers fs => ∀ f ∈ fs, e.Installed f
  | attempt f => e.Installed f
  | actions .. => True
  | followups .. => True

end Passage

namespace Run

open Engine

variable {max depth depth' : Nat} {passage : Passage} {run run' : Run} {ds : List RuleEvent}

theorem Unfolds.fires (h : Unfolds max passage depth run ds depth' run')
    (hready : passage.Ready run.engine) : Fires run (onsets ds) run' := by
  induction h with
  | done | refused | finished | stranded | settled => exact .refl _
  | offered h hrest ih ihrest =>
    obtain ⟨hf, hfs⟩ := List.forall_mem_cons.mp hready
    have hfirst := ih hf
    rw [onsets_append]
    exact hfirst.trans (ihrest fun f hf => (hfs f hf).congr hfirst.catalog)
  | @fired f depth depth' run run' ds hm h ih => exact (fires_enter hready hm depth).trans (ih trivial)
  | deferred => exact fires_quiet rfl rfl rfl rfl rfl fun _ => rfl
  | calledOff ha hw hc h ih =>
    rw [onsets_append]
    exact ((fires_act _ _ _).trans (ih trivial)).trans (.refl _)
  | acted ha hw hc h hrest ih ihrest =>
    rw [onsets_append]
    exact ((fires_act _ _ _).trans (ih trivial)).trans (ihrest trivial)
  | followed hx h ih =>
    rw [onsets_append, onsets_followupRuleEvents hx]
    exact (fires_applyFollowup hx _ _).trans (ih trivial)
  | tooDeep hd h ih => exact ih trivial
  | missing hd ht h ih => exact (fires_fail ..).trans (ih trivial)
  | cascaded hd ht h hrest ih ihrest =>
    rw [onsets_append]
    exact (ih (installed_of_target? ht _)).trans (ihrest trivial)

end Run

end WorldTriggers
