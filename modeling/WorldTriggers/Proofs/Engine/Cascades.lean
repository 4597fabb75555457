import WorldTriggers.Proofs.Engine.OperationSteps

namespace WorldTriggers

def RuleEvent.nest (n : Nat) : RuleEvent → Nat
  | fired _ => n + 1
  | stopped .. => n - 1
  | woke _ | switched .. | removed _ => n

def nesting (n : Nat) (ds : List RuleEvent) : Nat := ds.foldl RuleEvent.nest n

/-- Whether the level of each firing is the number of firings that it is within. -/
def Nested : Nat → List RuleEvent → Prop
  | _, [] => True
  | n, d :: ds => (∀ o, d.onset? = some o → o.level = n) ∧ Nested (d.nest n) ds

theorem nested_append {n : Nat} {ds ds' : List RuleEvent} :
    Nested n (ds ++ ds') ↔ Nested n ds ∧ Nested (nesting n ds) ds' := by
  induction ds generalizing n with
  | nil => simp [Nested, nesting]
  | cons d ds ih => simp [Nested, nesting, ih, and_assoc]

structure Nests (max before : Nat) (ds : List RuleEvent) (after : Nat) : Prop where
  nested : Nested before ds
  nesting : nesting before ds = after
  level : ∀ o ∈ onsets ds, o.level ≤ max

namespace Nests

variable {max before mid after : Nat} {ds ds' : List RuleEvent}

theorem nil (max before : Nat) : Nests max before [] before := ⟨trivial, rfl, List.forall_mem_nil _⟩

theorem stopped (max before : Nat) (s : Stretch) (ending : Ending) :
    Nests max (before + 1) [.stopped s ending] before :=
  ⟨⟨fun _ h => (nomatch h), trivial⟩, rfl, List.forall_mem_nil _⟩

theorem append (h : Nests max before ds mid) (h' : Nests max mid ds' after) :
    Nests max before (ds ++ ds') after where
  nested := nested_append.mpr ⟨h.nested, h.nesting ▸ h'.nested⟩
  nesting := by rw [WorldTriggers.nesting, List.foldl_append, ← h'.nesting, ← h.nesting]; rfl
  level o ho := by
    rw [onsets_append] at ho
    rcases List.mem_append.mp ho with ho | ho
    · exact h.level o ho
    · exact h'.level o ho

theorem fired {o : Onset} (hlevel : o.level = before) (hmax : before ≤ max)
    (h : Nests max (before + 1) ds after) : Nests max before (.fired o :: ds) after where
  nested := ⟨by simp [RuleEvent.onset?, hlevel], h.nested⟩
  nesting := h.nesting
  level q hq := by
    rcases List.mem_cons.mp hq with rfl | hq
    · omega
    · exact h.level q hq

end Nests

namespace Passage

def before (depth : Nat) : Passage → Nat
  | offers _ | attempt _ => depth
  | actions .. | followups .. => depth + 1

def after (depth : Nat) : Passage → Nat
  | offers _ | attempt _ | actions .. => depth
  | followups .. => depth + 1

end Passage

namespace Run

variable {max depth depth' : Nat} {passage : Passage} {run run' : Run} {ds : List RuleEvent}

theorem nests_followupRuleEvents {x : Followup} (hx : ∀ target, x ≠ .fireRule target) (f : Firing)
    (run : Run) (max n : Nat) : Nests max n (followupRuleEvents none f run x) n := by
  cases x with
  | fireRule target => exact absurd rfl (hx target)
  | setEnabled target enabled =>
    unfold followupRuleEvents
    dsimp only
    split
    · exact ⟨⟨fun _ h => (nomatch h), trivial⟩, rfl, List.forall_mem_nil _⟩
    · exact .nil max n
  | expireEffect actor effect stat after => exact .nil max n

theorem Unfolds.nests (h : Unfolds max passage depth run ds depth' run') (hd : depth ≤ max) :
    Nests max (passage.before depth) ds (passage.after depth) := by
  induction h with
  | done | refused | settled => exact .nil ..
  | offered h hrest ih ihrest =>
    obtain ⟨-, rfl, -⟩ := h.eq hd
    exact (ih hd).append (ihrest hd)
  | fired hm h ih => exact .fired rfl hd (ih hd)
  | finished | deferred | stranded => exact .stopped ..
  | calledOff ha hw hc h ih => exact (ih hd).append (.stopped ..)
  | acted ha hw hc h hrest ih ihrest =>
    obtain ⟨-, rfl, -⟩ := h.eq hd
    exact (ih hd).append (ihrest hd)
  | followed hx h ih => exact (nests_followupRuleEvents hx _ _ _ _).append (ih hd)
  | tooDeep hmax h ih => exact ih hd
  | missing hlt ht h ih => exact ih hd
  | cascaded hlt ht h hrest ih ihrest =>
    -- The counter is raised for the target alone, which the limit allows, and lowered after it.
    obtain ⟨-, rfl, -⟩ := h.eq hlt
    exact (ih hlt).append (ihrest hd)

theorem Fires.length_le {os : List Onset} (h : Fires run os run') :
    (os.map Onset.ref).length ≤ run.engine.catalog.size := by
  rw [← Catalog.length_refs]
  refine (h.distinct.subperm fun ref href => ?_).length_le
  obtain ⟨o, ho, rfl⟩ := List.mem_map.mp href
  exact Catalog.mem_refs_of_rule? (Engine.target?_eq_some_iff.mp (h.installed o ho).2).2

end Run

namespace Engine

variable {e : Engine} {op : Operation} {w : World} {now : Instant}

theorem dispatch?_eq_none (hop : op.scene? = some (w, now)) (h : e.dispatch? op = none) :
    ∃ ref context, op = .fireRule w ref context now ∧ e.catalog.rule? ref = none := by
  cases op with
  | fireRule w' ref context now' =>
    cases hop
    refine ⟨ref, context, rfl, ?_⟩
    cases hrule : e.catalog.rule? ref with
    | none => rfl
    | some rule =>
      obtain ⟨epoch, hepoch⟩ : ∃ epoch, e.catalog.epoch? ref.scope = some epoch := by
        rw [← Option.isSome_iff_exists, Catalog.epoch?_isSome]
        exact Catalog.contains_of_rule? hrule
      have htarget := target_eq_ok_iff.mpr (target?_eq_some_iff.mpr ⟨hepoch, hrule⟩)
      rw [dispatch?, fireRule, htarget] at h
      cases h
  | fire | handle => cases h
  | load | reload | unload | setEnabled | advance | restore => cases hop

/-- Whatever rules fire each other, what an event sets off unfolds in one way and to an end, with the
counter where it was after every cascade. What fires is loaded, fires once and at the level at which it
is nested, no deeper than the limit. -/
theorem cascades_of_reaches {settings : Settings} {ops : List Operation}
    (h : Reaches settings ops e) :
    (∀ passage depth run, depth ≤ settings.maxDepth → ∃ ds run', ∀ ds' depth' run'',
      Run.Unfolds settings.maxDepth passage depth run ds' depth' run'' ↔
        ds' = ds ∧ depth' = depth ∧ run'' = run') ∧
    ∀ op w now, op.scene? = some (w, now) → ∃ ds run,
      Run.Unfolds settings.maxDepth (.offers (e.offered op)) 0 (Run.start e w now) ds 0 run ∧
      Nested 0 ds ∧ (∀ o ∈ onsets ds, o.level ≤ settings.maxDepth) ∧
      (e.dispatch? op = some run.finish ∨ e.dispatch? op = none ∧
        ∃ ref context, op = .fireRule w ref context now ∧ e.catalog.rule? ref = none) ∧
      ∀ d e' w', e.dispatch? op = some (d, e', w') →
        d.fired = (onsets ds).map Onset.ref ∧ d.fired.Nodup ∧
        (∀ ref ∈ d.fired, ∃ rule, e.catalog.rule? ref = some rule) ∧
        d.fired.length ≤ e.catalog.size ∧ (d.handled = true ↔ d.fired ≠ []) := by
  refine ⟨fun passage depth run hd => ⟨_, _, fun ds' depth' run'' => Run.unfolds_iff hd⟩, ?_⟩
  intro op w now hop
  have hsound := h.linked.catalog
  have hmax : e.settings.maxDepth = settings.maxDepth := congrArg Settings.maxDepth h.settings
  have hunfolds :=
    Passage.unfolds (Nat.zero_le settings.maxDepth) (.offers (e.offered op)) (Run.start e w now)
  have hnests := hunfolds.nests (Nat.zero_le settings.maxDepth)
  have hfires := hunfolds.fires (installed_of_offered hsound op)
  have hdispatch := dispatch?_eq hsound hop
  rw [hmax] at hdispatch
  refine ⟨_, _, hunfolds, hnests.nested, hnests.level, ?_, fun d e' w' hd => ?_⟩
  · rcases hdispatch with ⟨hnone, -⟩ | hsome
    · exact .inr ⟨hnone, dispatch?_eq_none hop hnone⟩
    · exact .inl hsome
  · have hfired : d.fired = (onsets (Passage.ruleEvents settings.maxDepth 0 (Run.start e w now)
        (.offers (e.offered op)))).map Onset.ref := by
      rcases hdispatch with ⟨hnone, -⟩ | hsome
      · rw [hd] at hnone
        cases hnone
      · rw [hd] at hsome
        rw [show d = _ from congrArg Prod.fst (Option.some.inj hsome)]
        exact hfires.fired
    refine ⟨hfired, hfired ▸ hfires.distinct, fun ref href => ?_, hfired ▸ hfires.length_le, ?_⟩
    · rw [hfired] at href
      obtain ⟨o, ho, rfl⟩ := List.mem_map.mp href
      exact ⟨_, (target?_eq_some_iff.mp (hfires.installed o ho).2).2⟩
    · simp [Dispatch.handled]

def passing (target : RuleId) : Action := ⟨"fire_trigger", .ofList [("trigger", .string target)], 0⟩

def peal : Content :=
  .ofRules (.room "tower") [
    .plain "treble" .enter [passing "treble", passing "tenor"],
    .plain "tenor" .enter [passing "tenor", passing "bourdon", passing "treble"],
    .plain "bourdon" .enter [passing "bourdon", passing "treble"]]

theorem cascades_peal :
    ∃ e, Reaches (.builtin 1) [.load peal 0] e ∧ ∃ ds run d e' w',
      Run.Unfolds 1 (.offers (e.offered (.fireRule {} ⟨.room "tower", "treble"⟩ {} 0))) 0
        (Run.start e {} 0) ds 0 run ∧
      Nested 0 ds ∧ (∀ o ∈ onsets ds, o.level ≤ 1) ∧
      e.dispatch? (.fireRule {} ⟨.room "tower", "treble"⟩ {} 0) = some (d, e', w') ∧
      d.fired = [⟨.room "tower", "treble"⟩, ⟨.room "tower", "tenor"⟩] ∧
      d.fired.length < e.catalog.size ∧ d.handled = true := by
  obtain ⟨e, h, hp⟩ := exists_reaches (.builtin 1) [.load peal 0]
    (fun e => e.catalog.size == 3 &&
      (e.dispatch? (.fireRule {} ⟨.room "tower", "treble"⟩ {} 0)).any
        (fun r => r.1.fired == [⟨.room "tower", "treble"⟩, ⟨.room "tower", "tenor"⟩]))
    (by simp [Operation.Authored, peal, Content.Authored.ofRules]) (by decide +kernel)
  simp only [Bool.and_eq_true, beq_iff_eq, Option.any_eq_true] at hp
  obtain ⟨hsize, ⟨d, e', w'⟩, hd, hfired⟩ := hp
  obtain ⟨ds, run, hunfolds, hnested, hlevel, -, hdispatch⟩ :=
    (cascades_of_reaches h).2 (.fireRule {} ⟨.room "tower", "treble"⟩ {} 0) {} 0 rfl
  obtain ⟨-, -, -, -, hhandled⟩ := hdispatch d e' w' hd
  refine ⟨e, h, ds, run, d, e', w', hunfolds, hnested, hlevel, hd, hfired, ?_, hhandled.mpr ?_⟩
  · rw [hfired, hsize]
    decide
  · rw [hfired]
    simp

end Engine

end WorldTriggers
