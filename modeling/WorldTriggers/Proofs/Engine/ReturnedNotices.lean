import WorldTriggers.Proofs.Engine.WorldHistory
import WorldTriggers.Proofs.World.Census

namespace WorldTriggers

def WorldEvent.emissions : WorldEvent → List Emission
  | called _ => []
  | acted f a run => (run.act f a).1.notices.map (Emission.mk (some a.kind))
  | ended actor effect stat _ w => (Engine.expireEffect w actor effect stat).1.map (Emission.mk none)

def WorldEvent.news (ms : List WorldEvent) : List Notice :=
  ((ms.flatMap emissions).map (·.notice)).filter Notice.isNews

@[simp] theorem WorldEvent.news_nil : news [] = [] := rfl

theorem WorldEvent.news_append (ms ms' : List WorldEvent) : news (ms ++ ms') = news ms ++ news ms' := by
  simp [news]

theorem WorldEvent.news_acted (f : Firing) (a : Action) (run : Run) :
    news [.acted f a run] = (run.act f a).1.notices.filter Notice.isNews := by
  simp [news, emissions, Function.comp_def]

theorem WorldEvent.news_ended (actor : ActorId) (effect : String) (stat : Option StatChange) (now : Instant)
    (w : World) : news [.ended actor effect stat now w] =
      (Engine.expireEffect w actor effect stat).1.filter Notice.isNews := by
  simp [news, emissions, Function.comp_def]

namespace Run

open Engine

variable {run run' : Run} {f : Firing} {ms : List WorldEvent}

def news (run : Run) : List Notice := run.notices.filter Notice.isNews

theorem news_note (run : Run) (notices : List Notice) :
    (run.note notices).news = run.news ++ notices.filter Notice.isNews := List.filter_append _ _

theorem news_note_of_none {notices : List Notice} (h : ∀ n ∈ notices, n.isNews = false) (run : Run) :
    (run.note notices).news = run.news := by
  rw [news_note, List.filter_eq_nil_iff.mpr (by simpa using h), List.append_nil]

theorem news_fail (run : Run) (f : Firing) (action reason : String) :
    (run.fail f action reason).news = run.news :=
  news_note_of_none (by simp [Notice.isNews]) run

theorem news_applyFollowup (f : Firing) (run : Run) (x : Followup) :
    (applyFollowup none f run x).news = run.news := by
  unfold applyFollowup
  cases x with
  | setEnabled target enabled =>
    dsimp only
    split
    · rename_i notice engine hs
      rw [notice_of_setEnabled hs]
      exact news_note_of_none (by simp [Notice.isNews]) { run with engine }
    · exact news_fail run f _ _
  | fireRule target => rfl
  | expireEffect actor effect stat after =>
    dsimp only
    split <;> rfl

theorem news_followups (f : Firing) (left : List Followup) (run : Run) :
    (left.foldl (applyFollowup none f) run).news = run.news := by
  induction left generalizing run with
  | nil => rfl
  | cons x rest ih => exact (ih _).trans (news_applyFollowup f run x)

theorem news_act (run : Run) (f : Firing) (a : Action) :
    (run.act f a).2.news = run.news ++ (run.act f a).1.notices.filter Notice.isNews := by
  unfold act
  split
  · exact (List.append_nil _).symm
  · split
    · exact (news_fail run f _ _).trans (List.append_nil _).symm
    · exact news_note { run with world := _ } _

theorem ActionStep.news (h : ActionStep run ms run') : run'.news = run.news ++ WorldEvent.news ms := by
  cases h with
  | told h =>
    rw [news_note_of_none h, WorldEvent.news_nil, List.append_nil]
  | entered | deferred => exact (List.append_nil _).symm
  | acted hactions f a =>
    rw [carryOut, news_followups, news_act, WorldEvent.news_acted]

theorem ActionSteps.news (h : ActionSteps run ms run') : run'.news = run.news ++ WorldEvent.news ms := by
  induction h with
  | refl run => exact (List.append_nil _).symm
  | head h _ ih => rw [ih, h.news, List.append_assoc, WorldEvent.news_append]

end Run

namespace Engine

variable {e e' : Engine} {w w' : World} {op : Operation} {ms : List WorldEvent} {now : Instant}

theorem expireEffect_cases (w : World) (actor : ActorId) (effect : String) (stat : Option StatChange) :
    w.actors.contains actor = false ∧ expireEffect w actor effect stat = ([], w) ∨
      ∃ wasActive w', w.removeEffect actor effect = .ok (wasActive, w') ∧
        expireEffect w actor effect stat =
          ((stat.map fun s => Notice.statDelta actor s.stat s.reversal).toList, w') := by
  unfold expireEffect
  cases hremove : w.removeEffect actor effect with
  | ok r => exact .inr ⟨r.1, r.2, rfl, rfl⟩
  | error err =>
    refine .inl ⟨?_, rfl⟩
    unfold World.removeEffect World.findActor at hremove
    unfold SortedMap.contains
    cases ha : w.actors.get? actor with
    | none => rfl
    | some a =>
      rw [ha] at hremove
      cases hremove

def returnedNotices (e : Engine) : Operation → List Notice
  | .setEnabled ref enabled now =>
    match e.setEnabled ref enabled now with
    | .ok (notice, _) => [notice]
    | .error _ => []
  | .fire w scope event context now => (e.fire w scope event context now).1.notices
  | .handle w o now => (e.handle w o now).1.notices
  | .fireRule w ref context now =>
    match e.fireRule w ref context now with
    | .ok (d, _) => d.notices
    | .error _ => []
  | .advance budget w now =>
    match e.advance budget w now with
    | some (notices, _) => notices
    | none => []
  | _ => []

theorem news_runNext? {notices : List Notice} (hl : e.Linked)
    (hactions : e.settings.actions = .builtin) (h : e.runNext? w now = some (notices, e', w')) :
    notices.filter Notice.isNews = WorldEvent.news (e.nextWorldEvents w now) := by
  obtain ⟨k, r, -, -, ⟨actor, effect, stat, -, hworldEvents, hexpire, -⟩ | ⟨-, run, run', hjobRun⟩⟩ :=
    next_of_runNext? hl hactions h
  · rw [hworldEvents, WorldEvent.news_ended, ← hexpire]
  · have hnews := hjobRun.actionSteps.news
    have hnotices : run'.notices = notices := congrArg Prod.fst hjobRun.result
    unfold Run.news at hnews
    rwa [hjobRun.notices, hnotices] at hnews

theorem news_advanceFrom {budget : Nat} {told : List Notice} {r : List Notice × Engine × World}
    (hl : e.Linked) (hactions : e.settings.actions = .builtin)
    (h : advanceFrom budget told e w now = some r) :
    r.1.filter Notice.isNews =
      told.reverse.filter Notice.isNews ++ WorldEvent.news (advanceWorldEvents budget e w now) := by
  induction budget generalizing e told w with
  | zero =>
    unfold advanceWorldEvents
    unfold advanceFrom at h
    cases hnext : e.runNext? w now with
    | none =>
      rw [hnext] at h
      obtain rfl := Option.some.inj h
      exact (List.append_nil _).symm
    | some next =>
      rw [hnext] at h
      cases h
  | succ budget ih =>
    unfold advanceWorldEvents
    unfold advanceFrom at h
    cases hnext : e.runNext? w now with
    | none =>
      rw [hnext] at h
      obtain rfl := Option.some.inj h
      exact (List.append_nil _).symm
    | some next =>
      obtain ⟨notices, e', w'⟩ := next
      rw [hnext] at h
      have hactions' : e'.settings.actions = .builtin := by
        rw [settings_of_runNext? hl hnext, hactions]
      have hlater := ih (hl.runNext? hnext) hactions' h
      rw [hlater, List.reverseAux_eq, List.reverse_append, List.reverse_reverse, List.filter_append,
        news_runNext? hl hactions hnext, List.append_assoc, WorldEvent.news_append]

theorem returnedNotices_of_scene? (hop : op.scene? = some (w, now)) :
    e.returnedNotices op = ((e.dispatch? op).map (·.1.notices)).getD [] := by
  cases op with
  | fire | handle => rfl
  | fireRule w' ref context now' =>
    unfold returnedNotices dispatch?
    dsimp only
    cases e.fireRule w' ref context now' <;> rfl
  | load | reload | unload | setEnabled | advance | restore => cases hop

theorem news_of_scene? (hl : e.Linked) (hactions : e.settings.actions = .builtin)
    (hop : op.scene? = some (w, now)) :
    (e.returnedNotices op).filter Notice.isNews =
      WorldEvent.news (e.offeredWorldEvents w now (e.offered op)) := by
  rw [returnedNotices_of_scene? hop]
  rcases dispatch?_eq hl.catalog hop with ⟨hnone, hoffered, -⟩ | hsome
  · rw [hnone, hoffered]
    rfl
  · rw [hsome]
    have hs : Run.ActionSteps (Run.start e w now) _ _ :=
      Run.actionSteps_attempts e.settings.maxDepth hactions (installed_of_offered hl.catalog op)
    exact hs.news

theorem news_returnedNotices (hl : e.Linked) (hactions : e.settings.actions = .builtin)
    (hp : e.perform op = some e') :
    (e.returnedNotices op).filter Notice.isNews = WorldEvent.news (e.worldEventsOf op) := by
  cases op with
  | load | reload | unload | restore => rfl
  | setEnabled ref enabled now =>
    unfold returnedNotices
    dsimp only
    split
    · rename_i notice engine hs
      rw [notice_of_setEnabled hs]
      rfl
    · rfl
  | fire w | handle w | fireRule w =>
    exact news_of_scene? hl hactions (show Operation.scene? _ = some (w, _) from rfl)
  | advance budget u now =>
    obtain ⟨r, hr, -⟩ := Option.map_eq_some_iff.mp hp
    have hnews := news_advanceFrom hl hactions hr
    unfold returnedNotices
    dsimp only
    rw [hr]
    exact hnews

section Course

/-- Operations on one world, from an engine on, with their events and all that they return to be told.
An operation that looks at the world finds the one that was left, but for what happens meanwhile. -/
inductive Course (meanwhile : World → World → Prop) (e₀ : Engine) (w₀ : World) :
    List WorldEvent → List Notice → Engine → World → Prop where
  | start : Course meanwhile e₀ w₀ [] [] e₀ w₀
  | next {log : List WorldEvent} {told : List Notice} {e e' : Engine} {w v : World} {op : Operation}
      (h : Course meanwhile e₀ w₀ log told e w) (hv : meanwhile w v) (ha : op.Authored)
      (hop : ∀ u, op.world? = some u → u = v) (hp : e.perform op = some e') :
      Course meanwhile e₀ w₀ (log ++ .called op :: e.worldEventsOf op) (told ++ e.returnedNotices op) e'
        ((e.leaves? op).getD v)

variable {settings : Settings} {ops : List Operation} {meanwhile : World → World → Prop}
  {e₀ : Engine} {w₀ v : World} {log : List WorldEvent} {told : List Notice}

theorem Course.mono {meanwhile' : World → World → Prop} (hle : ∀ w v, meanwhile w v → meanwhile' w v)
    (h : Course meanwhile e₀ w₀ log told e w) : Course meanwhile' e₀ w₀ log told e w := by
  induction h with
  | start => exact .start
  | next _ hv ha hop hp ih => exact ih.next (hle _ _ hv) ha hop hp

theorem Course.reaches (h : Course meanwhile e₀ w₀ log told e w) (h₀ : Reaches settings ops e₀) :
    ∃ ops', Reaches settings ops' e := by
  induction h with
  | start => exact ⟨ops, h₀⟩
  | next h hv ha hop hp ih =>
    obtain ⟨ops', he⟩ := ih
    exact ⟨_, he.next ha hp⟩

theorem worldSteps_of_perform (hl : e.Linked) (hactions : e.settings.actions = .builtin) (ha : op.Authored)
    (hop : ∀ u, op.world? = some u → u = v) (hp : e.perform op = some e') :
    WorldSteps op e v (e.worldEventsOf op) e' ((e.leaves? op).getD v) := by
  obtain ⟨d, w', hworldSteps, hengine, hworld⟩ := exists_worldSteps hl hactions ha v
  obtain rfl := hengine e' hp
  have hfound : op.world?.getD v = v := by
    cases hw : op.world? with
    | none => rfl
    | some u => exact hop u hw
  rw [hfound] at hworldSteps
  have haside (hworldEvents : e.worldEventsOf op = []) (hleaves : e.leaves? op = none) :
      w' = (e.leaves? op).getD v := by
    rw [hleaves, hworldSteps.world, hworldEvents]
    rfl
  have hscene (hleaves : ∃ u, e.leaves? op = some u) : w' = (e.leaves? op).getD v := by
    obtain ⟨u, hu⟩ := hleaves
    rw [hu, hworld u hu]
    rfl
  suffices hleft : w' = (e.leaves? op).getD v by
    rwa [hleft] at hworldSteps
  cases op with
  | load | reload | unload | setEnabled | restore => exact haside rfl rfl
  | fire | handle => exact hscene ⟨_, rfl⟩
  | fireRule w ref context now =>
    refine hscene ?_
    unfold leaves?
    dsimp only
    split <;> exact ⟨_, rfl⟩
  | advance budget w now =>
    obtain ⟨r, hr, -⟩ := Option.map_eq_some_iff.mp hp
    exact hscene ⟨r.2.2, by rw [leaves?, hr]; rfl⟩

theorem WorldSteps.induct {motive : List WorldEvent → Engine → World → Prop} (hl : e.Linked)
    (hworldStep : ∀ log e w ms e' w', e.Linked → WorldStep op e w ms e' w' → motive log e w →
      motive (log ++ ms) e' w')
    (h : WorldSteps op e w ms e' w') (hm : motive log e w) : motive (log ++ ms) e' w' := by
  induction h generalizing log with
  | refl => rwa [List.append_nil]
  | head h _ ih =>
    rw [← List.append_assoc]
    exact ih (h.linked hl) (hworldStep _ _ _ _ _ _ hl h hm)

theorem Course.induct {motive : List WorldEvent → Engine → World → Prop}
    (hactions : settings.actions = .builtin) (h₀ : Reaches settings ops e₀) (hstart : motive [] e₀ w₀)
    (hcalled : ∀ op log e w v, meanwhile w v → motive log e w → motive (log ++ [.called op]) e v)
    (hworldStep : ∀ op log e w ms e' w', e.Linked → WorldStep op e w ms e' w' → motive log e w →
      motive (log ++ ms) e' w')
    (h : Course meanwhile e₀ w₀ log told e w) : motive log e w := by
  induction h with
  | start => exact hstart
  | @next log told e e' w v op h hv ha hop hp ih =>
    obtain ⟨ops', he⟩ := h.reaches h₀
    have hworldSteps := worldSteps_of_perform he.linked (he.settings ▸ hactions) ha hop hp
    rw [List.append_cons]
    exact hworldSteps.induct he.linked (hworldStep op) (hcalled op log e w v hv ih)

def goOn? (s : List WorldEvent × List Notice × Engine × World) (f : World → Operation) :
    Option (List WorldEvent × List Notice × Engine × World) :=
  let (log, told, e, w) := s
  (e.perform (f w)).map fun e' => (log ++ .called (f w) :: e.worldEventsOf (f w),
    told ++ e.returnedNotices (f w), e', (e.leaves? (f w)).getD w)

theorem course_of_goOn? {fs : List (World → Operation)} {s : List WorldEvent × List Notice × Engine × World}
    (hfs : ∀ f ∈ fs, ∀ w, (f w).Authored ∧ ∀ u, (f w).world? = some u → u = w)
    (h : Course Eq e₀ w₀ log told e w) (hs : fs.foldlM goOn? (log, told, e, w) = some s) :
    Course Eq e₀ w₀ s.1 s.2.1 s.2.2.1 s.2.2.2 := by
  induction fs generalizing log told e w with
  | nil =>
    cases hs
    exact h
  | cons f fs ih =>
    obtain ⟨hf, hrest⟩ := List.forall_mem_cons.mp hfs
    rw [List.foldlM_cons] at hs
    obtain ⟨mid, hmid, hs⟩ := Option.bind_eq_some_iff.mp hs
    obtain ⟨e', hp, rfl⟩ := Option.map_eq_some_iff.mp hmid
    exact ih hrest (h.next rfl (hf w).1 (hf w).2 hp) hs

theorem exists_course (e₀ : Engine) (w₀ : World) {fs : List (World → Operation)}
    (p : List WorldEvent × List Notice × Engine × World → Bool)
    (hfs : ∀ f ∈ fs, ∀ w, (f w).Authored ∧ ∀ u, (f w).world? = some u → u = w)
    (h : (fs.foldlM goOn? ([], [], e₀, w₀)).any p = true) :
    ∃ log told e w, Course Eq e₀ w₀ log told e w ∧ p (log, told, e, w) = true := by
  obtain ⟨s, hs, hp⟩ := (Option.any_eq_true _ _).mp h
  exact ⟨_, _, _, _, course_of_goOn? hfs .start hs, hp⟩

end Course

end Engine

end WorldTriggers
