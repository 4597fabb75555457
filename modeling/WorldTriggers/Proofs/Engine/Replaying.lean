import WorldTriggers.Proofs.Engine.ReturnedNotices
import WorldTriggers.Proofs.ReportedChanges

namespace WorldTriggers.Engine

open Run

variable {settings : Settings} {ops : List Operation} {op : Operation} {e₀ e e' : Engine}
  {w₀ w w' : World} {log ms : List WorldEvent} {told : List Notice}

theorem tells_act {run : Run} (hactions : run.engine.settings.actions = .builtin) (f : Firing)
    (a : Action) : Tells run.world (WorldEvent.acted f a run).emissions (run.act f a).2.world := by
  rcases act_cases hactions f a with ⟨hnone, hworld⟩ | ⟨handler, hact, hok⟩
  · change Tells _ ((run.act f a).1.notices.map _) _
    rw [hnone, hworld]
    exact tells_nil rfl
  · exact ActionHandler.reportsChanges_builtin hact _ _ _ _ hok

theorem tells_ended (actor : ActorId) (effect : String) (stat : Option StatChange) (now : Instant)
    (w : World) :
    Tells w (WorldEvent.ended actor effect stat now w).emissions (expireEffect w actor effect stat).2 := by
  change Tells w ((expireEffect w actor effect stat).1.map _) _
  rcases expireEffect_cases w actor effect stat with ⟨-, hexpire⟩ | ⟨_, w', hremove, hexpire⟩
  · rw [hexpire]
    exact tells_nil rfl
  · have hcensus : w'.census = w.census :=
      ActionHandler.census_of_map (c := .removeEffect actor effect) rfl rfl hremove
    rw [hexpire]
    cases stat with
    | none => exact tells_nil hcensus
    | some s => exact tells_single rfl hcensus.symm nofun

theorem WorldStep.tells (h : WorldStep op e w ms e' w') : Tells w (ms.flatMap WorldEvent.emissions) w' := by
  cases h with
  | aside | taken => exact tells_nil rfl
  | runSteps ht h =>
    cases h with
    | told | entered | deferred => exact tells_nil rfl
    | acted hactions f a =>
      rw [List.flatMap_singleton, world_carryOut]
      exact tells_act hactions f a
  | ended =>
    rw [List.flatMap_singleton]
    exact tells_ended _ _ _ _ _

theorem Course.tells (hactions : settings.actions = .builtin) (h₀ : Reaches settings ops e₀)
    (h : Course Eq e₀ w₀ log told e w) : Tells w₀ (log.flatMap WorldEvent.emissions) w := by
  refine h.induct (motive := fun log _ w => Tells w₀ (log.flatMap WorldEvent.emissions) w) hactions h₀
    (tells_nil rfl) (fun op log e w v hv ht => ?_) fun op log e w ms e' w' _ hp ht => ?_
  · subst hv
    rw [List.flatMap_append]
    exact ht.trans (tells_nil rfl)
  · rw [List.flatMap_append]
    exact ht.trans hp.tells

theorem Course.news {meanwhile : World → World → Prop} (hactions : settings.actions = .builtin)
    (h₀ : Reaches settings ops e₀) (h : Course meanwhile e₀ w₀ log told e w) :
    told.filter Notice.isNews = WorldEvent.news log := by
  induction h with
  | start => rfl
  | @next log told e e' w v op h hv ha hop hp ih =>
    obtain ⟨ops', he⟩ := h.reaches h₀
    rw [List.filter_append, ih, news_returnedNotices he.linked (he.settings ▸ hactions) hp,
      WorldEvent.news_append]
    exact congrArg _ (WorldEvent.news_append [.called op] (e.worldEventsOf op)).symm

/-- What operations return to be told is a faithful log of the world. Its news is that of the actions and
the ends of effects, in order; replayed over a count of the world it gives the count of the world in the
end; and who is told that an actor moved is told from where. -/
theorem faithful_of_course (hactions : settings.actions = .builtin) (h₀ : Reaches settings ops e₀)
    (h : Course Eq e₀ w₀ log told e w) :
    told.filter Notice.isNews = (log.flatMap WorldEvent.emissions).map (·.notice) ∧
      (log.flatMap WorldEvent.emissions).foldl Census.replay w₀.census = w.census ∧
      ∀ before m later, log.flatMap WorldEvent.emissions = before ++ m :: later →
        m.Departs (before.foldl Census.replay w₀.census) := by
  have htells := h.tells hactions h₀
  refine ⟨?_, htells.census, htells.departs⟩
  rw [h.news hactions h₀, WorldEvent.news]
  refine List.filter_eq_self.mpr fun n hn => ?_
  obtain ⟨m, hm, rfl⟩ := List.mem_map.mp hn
  exact htells.news m hm

def warren : World :=
  { rooms := .ofList [("den", { id := "den", name := "Den" }), ("tunnel", { id := "tunnel", name := "Tunnel" })]
    actors := .ofList [("alice", { id := "alice", name := "Alice", room := some "den", health := 30 })] }

def raid : Content :=
  .ofRules (.room "den") [.plain "raid" .enter [
    ⟨"spawn_npc", .ofList [("template", .string "rat")], 0⟩,
    ⟨"move_npc", .ofList [("template", .string "rat"), ("to", .string "den")], 0⟩,
    ⟨"despawn_npc", .ofList [("template", .string "cat")], 0⟩,
    ⟨"damage", .ofList [("amount", .int 50)], 0⟩,
    ⟨"apply_effect", .ofList [("effect", .string "fever"), ("stat", .string "health"), ("amount", .int 5),
      ("duration", .int 10)], 0⟩,
    ⟨"heal", .ofList [("amount", .int 12)], 0⟩,
    ⟨"grant_xp", .ofList [("amount", .int 7)], 0⟩,
    ⟨"teleport", .ofList [("room", .string "tunnel")], 0⟩,
    ⟨"move_npc", .ofList [("template", .string "rat"), ("from", .string "den"), ("to", .string "tunnel")], 0⟩]]

def raiding : List (World → Operation) :=
  [fun _ => .load raid 0, fun w => .fireRule w ⟨.room "den", "raid"⟩ { actor := some "alice" } 0,
    fun w => .advance 5 w 20000000000]

def raidNews : List Notice :=
  [.entity .spawn .npc "rat" "den", .entity .despawn .npc "rat" "den", .entity .spawn .npc "rat" "den",
    .statDelta "alice" "health" (-30), .statDelta "alice" "health" 5, .statDelta "alice" "health" 12,
    .statDelta "alice" "experience" 7, .actorMoved "alice" (some "den") "tunnel",
    .entity .despawn .npc "rat" "den", .entity .spawn .npc "rat" "tunnel",
    .statDelta "alice" "health" (-5)]

theorem faithful_raiding : ∃ log told e w, Course Eq (ofSettings (.builtin 8)) warren log told e w ∧
    told.filter Notice.isNews = raidNews ∧ raidNews = (log.flatMap WorldEvent.emissions).map (·.notice) ∧
    (log.flatMap WorldEvent.emissions).foldl Census.replay warren.census = w.census ∧
    w.npcCount "tunnel" "rat" = 1 ∧ w.actorRoom? "alice" = some "tunnel" ∧
    w.actorHealth? "alice" = some (12, 100) := by
  have hauthored : ∀ f ∈ raiding, ∀ w, (f w).Authored ∧ ∀ u, (f w).world? = some u → u = w := by
    simp [raiding, raid, Operation.Authored, Operation.world?, Content.Authored.ofRules]
  obtain ⟨log, told, e, w, hcourse, hp⟩ := exists_course (ofSettings (.builtin 8)) warren
    (fun s => decide (s.2.1.filter Notice.isNews = raidNews ∧ s.2.2.2.npcCount "tunnel" "rat" = 1 ∧
      s.2.2.2.actorRoom? "alice" = some "tunnel" ∧ s.2.2.2.actorHealth? "alice" = some (12, 100)))
    hauthored (by decide +kernel)
  obtain ⟨hnews, hplaces⟩ := of_decide_eq_true hp
  obtain ⟨htold, hreplay, -⟩ := faithful_of_course rfl .start hcourse
  exact ⟨log, told, e, w, hcourse, hnews, hnews.symm.trans htold, hreplay, hplaces⟩

end WorldTriggers.Engine
