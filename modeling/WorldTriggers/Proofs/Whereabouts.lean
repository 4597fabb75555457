import WorldTriggers.Proofs.World.Change

namespace WorldTriggers

open ActionHandler (mapError_eq_ok)

section Chains

variable {p : Params} {r : RoomId}

theorem ConditionEnv.room_eq_ok {env : ConditionEnv} : env.room p = .ok r ↔
    p.string? "room" = .ok (some r) ∨ p.string? "room" = .ok none ∧ env.contextRoom? = some r := by
  constructor
  · intro h
    obtain ⟨named, hnamed, h⟩ := bind_eq_ok.mp h
    have hp := mapError_eq_ok.mp hnamed
    cases named with
    | some s =>
      cases h
      exact .inl hp
    | none =>
      refine .inr ⟨hp, ?_⟩
      cases hroom : env.contextRoom? with
      | some s => simp_all [pure, Except.pure]
      | none => simp_all [throw, throwThe, MonadExceptOf.throw]
  · rintro (hp | ⟨hp, hroom⟩)
    · exact bind_eq_ok.mpr ⟨some r, mapError_eq_ok.mpr hp, rfl⟩
    · refine bind_eq_ok.mpr ⟨none, mapError_eq_ok.mpr hp, ?_⟩
      rw [hroom]
      rfl

theorem ActionEnv.ownRoom_eq_ok {env : ActionEnv} : env.ownRoom = .ok r ↔ env.ownRoom? = some r := by
  unfold ownRoom
  cases env.ownRoom? <;> simp

theorem ActionEnv.room_eq_ok {env : ActionEnv} : env.room p = .ok r ↔
    p.string? "room" = .ok (some r) ∨ p.string? "room" = .ok none ∧ env.ownRoom? = some r := by
  constructor
  · intro h
    obtain ⟨named, hnamed, h⟩ := bind_eq_ok.mp h
    have hp := mapError_eq_ok.mp hnamed
    cases named with
    | some s =>
      cases h
      exact .inl hp
    | none => exact .inr ⟨hp, ownRoom_eq_ok.mp h⟩
  · rintro (hp | ⟨hp, hroom⟩)
    · exact bind_eq_ok.mpr ⟨some r, mapError_eq_ok.mpr hp, rfl⟩
    · exact bind_eq_ok.mpr ⟨none, mapError_eq_ok.mpr hp, ownRoom_eq_ok.mpr hroom⟩

end Chains

section Rooms

/-- The actor of a firing is in `r`, the rule belongs to another room `r'`, and the context names none. -/
structure AtOdds (context : Context) (scope : Scope) (w : World) (r r' : RoomId) : Prop where
  unnamed : context.room = none
  actor : context.actor.bind w.actorRoom? = some r
  scope : scope = .room r'
  apart : r ≠ r'

def ConditionEnv.acting (env : ConditionEnv) (scope : Scope) : ActionEnv := ⟨env.world, env.context, scope⟩

variable {env : ConditionEnv} {r r' : RoomId}

theorem ownRoom?_of_contextRoom? (hr : env.contextRoom? = some r) (scope : Scope) :
    (env.acting scope).ownRoom? = some r ∨
      ∃ r', (env.acting scope).ownRoom? = some r' ∧ AtOdds env.context scope env.world r r' := by
  unfold ConditionEnv.contextRoom? at hr
  cases hnamed : env.context.room with
  | some s => simp_all [ConditionEnv.acting, ActionEnv.ownRoom?]
  | none =>
    have hactor : env.context.actor.bind env.world.actorRoom? = some r := by simpa [hnamed] using hr
    have hown : (env.acting scope).ownRoom? = ((env.acting scope).scopeRoom? <|> some r) := by
      simp [ConditionEnv.acting, ActionEnv.ownRoom?, hnamed, hactor]
    cases scope with
    | area a => exact .inl hown
    | room own =>
      by_cases h : r = own
      · subst own
        exact .inl hown
      · exact .inr ⟨own, hown, hnamed, hactor, rfl, h⟩

theorem room_acting {p q : Params} (hpq : p.string? "room" = q.string? "room") (hr : env.room p = .ok r)
    (scope : Scope) : (env.acting scope).room q = .ok r ∨
      ∃ r', (env.acting scope).room q = .ok r' ∧ p.string? "room" = .ok none ∧
        AtOdds env.context scope env.world r r' := by
  rcases ConditionEnv.room_eq_ok.mp hr with hp | ⟨hp, hroom⟩
  · exact .inl (ActionEnv.room_eq_ok.mpr (.inl (hpq ▸ hp)))
  · rcases ownRoom?_of_contextRoom? hroom scope with hown | ⟨r', hown, hodds⟩
    · exact .inl (ActionEnv.room_eq_ok.mpr (.inr ⟨hpq ▸ hp, hown⟩))
    · exact .inr ⟨r', ActionEnv.room_eq_ok.mpr (.inr ⟨hpq ▸ hp, hown⟩), hp, hodds⟩

end Rooms

section Flags

variable {w w' : World} {room : RoomId} {flag : String} {value : Json} {p : Params}

theorem World.roomFlag?_of_setRoomFlag (h : w.setRoomFlag room flag value = .ok w') (k : RoomId)
    (g : String) : w'.roomFlag? k g = if k = room ∧ g = flag then some value else w.roomFlag? k g := by
  obtain ⟨r, hr, h⟩ := bind_eq_ok.mp h
  cases h
  have hget := findRoom_eq_ok.mp hr
  unfold roomFlag? putRoom
  dsimp only
  rw [SortedMap.get?_insert]
  by_cases hk : k = room
  · subst k
    rw [if_pos rfl, hget, Option.bind_some, Option.bind_some, SortedMap.get?_insert]
    simp
  · rw [if_neg hk, if_neg fun h => hk h.1]

theorem flagSet_eq_ok {env : ConditionEnv} {b : Bool} : ConditionHandler.flagSet p env = .ok b ↔
    ∃ r flag value, env.room p = .ok r ∧ p.flag = .ok (flag, value) ∧
      b = flagMatches (env.world.roomFlag? r flag) value := by
  constructor
  · intro h
    obtain ⟨r, hr, h⟩ := bind_eq_ok.mp h
    obtain ⟨⟨flag, value⟩, hflag, h⟩ := bind_eq_ok.mp h
    cases h
    exact ⟨r, flag, value, hr, hflag, rfl⟩
  · rintro ⟨r, flag, value, hr, hflag, rfl⟩
    exact bind_eq_ok.mpr ⟨r, hr, bind_eq_ok.mpr ⟨(flag, value), hflag, rfl⟩⟩

theorem setFlag_eq_ok {env : ActionEnv} {o : Outcome} : ActionHandler.setFlag p env = .ok (o, w') ↔
    ∃ r flag value, env.room p = .ok r ∧ p.flag = .ok (flag, value) ∧
      env.world.setRoomFlag r flag value = .ok w' ∧ o = {} := by
  constructor
  · intro h
    obtain ⟨r, hr, h⟩ := bind_eq_ok.mp h
    obtain ⟨⟨flag, value⟩, hflag, h⟩ := bind_eq_ok.mp h
    obtain ⟨w'', hset, h⟩ := bind_eq_ok.mp h
    cases h
    exact ⟨r, flag, value, hr, mapError_eq_ok.mp hflag, mapError_eq_ok.mp hset, rfl⟩
  · rintro ⟨r, flag, value, hr, hflag, hset, rfl⟩
    exact bind_eq_ok.mpr ⟨r, hr, bind_eq_ok.mpr ⟨(flag, value), mapError_eq_ok.mpr hflag,
      bind_eq_ok.mpr ⟨w', mapError_eq_ok.mpr hset, rfl⟩⟩⟩

end Flags

section Agreement

/-- Of one rule, the guards and the actions that are given the same room are about the same room, unless none
is given and the rule is at odds with its actor: then guards look where the actor is, and actions act on the
rule's own room. So a flag that guards and actions name is tested where it is set. -/
theorem sameRoom_iff (env : ConditionEnv) (scope : Scope) (p q : Params)
    (hpq : p.string? "room" = q.string? "room") :
    (∀ r, env.room p = .ok r → ∃ r', (env.acting scope).room q = .ok r') ∧
      (∀ r r', env.room p = .ok r ∧ (env.acting scope).room q = .ok r' ∧ r ≠ r' ↔
        p.string? "room" = .ok none ∧ AtOdds env.context scope env.world r r') ∧
      ∀ flag expected value b o w', p.flag = .ok (flag, expected) → q.flag = .ok (flag, value) →
        ConditionHandler.flagSet p env = .ok b →
        ActionHandler.setFlag q (env.acting scope) = .ok (o, w') →
        ∃ r r', b = flagMatches (env.world.roomFlag? r flag) expected ∧
          (∀ room g, w'.roomFlag? room g =
            if room = r' ∧ g = flag then some value else env.world.roomFlag? room g) ∧
          (r = r' ∨ p.string? "room" = .ok none ∧ AtOdds env.context scope env.world r r') := by
  refine ⟨fun r hr => ?_, fun r r' => ⟨?_, ?_⟩, ?_⟩
  · rcases room_acting hpq hr scope with hsame | ⟨r', hr', -⟩
    · exact ⟨r, hsame⟩
    · exact ⟨r', hr'⟩
  · rintro ⟨hr, hr', hne⟩
    rcases room_acting hpq hr scope with hsame | ⟨s, hs, hodds⟩
    · exact absurd (Except.ok.inj (hsame.symm.trans hr')) hne
    · rwa [← Except.ok.inj (hs.symm.trans hr')]
  · rintro ⟨hp, hodds⟩
    refine ⟨ConditionEnv.room_eq_ok.mpr (.inr ⟨hp, ?_⟩), ActionEnv.room_eq_ok.mpr (.inr ⟨hpq ▸ hp, ?_⟩),
      hodds.apart⟩
    · simp [ConditionEnv.contextRoom?, hodds.unnamed, hodds.actor]
    · simp [ConditionEnv.acting, ActionEnv.ownRoom?, ActionEnv.scopeRoom?, hodds.unnamed, hodds.scope]
  · intro flag expected value b o w' hexpected hvalue htest hset
    obtain ⟨r, _, _, hr, hflag, rfl⟩ := flagSet_eq_ok.mp htest
    obtain ⟨r', _, _, hr', hflag', hmade, -⟩ := setFlag_eq_ok.mp hset
    cases hexpected.symm.trans hflag
    cases hvalue.symm.trans hflag'
    refine ⟨r, r', rfl, World.roomFlag?_of_setRoomFlag hmade, ?_⟩
    rcases room_acting hpq hr scope with hsame | ⟨s, hs, hodds⟩
    · exact .inl (Except.ok.inj (hsame.symm.trans hr'))
    · cases Except.ok.inj (hs.symm.trans hr')
      exact .inr hodds

def belowStairs : ConditionEnv where
  world := {
    rooms := .ofList [
      ("hall", { id := "hall", name := "Hall", flags := .ofList [("lit", .bool true)] }),
      ("cellar", { id := "cellar", name := "Cellar" })]
    actors := .ofList [("alice", { id := "alice", name := "Alice", room := some "cellar" })] }
  context := { actor := some "alice" }
  now := 0
  lastFired := none
  roll := 0

def lamp (lit : Bool) : Params := .ofList [("lit", .bool lit)]

theorem sameRoom_keep : ∃ w' r r', ConditionHandler.flagSet (lamp false) belowStairs = .ok true ∧
    ActionHandler.setFlag (lamp true) (belowStairs.acting (.area "keep")) = .ok ({}, w') ∧
    flagMatches (belowStairs.world.roomFlag? r "lit") (.bool false) = true ∧
    w'.roomFlag? r' "lit" = some (.bool true) ∧ r = r' := by
  have htest : ConditionHandler.flagSet (lamp false) belowStairs = .ok true := rfl
  obtain ⟨w', hset⟩ : ∃ w', ActionHandler.setFlag (lamp true) (belowStairs.acting (.area "keep")) =
      .ok ({}, w') := ⟨_, rfl⟩
  obtain ⟨-, -, hflags⟩ := sameRoom_iff belowStairs (.area "keep") (lamp false) (lamp true) rfl
  obtain ⟨r, r', hmatches, hwritten, hsame | ⟨-, hodds⟩⟩ :=
    hflags "lit" (.bool false) (.bool true) true {} w' rfl rfl htest hset
  · exact ⟨w', r, r', htest, hset, hmatches.symm, by rw [hwritten, if_pos ⟨rfl, rfl⟩], hsame⟩
  · cases hodds.scope

/-- A rule of the hall that lights the lamp where it is not lit fires for Alice although the hall is lit. -/
theorem guard_looks_elsewhere : ∃ w', belowStairs.room (lamp true) = .ok "cellar" ∧
    (belowStairs.acting (.room "hall")).room (lamp true) = .ok "hall" ∧
    belowStairs.world.roomFlag? "hall" "lit" = some (.bool true) ∧
    ConditionHandler.flagSet (lamp false) belowStairs = .ok true ∧
    ActionHandler.setFlag (lamp true) (belowStairs.acting (.room "hall")) = .ok ({}, w') ∧
    w'.roomFlag? "cellar" "lit" = none :=
  ⟨_, rfl, rfl, rfl, rfl, rfl, rfl⟩

end Agreement

end WorldTriggers
