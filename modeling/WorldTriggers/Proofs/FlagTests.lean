import WorldTriggers.Proofs.Json.Same
import WorldTriggers.Proofs.Whereabouts

namespace WorldTriggers

section Forms

def roomParams (place : Option Json) : Params := place.elim .empty (SortedMap.empty.insert "room")

def flagParams (place : Option Json) (flag : String) (value : Json) : Params :=
  ((roomParams place).insert "flag" (.string flag)).insert "value" value

def shortFlagParams (place : Option Json) (flag : String) (value : Json) : Params :=
  (roomParams place).insert flag value

variable {place : Option Json} {flag : String} {value : Json}

theorem get?_roomParams (place : Option Json) (key : String) :
    (roomParams place).get? key = if key = "room" then place else none := by
  cases place with
  | none => simp [roomParams]
  | some r =>
    rw [roomParams, Option.elim_some, SortedMap.get?_insert, SortedMap.get?_empty]

theorem get?_flagParams_room : (flagParams place flag value).get? "room" = place := by
  simp [flagParams, SortedMap.get?_insert, get?_roomParams]

theorem get?_shortFlagParams_room (h : flag ≠ "room") :
    (shortFlagParams place flag value).get? "room" = place := by
  simp [shortFlagParams, SortedMap.get?_insert, get?_roomParams, h.symm]

theorem flag_flagParams : (flagParams place flag value).flag = .ok (flag, value) := by
  have hflag : (flagParams place flag value).get? "flag" = some (.string flag) := by
    simp [flagParams, SortedMap.get?_insert]
  have hvalue : (flagParams place flag value).get? "value" = some value := by simp [flagParams]
  unfold Params.flag
  rw [Params.string?, hflag, hvalue]
  rfl

theorem flag_shortFlagParams (h : flag ≠ "room") (h' : flag ≠ "flag") :
    (shortFlagParams place flag value).flag = .ok (flag, value) := by
  have hflag : (shortFlagParams place flag value).get? "flag" = none := by
    simp [shortFlagParams, SortedMap.get?_insert, get?_roomParams, h'.symm]
  have hrest : (shortFlagParams place flag value).filter (fun key _ => key != "room") =
      SortedMap.empty.insert flag value := by
    apply SortedMap.ext_get?
    intro key
    simp only [shortFlagParams, SortedMap.get?_filter, SortedMap.get?_insert, get?_roomParams,
      SortedMap.get?_empty]
    by_cases hkey : key = flag
    · simp [hkey, h]
    · by_cases hroom : key = "room" <;> simp [hkey, hroom, h.symm]
  have hentries : (shortFlagParams place flag value).entries.filter (fun e => e.1 != "room") =
    [(flag, value)] := congrArg SortedMap.entries hrest
  unfold Params.flag
  rw [Params.string?, hflag, hentries]
  rfl

theorem flagSet_congr {p q : Params} (hroom : p.get? "room" = q.get? "room") (hflag : p.flag = q.flag) :
    ConditionHandler.flagSet p = ConditionHandler.flagSet q := by
  funext env
  simp only [ConditionHandler.flagSet, ConditionEnv.room, Params.string?, hroom, hflag]

theorem setFlag_congr {p q : Params} (hroom : p.get? "room" = q.get? "room") (hflag : p.flag = q.flag) :
    ActionHandler.setFlag p = ActionHandler.setFlag q := by
  funext env
  simp only [ActionHandler.setFlag, ActionEnv.room, Params.string?, hroom, hflag]

theorem flagSet_shortFlagParams (h : flag ≠ "room") (h' : flag ≠ "flag") :
    ConditionHandler.flagSet (shortFlagParams place flag value) =
      ConditionHandler.flagSet (flagParams place flag value) :=
  flagSet_congr ((get?_shortFlagParams_room h).trans get?_flagParams_room.symm)
    ((flag_shortFlagParams h h').trans flag_flagParams.symm)

theorem setFlag_shortFlagParams (h : flag ≠ "room") (h' : flag ≠ "flag") :
    ActionHandler.setFlag (shortFlagParams place flag value) =
      ActionHandler.setFlag (flagParams place flag value) :=
  setFlag_congr ((get?_shortFlagParams_room h).trans get?_flagParams_room.symm)
    ((flag_shortFlagParams h h').trans flag_flagParams.symm)

end Forms

section Writing

variable {r : RoomId} {flag : String} {v u : Json}

theorem string?_flagParams : (flagParams (some (.string r)) flag v).string? "room" = .ok (some r) := by
  rw [Params.string?, get?_flagParams_room]

theorem setFlag_flagParams (env : ActionEnv) (hr : env.world.rooms.contains r = true) :
    ∃ w', ActionHandler.setFlag (flagParams (some (.string r)) flag u) env = .ok ({}, w') ∧
      env.world.setRoomFlag r flag u = .ok w' := by
  obtain ⟨room, hroom⟩ := SortedMap.contains_eq_true_iff.mp hr
  obtain ⟨w', hw'⟩ : ∃ w', env.world.setRoomFlag r flag u = .ok w' :=
    ⟨_, bind_eq_ok.mpr ⟨room, World.findRoom_eq_ok.mpr hroom, rfl⟩⟩
  exact ⟨w', setFlag_eq_ok.mpr ⟨r, flag, u, ActionEnv.room_eq_ok.mpr (.inl string?_flagParams),
    flag_flagParams, hw', rfl⟩, hw'⟩

theorem flagSet_flagParams (env : ConditionEnv) :
    ConditionHandler.flagSet (flagParams (some (.string r)) flag v) env =
      .ok (flagMatches (env.world.roomFlag? r flag) v) :=
  flagSet_eq_ok.mpr ⟨r, flag, v, ConditionEnv.room_eq_ok.mpr (.inl string?_flagParams),
    flag_flagParams, rfl⟩

end Writing

section Testing

/-- A flag of a room that is there can be set to any value. Then it passes as the values that agree with it
and, if it is a number, as those that become one floating point number with it, which only a whole number
beyond the 53 bits that are exact does with another number. A flag and its value may also be written as one
parameter, unless the flag is named `room` or `flag`. A flag that is not set passes as false and as null. -/
theorem flag_as_set (env : ActionEnv) {r : RoomId} (hr : env.world.rooms.contains r = true) (flag : String)
    {v u : Json} (hv : v.isProper = true) (hu : u.isProper = true) :
    (∃ w', ActionHandler.setFlag (flagParams (some (.string r)) flag u) env = .ok ({}, w') ∧
      (∀ k g, w'.roomFlag? k g = if k = r ∧ g = flag then some u else env.world.roomFlag? k g) ∧
      ∀ tester : ConditionEnv, tester.world = w' →
        ∃ b, ConditionHandler.flagSet (flagParams (some (.string r)) flag v) tester = .ok b ∧
          (b = true ↔ Json.Agree v u ∨ Json.RoundTogether v u)) ∧
      (Json.RoundTogether v u → ∃ n, (v = .int n ∨ u = .int n) ∧ 2 ^ 53 < n.natAbs) ∧
      (∀ place, flag ≠ "room" → flag ≠ "flag" →
        ConditionHandler.flagSet (shortFlagParams place flag v) =
            ConditionHandler.flagSet (flagParams place flag v) ∧
          ActionHandler.setFlag (shortFlagParams place flag u) =
            ActionHandler.setFlag (flagParams place flag u)) ∧
      ∀ tester : ConditionEnv, tester.world.roomFlag? r flag = none →
        ∃ b, ConditionHandler.flagSet (flagParams (some (.string r)) flag v) tester = .ok b ∧
          (b = true ↔ v = .bool false ∨ v = .null) := by
  refine ⟨?_, Json.RoundTogether.beyond,
    fun place h h' => ⟨flagSet_shortFlagParams h h', setFlag_shortFlagParams h h'⟩,
    fun tester hnone => ?_⟩
  · obtain ⟨w', hset, hw'⟩ := setFlag_flagParams env hr
    have hflags := World.roomFlag?_of_setRoomFlag hw'
    refine ⟨w', hset, hflags, ?_⟩
    rintro tester rfl
    refine ⟨_, flagSet_flagParams tester, ?_⟩
    rw [hflags, if_pos ⟨rfl, rfl⟩, flagMatches_iff hv hu]
  · refine ⟨_, flagSet_flagParams tester, ?_⟩
    rw [hnone, flagMatches_none]

def flooding : ActionEnv where
  world := { rooms := .ofList [("cellar", { id := "cellar", name := "Cellar" })] }
  context := {}
  scope := .room "cellar"

def lookingAt (w : World) : ConditionEnv where
  world := w
  context := {}
  now := 0
  lastFired := none
  roll := 0

def water (depth : Json) : Params := flagParams (some (.string "cellar")) "water" depth

theorem flag_as_set_water : ∃ w', ActionHandler.setFlag (water (.int 3)) flooding = .ok ({}, w') ∧
    ConditionHandler.flagSet (water (.float 3)) (lookingAt flooding.world) = .ok false ∧
    ConditionHandler.flagSet (shortFlagParams (some (.string "cellar")) "water" (.float 3)) (lookingAt w') =
      .ok true := by
  obtain ⟨⟨w', hset, -, htest⟩, -, hshort, hunset⟩ :=
    flag_as_set flooding (r := "cellar") rfl "water" (v := .float 3) (u := .int 3) rfl rfl
  obtain ⟨b, hb, hiff⟩ := htest (lookingAt w') rfl
  obtain ⟨a, ha, hiff'⟩ := hunset (lookingAt flooding.world) rfl
  have hagree : Json.Agree (.float 3) (.int 3) := by
    have hthree : Decimal.Binary.ofFloat? 3 = some ⟨false, 3 * 2 ^ 51, -51⟩ := rfl
    simp [Json.Agree, Json.value?, hthree, Decimal.Binary.value]
    norm_num
  have hdry : a = false := by simpa using hiff'
  obtain rfl : b = true := hiff.mpr (.inl hagree)
  refine ⟨w', hset, by rw [water, ha, hdry], ?_⟩
  rw [(hshort _ (by decide) (by decide)).1, hb]

/-- Two depths that differ by one pass as each other. -/
theorem neighbours_pass : ∃ w',
    ActionHandler.setFlag (water (.int 9007199254740993)) flooding = .ok ({}, w') ∧
    ConditionHandler.flagSet (water (.int 9007199254740992)) (lookingAt w') = .ok true ∧
    ¬Json.Agree (.int 9007199254740992) (.int 9007199254740993) := by
  obtain ⟨w', hset, hw'⟩ := @setFlag_flagParams "cellar" "water" (.int 9007199254740993) flooding rfl
  have hflag := World.roomFlag?_of_setRoomFlag hw' "cellar" "water"
  have hmatches : flagMatches (some (.int 9007199254740993)) (.int 9007199254740992) = true := by
    decide +kernel
  refine ⟨w', hset, ?_, by simp [Json.Agree, Json.value?]⟩
  rw [water, flagSet_flagParams, lookingAt, hflag, if_pos ⟨rfl, rfl⟩, hmatches]

end Testing

end WorldTriggers
