import WorldTriggers.Context
import WorldTriggers.Proofs.Json.Readers
import WorldTriggers.Proofs.TimestampText
import WorldTriggers.Record
import WorldTriggers.Rule

namespace WorldTriggers

open Relation

def RoundTrip (s : Shape) (write : α → Json) (read : Json → Decoded α) (a : α) : Prop :=
  read (write a) = .ok a ∧ ∀ v, ReflTransGen (Edit s) (write a) v → read v.inOrder = .ok a

theorem Indifferent.roundTrip {s : Shape} {write : α → Json} {read : Json → Decoded α} {a : α}
    (h : Indifferent s read) (horder : (write a).inOrder = write a) (hread : read (write a) = .ok a) :
    RoundTrip s write read a := by
  refine ⟨hread, fun v hedits => ?_⟩
  rw [h.edits hedits, horder, hread]

section Values

theorem ok_bind (a : α) (f : α → Except ε β) : (Except.ok a >>= f) = f a := rfl

theorem discard_ok (a : α) : Functor.discard (Except.ok a : Except ε α) = .ok () := rfl

theorem mapM_map_eq_ok {write : α → Json} {read : Json → Decoded α} {as : List α}
    (h : ∀ a ∈ as, read (write a) = .ok a) : (as.map write).mapM read = .ok as := by
  induction as with
  | nil => rfl
  | cons a rest ih =>
    obtain ⟨ha, hrest⟩ := List.forall_mem_cons.mp h
    rw [List.map_cons, List.mapM_cons, ha, ih hrest]
    rfl

namespace Json

theorem asString_string (s : String) : asString (.string s) = .ok s := rfl

theorem asBool_bool (b : Bool) : asBool (.bool b) = .ok b := rfl

theorem asOption_ofOption {write : α → Json} {read : Json → Decoded α} {o : Option α}
    (h : ∀ a, o = some a → write a ≠ .null ∧ read (write a) = .ok a) :
    asOption read (.ofOption write o) = .ok o := by
  cases o with
  | none => rfl
  | some a =>
    obtain ⟨hne, hread⟩ := h a rfl
    rw [ofOption, asOption_of_ne_null hne, hread]
    rfl

theorem asOption_string (o : Option String) : asOption asString (.ofOption .string o) = .ok o :=
  asOption_ofOption fun _ _ => ⟨by simp, rfl⟩

theorem asMap_ofMap (m : SortedMap String Json) : asMap (.ofMap m) = .ok m :=
  congrArg Except.ok (SortedMap.ofList_entries m)

theorem asInt64_int {n : Int} (h : Width.minInt 64 ≤ n ∧ n ≤ Width.maxInt 64) :
    asInt64 (.int n) = .ok n :=
  if_pos h

theorem asNat32_ofNat {n : Nat} (h : n ≤ Width.maxNat 32) : asNat32 (.ofNat n) = .ok n := by
  have hn : (0 : Int) ≤ n ∧ (n : Int) ≤ Width.maxNat 32 := ⟨Int.natCast_nonneg n, by exact_mod_cast h⟩
  unfold asNat32 ofNat asIntIn
  dsimp only
  rw [if_pos hn]
  rfl

theorem ofFloat_of_isFinite {x : Float} (h : x.isFinite = true) : ofFloat x = .float x :=
  if_pos h

theorem asFloat_ofFloat {x : Float} (h : x.isFinite = true) : asFloat (.ofFloat x) = .ok x := by
  rw [ofFloat_of_isFinite h]
  rfl

theorem inOrder_string (s : String) : (string s).inOrder = .string s := rfl

theorem inOrder_bool (b : Bool) : (bool b).inOrder = .bool b := rfl

theorem inOrder_int (n : Int) : (int n).inOrder = .int n := rfl

theorem inOrder_ofOption {write : α → Json} {o : Option α} (h : ∀ a, (write a).inOrder = write a) :
    (ofOption write o).inOrder = .ofOption write o := by
  cases o with
  | none => rfl
  | some a => exact h a

theorem inOrder_ofOption_string (o : Option String) :
    (ofOption .string o).inOrder = .ofOption .string o :=
  inOrder_ofOption inOrder_string

theorem inOrder_ofFloat (x : Float) : (ofFloat x).inOrder = .ofFloat x := by
  unfold ofFloat
  split <;> rfl

theorem inOrder_array_map {write : α → Json} {as : List α} (h : ∀ a ∈ as, (write a).inOrder = write a) :
    (array (as.map write)).inOrder = .array (as.map write) := by
  rw [inOrder_array, List.map_map]
  exact congrArg array (List.map_congr_left h)

end Json

end Values

attribute [local simp] ok_bind discard_ok Fields.of Fields.ofVariant Fields.check Fields.absent
  Fields.required Fields.optional Fields.defaulted Fields.finish List.lookup_cons Json.untag
  Json.asVariant Json.asVariant.named Json.asString_string Json.asBool_bool Json.asOption_string
  Json.asMap_ofMap Json.inOrder_string Json.inOrder_bool Json.inOrder_int Json.inOrder_ofFields
  Json.inOrder_ofOption_string

namespace EventKind

theorem decode_toJson (k : EventKind) : decode k.toJson = .ok k := by
  cases k <;> rfl

end EventKind

namespace Direction

theorem decode_toJson (loose : Bool) (d : Direction) : decode loose d.toJson = .ok d := by
  cases d <;> rfl

theorem asOption_toJson (loose : Bool) (o : Option Direction) :
    Json.asOption (decode loose) (.ofOption toJson o) = .ok o :=
  Json.asOption_ofOption fun d _ => ⟨by simp [toJson], decode_toJson loose d⟩

theorem inOrder_ofOption (o : Option Direction) :
    (Json.ofOption toJson o).inOrder = .ofOption toJson o :=
  Json.inOrder_ofOption fun _ => rfl

end Direction

namespace Scope

theorem decode_toJson (s : Scope) : decode s.toJson = .ok s := by
  cases s <;> rfl

theorem inOrder_toJson (s : Scope) : s.toJson.inOrder = s.toJson := by
  cases s <;> rfl

theorem roundTrip (s : Scope) : RoundTrip .data toJson decode s :=
  (Indifferent.data decode).roundTrip s.inOrder_toJson s.decode_toJson

end Scope

namespace Transition

def known : List (String × Shape) := Shape.plain ["from", "to"]

def shape : Shape := .record known

theorem recordReader_decode : RecordReader known decode :=
  .of_plain (fun key hkey => by split <;> simp_all) fun _ _ h => by simp [h]

theorem toJson_eq (t : Transition) :
    t.toJson = .ofFields [("from", .string t.source), ("to", .string t.target)] := by
  have h : compare "to" "from" = .gt := by decide
  simp [toJson, Json.ofFields, SortedMap.ofList, SortedMap.insert, SortedMap.insertEntry,
    SortedMap.empty, h]

theorem inOrder_toJson (t : Transition) : t.toJson.inOrder = t.toJson := by
  simp [toJson_eq]

theorem inOrder_ofOption (o : Option Transition) :
    (Json.ofOption toJson o).inOrder = .ofOption toJson o :=
  Json.inOrder_ofOption inOrder_toJson

theorem asOption_toJson (o : Option Transition) :
    Json.asOption decode (.ofOption toJson o) = .ok o :=
  Json.asOption_ofOption fun _ _ => ⟨by simp [toJson], rfl⟩

end Transition

namespace Context

def known : List (String × Shape) :=
  ("transition", Transition.shape) :: Shape.plain ["actor", "room", "area", "direction", "command"]

def shape : Shape := .record known

theorem recordReader_decode : RecordReader known decode := by
  refine .of_fields (fun key hkey => ?_) ?_ fun _ _ h => ?_
  · change key ∉ ["transition", "actor", "room", "area", "direction", "command"] at hkey
    split <;> simp_all
  · refine List.forall_mem_cons.mpr ⟨?_, fun e he _ _ => .of_mem_plain he _⟩
    rintro _ ⟨⟩
    exact Transition.recordReader_decode.indifferent.option.discard
  · rw [h.optional "actor" rfl (.data _), h.optional "room" rfl (.data _),
      h.optional "area" rfl (.data _), h.optional "direction" rfl (.data _),
      h.optional "command" rfl (.data _),
      h.optional "transition" rfl Transition.recordReader_decode.indifferent]
    rfl

theorem roundTrip (c : Context) : RoundTrip shape toJson decode c := by
  refine recordReader_decode.indifferent.roundTrip ?_ (recordReader_decode.sorts (by simp) ?_)
  · simp [toJson, Direction.inOrder_ofOption, Transition.inOrder_ofOption]
  · simp [decode, Direction.asOption_toJson, Transition.asOption_toJson]

end Context

namespace Audience

def variants : List (String × List (String × Shape)) :=
  [("actor", Shape.plain ["actor"]), ("room", Shape.plain ["room", "exclude"]),
    ("area", Shape.plain ["area"])]

def shape : Shape := .tagged "type" variants

theorem recordReader_decodeText (name field : String) :
    RecordReader (Shape.plain [field]) (decodeText name field) :=
  .of_plain_variant (fun key hkey => by simp_all) fun _ _ h => by simp [h]

theorem taggedReader_decode : TaggedReader "type" variants decode := by
  refine .of_untag (fun _ => rfl) ?_
  simp only [variants, List.forall_mem_cons]
  refine ⟨(recordReader_decodeText "actor" "actor").bind _, ?_,
    (recordReader_decodeText "area" "area").bind _, by simp⟩
  exact .of_plain_variant (fun key hkey => by split <;> simp_all) fun _ _ h => by simp [h]

theorem decode_toJson (a : Audience) : decode a.toJson = .ok a := by
  cases a <;>
  · refine taggedReader_decode.sorts (by simp [variants]) (by simp) ?_
    simp [decode, decodeTag, tags, decodeText]

theorem inOrder_toJson (a : Audience) : a.toJson.inOrder = a.toJson := by
  cases a <;> simp [toJson]

theorem roundTrip (a : Audience) : RoundTrip shape toJson decode a :=
  taggedReader_decode.indifferent.roundTrip a.inOrder_toJson a.decode_toJson

example : Audience.decode (.object [("actor", .string "bob"), ("note", .null),
    ("type", .string "actor")]) = .ok (.actor "bob") := rfl

end Audience

namespace Occurrence

def variants : List (String × List (String × Shape)) :=
  [("room_entered", Shape.plain ["actor", "room", "direction"]),
    ("room_exited", Shape.plain ["actor", "room", "direction"]),
    ("area_entered", Shape.plain ["actor", "from", "to"]),
    ("area_exited", Shape.plain ["actor", "from", "to"]),
    ("command_attempted", Shape.plain ["actor", "room", "text"])]

def shape : Shape := .tagged "kind" variants

theorem recordReader_decodeMove (name : String) :
    RecordReader (Shape.plain ["actor", "room", "direction"]) (decodeMove name) :=
  .of_plain_variant (fun key hkey => by split <;> simp_all) fun _ _ h => by simp [h]

theorem recordReader_decodeTexts (name a b c : String) :
    RecordReader (Shape.plain [a, b, c]) (decodeTexts name a b c) :=
  .of_plain_variant (fun key hkey => by simp_all) fun _ _ h => by simp [h]

theorem taggedReader_decode : TaggedReader "kind" variants decode := by
  refine .of_untag (fun _ => rfl) ?_
  simp only [variants, List.forall_mem_cons]
  exact ⟨(recordReader_decodeMove _).bind _, (recordReader_decodeMove _).bind _,
    (recordReader_decodeTexts _ _ _ _).bind _, (recordReader_decodeTexts _ _ _ _).bind _,
    (recordReader_decodeTexts _ _ _ _).bind _, by simp⟩

theorem roundTrip (o : Occurrence) : RoundTrip shape toJson decode o := by
  refine taggedReader_decode.indifferent.roundTrip ?_ ?_
  · cases o <;> simp [toJson, Direction.inOrder_ofOption]
  · cases o <;>
    · refine taggedReader_decode.sorts (by simp [variants]) (by simp) ?_
      simp [decode, tags, decodeMove, decodeTexts, Direction.asOption_toJson]

end Occurrence

namespace Notice

def variants : List (String × List (String × Shape)) :=
  [("message", ("target", Audience.shape) :: Shape.plain ["text"]),
    ("stat_delta", Shape.plain ["actor", "stat", "delta"]),
    ("entity", Shape.plain ["action", "kind", "template", "location"]),
    ("actor_moved", Shape.plain ["actor", "from", "to"]),
    ("control_changed", Shape.plain ["scope", "rule_id", "enabled"]),
    ("action_failed", Shape.plain ["rule_id", "action", "reason"])]

def shape : Shape := .tagged "event" variants

theorem recordReader_decodeMessage :
    RecordReader (("target", Audience.shape) :: Shape.plain ["text"]) decodeMessage := by
  refine .of_variant (fun key hkey => ?_) ?_ fun _ _ h => ?_
  · change key ∉ ["target", "text"] at hkey
    split <;> simp_all
  · refine List.forall_mem_cons.mpr ⟨?_, fun e he _ _ => .of_mem_plain he _⟩
    rintro _ ⟨⟩
    exact Audience.taggedReader_decode.indifferent.discard
  · rw [h.required "target" rfl Audience.taggedReader_decode.indifferent,
      h.required "text" rfl (.data _)]
    rfl

theorem recordReader_decodeStatDelta :
    RecordReader (Shape.plain ["actor", "stat", "delta"]) decodeStatDelta :=
  .of_plain_variant (fun key hkey => by split <;> simp_all) fun _ _ h => by simp [h]

theorem recordReader_decodeEntity :
    RecordReader (Shape.plain ["action", "kind", "template", "location"]) decodeEntity :=
  .of_plain_variant (fun key hkey => by split <;> simp_all) fun _ _ h => by simp [h]

theorem recordReader_decodeActorMoved :
    RecordReader (Shape.plain ["actor", "from", "to"]) decodeActorMoved :=
  .of_plain_variant (fun key hkey => by split <;> simp_all) fun _ _ h => by simp [h]

theorem recordReader_decodeControlChanged :
    RecordReader (Shape.plain ["scope", "rule_id", "enabled"]) decodeControlChanged :=
  .of_plain_variant (fun key hkey => by split <;> simp_all) fun _ _ h => by simp [h]

theorem taggedReader_decode : TaggedReader "event" variants decode := by
  refine .of_untag (fun _ => rfl) ?_
  simp only [variants, List.forall_mem_cons]
  exact ⟨recordReader_decodeMessage, recordReader_decodeStatDelta, recordReader_decodeEntity,
    recordReader_decodeActorMoved, recordReader_decodeControlChanged,
    (Occurrence.recordReader_decodeTexts _ _ _ _).bind _, by simp⟩

def IsSized : Notice → Prop
  | statDelta _ _ delta => Width.minInt 64 ≤ delta ∧ delta ≤ Width.maxInt 64
  | _ => True

theorem roundTrip {n : Notice} (h : n.IsSized) : RoundTrip shape toJson decode n := by
  refine taggedReader_decode.indifferent.roundTrip ?_ ?_
  · cases n <;> simp [toJson, Audience.inOrder_toJson, Scope.inOrder_toJson]
  · cases n with
    | message target text =>
      refine taggedReader_decode.sorts (by simp [variants]) (by simp) ?_
      simp [decode, tags, decodeMessage, Audience.decode_toJson]
    | statDelta actor stat delta =>
      refine taggedReader_decode.sorts (by simp [variants]) (by simp) ?_
      simp [decode, tags, decodeStatDelta, Json.asInt64_int h]
    | entity change kind template location =>
      refine taggedReader_decode.sorts (by simp [variants]) (by simp) ?_
      cases change <;> cases kind <;> rfl
    | actorMoved actor source target =>
      refine taggedReader_decode.sorts (by simp [variants]) (by simp) ?_
      simp [decode, tags, decodeActorMoved]
    | controlChanged scope rule enabled =>
      refine taggedReader_decode.sorts (by simp [variants]) (by simp) ?_
      simp [decode, tags, decodeControlChanged, Scope.decode_toJson]
    | actionFailed rule action reason =>
      refine taggedReader_decode.sorts (by simp [variants]) (by simp) ?_
      simp [decode, tags, Occurrence.decodeTexts]

end Notice

namespace Record

def known : List (String × Shape) := Shape.plain ["ruleId", "scopeId", "fireCount", "lastFiredAt"]

def shape : Shape := .record known

theorem recordReader_decode : RecordReader known decode :=
  .of_plain (fun key hkey => by split <;> simp_all) fun _ _ h => by simp [h]

structure IsSound (r : Record) : Prop where
  count : r.fireCount ≤ maxCount
  time : ∀ t, r.lastFired = some t → t.IsValid

theorem roundTrip {r : Record} (h : r.IsSound) : RoundTrip shape toJson decode r := by
  have hread : Json.asOption decodeTimestamp
      (.ofOption (fun t => .string t.render) r.lastFired) = .ok r.lastFired := by
    refine Json.asOption_ofOption fun t ht => ⟨by simp, ?_⟩
    rw [decodeTimestamp, Json.asString_string, ok_bind, Timestamp.read?_render (h.time t ht)]
    rfl
  have horder : (Json.ofOption (fun t => .string (Timestamp.render t)) r.lastFired).inOrder =
      .ofOption (fun t => .string (Timestamp.render t)) r.lastFired :=
    Json.inOrder_ofOption fun _ => rfl
  refine recordReader_decode.indifferent.roundTrip ?_ (recordReader_decode.sorts (by simp) ?_)
  · simp [toJson, Scope.inOrder_toJson, horder, Json.ofNat]
  · simp [decode, Scope.decode_toJson, Json.asNat32_ofNat h.count, hread]

end Record

def Params.InOrder (p : Params) : Prop := ∀ key v, p.get? key = some v → v.inOrder = v

theorem Params.InOrder.ofMap {p : Params} (h : p.InOrder) : (Json.ofMap p).inOrder = .ofMap p := by
  rw [Json.inOrder_ofMap]
  congr 1
  refine SortedMap.ext_get? fun key => ?_
  rw [SortedMap.get?_map]
  cases hkey : p.get? key with
  | none => rfl
  | some v => rw [Option.map_some, h key v hkey]

namespace Condition

def known : List (String × Shape) := Shape.plain ["type", "params", "negate"]

def shape : Shape := .record known

theorem recordReader_decode : RecordReader known decode :=
  .of_plain (fun key hkey => by split <;> simp_all) fun _ _ h => by simp [h]

theorem decode_toJson (c : Condition) : decode c.toJson = .ok c := by
  refine recordReader_decode.sorts (by simp) ?_
  simp [decode]

theorem inOrder_toJson {c : Condition} (h : c.params.InOrder) : c.toJson.inOrder = c.toJson := by
  simp [toJson, h.ofMap]

end Condition

namespace Action

def known : List (String × Shape) := Shape.plain ["type", "params", "delay"]

def shape : Shape := .record known

theorem recordReader_decode : RecordReader known decode :=
  .of_plain (fun key hkey => by split <;> simp_all) fun _ _ h => by simp [h]

theorem decode_toJson {a : Action} (h : a.delay.isFinite = true) : decode a.toJson = .ok a := by
  refine recordReader_decode.sorts (by simp) ?_
  simp [decode, Json.asFloat_ofFloat h]

theorem inOrder_toJson {a : Action} (h : a.params.InOrder) : a.toJson.inOrder = a.toJson := by
  simp [toJson, h.ofMap, Json.inOrder_ofFloat]

end Action

namespace Rule

def known : List (String × Shape) :=
  ("conditions", .list Condition.shape) :: ("actions", .list Action.shape) ::
    Shape.plain ["id", "event", "cooldown", "max_fires", "enabled", "permanent", "command_pattern",
      "timer_interval", "timer_initial_delay"]

def shape : Shape := .record known

theorem recordReader_decode : RecordReader known decode := by
  refine .of_fields (fun key hkey => ?_) ?_ fun _ _ h => ?_
  · change key ∉ ["conditions", "actions", "id", "event", "cooldown", "max_fires", "enabled",
      "permanent", "command_pattern", "timer_interval", "timer_initial_delay"] at hkey
    split <;> simp_all
  · refine List.forall_mem_cons.mpr ⟨?_, List.forall_mem_cons.mpr ⟨?_, ?_⟩⟩
    · rintro _ ⟨⟩
      exact Condition.recordReader_decode.indifferent.list.discard
    · rintro _ ⟨⟩
      exact Action.recordReader_decode.indifferent.list.discard
    · exact fun e he _ _ => .of_mem_plain he _
  · rw [h.required "id" rfl (.data _), h.required "event" rfl (.data _),
      h.defaulted "conditions" rfl Condition.recordReader_decode.indifferent.list,
      h.defaulted "actions" rfl Action.recordReader_decode.indifferent.list,
      h.defaulted "cooldown" rfl (.data _), h.defaulted "max_fires" rfl (.data _),
      h.defaulted "enabled" rfl (.data _), h.defaulted "permanent" rfl (.data _),
      h.defaulted "command_pattern" rfl (.data _), h.defaulted "timer_interval" rfl (.data _),
      h.defaulted "timer_initial_delay" rfl (.data _)]
    rfl

structure IsSound (r : Rule) : Prop where
  limit : Width.minInt 64 ≤ r.maxFires ∧ r.maxFires ≤ Width.maxInt 64
  cooldown : r.cooldown.isFinite = true
  interval : ∀ x, r.timerInterval = some x → x.isFinite = true
  initialDelay : r.timerInitialDelay.isFinite = true
  delays : ∀ a ∈ r.actions, a.delay.isFinite = true
  conditions : ∀ c ∈ r.conditions, c.params.InOrder
  actions : ∀ a ∈ r.actions, a.params.InOrder

variable {r : Rule}

theorem inOrder_toJson (h : r.IsSound) : r.toJson.inOrder = r.toJson := by
  have hconditions : (Json.array (r.conditions.map Condition.toJson)).inOrder =
      .array (r.conditions.map Condition.toJson) :=
    Json.inOrder_array_map fun c hc => Condition.inOrder_toJson (h.conditions c hc)
  have hactions : (Json.array (r.actions.map Action.toJson)).inOrder =
      .array (r.actions.map Action.toJson) :=
    Json.inOrder_array_map fun a ha => Action.inOrder_toJson (h.actions a ha)
  cases hpattern : r.commandPattern <;> cases hinterval : r.timerInterval <;>
    simp [toJson, hpattern, hinterval, hconditions, hactions, Json.inOrder_ofFloat, EventKind.toJson]

theorem decode_toJson (h : r.IsSound) : decode r.toJson = .ok r := by
  obtain ⟨id, event, conditions, actions, cooldown, maxFires, enabled, permanent, pattern, interval,
    initialDelay⟩ := r
  have hconditions : Json.asList Condition.decode (.array (conditions.map Condition.toJson)) =
      .ok conditions :=
    mapM_map_eq_ok fun c _ => c.decode_toJson
  have hactions : Json.asList Action.decode (.array (actions.map Action.toJson)) = .ok actions :=
    mapM_map_eq_ok fun a ha => Action.decode_toJson (h.delays a ha)
  have hpattern (p : String) : Json.asOption Json.asString (.string p) = .ok (some p) := rfl
  have hinterval (x : Float) (hx : interval = some x) :
      Json.asOption Json.asFloat (.ofFloat x) = .ok (some x) := by
    rw [Json.ofFloat_of_isFinite (h.interval x hx)]
    rfl
  cases pattern <;> cases interval
  all_goals
    refine recordReader_decode.sorts (by simp) ?_
    simp [decode, EventKind.decode_toJson, hconditions, hactions, hpattern, hinterval,
      Json.asInt64_int h.limit, Json.asFloat_ofFloat h.cooldown, Json.asFloat_ofFloat h.initialDelay]

theorem roundTrip (h : r.IsSound) : RoundTrip shape toJson decode r :=
  recordReader_decode.indifferent.roundTrip (inOrder_toJson h) (decode_toJson h)

end Rule

section Refusals

def Refused (read : Json → Decoded α) (v : Json) : Prop := ∀ a, read v ≠ .ok a

namespace Scope

def Names (fields : List (String × Json)) (key : String) : Prop :=
  ∃ id, fields.lookup key = some (.string id)

def IsUnclear (fields : List (String × Json)) : Prop :=
  (∃ e ∈ fields, e.1 ≠ "room" ∧ e.1 ≠ "area") ∨ (Names fields "room" ↔ Names fields "area")

theorem names_iff_of_defaulted {fields : List (String × Json)} {typeName key : String} {arity : Nat}
    {o : Option String}
    (h : Fields.defaulted ⟨fields, none, typeName, arity⟩ key (Json.asOption Json.asString) none = .ok o) :
    Names fields key ↔ o.isSome := by
  unfold Fields.defaulted at h
  dsimp only at h
  unfold Names
  cases hkey : fields.lookup key with
  | none =>
    rw [hkey] at h
    cases h
    simp
  | some v =>
    rw [hkey] at h
    cases v <;> cases h <;> simp

theorem refused_of_isUnclear {fields : List (String × Json)} (h : IsUnclear fields) :
    Refused decode (.object fields) := by
  intro s hs
  obtain ⟨f, hf, hs⟩ := bind_eq_ok.mp hs
  cases hf
  obtain ⟨⟨⟩, hcheck, hs⟩ := bind_eq_ok.mp hs
  obtain ⟨room, hroom, hs⟩ := bind_eq_ok.mp hs
  obtain ⟨area, harea, hs⟩ := bind_eq_ok.mp hs
  obtain ⟨⟨⟩, -, hs⟩ := bind_eq_ok.mp hs
  rcases h with ⟨e, he, hne⟩ | h
  · have hkey := forM_eq_ok_iff.mp hcheck e he
    simp [hne] at hkey
  · rw [names_iff_of_defaulted hroom, names_iff_of_defaulted harea] at h
    cases room <;> cases area <;> simp [ofOwners?] at h hs

end Scope

theorem Record.refused_of_scope {fields : List (String × Json)} {v : Json}
    (hscope : fields.lookup "scopeId" = some v) (h : Refused Scope.decode v) :
    Refused decode (.object fields) := by
  intro r hr
  obtain ⟨f, hf, hr⟩ := bind_eq_ok.mp hr
  cases hf
  obtain ⟨⟨⟩, -, hr⟩ := bind_eq_ok.mp hr
  obtain ⟨rule, -, hr⟩ := bind_eq_ok.mp hr
  obtain ⟨scope, hread, -⟩ := bind_eq_ok.mp hr
  rw [Fields.required, hscope] at hread
  exact h scope hread

theorem Notice.refused_of_scope {fields : List (String × Json)} {v : Json}
    (htag : fields.lookup "event" = some (.string "control_changed"))
    (hscope : fields.lookup "scope" = some v) (h : Refused Scope.decode v) :
    Refused decode (.object fields) := by
  intro n hn
  have hrest : (fields.filter (·.1 != "event")).lookup "scope" = some v := by
    rw [lookup_filter_ne (by decide), hscope]
  simp only [decode, Json.untag, htag] at hn
  change decodeControlChanged _ = _ at hn
  obtain ⟨f, hf, hn⟩ := bind_eq_ok.mp hn
  obtain ⟨f', hf', hf⟩ := bind_eq_ok.mp hf
  cases hf'
  obtain ⟨⟨⟩, -, hf⟩ := bind_eq_ok.mp hf
  cases hf
  obtain ⟨scope, hread, -⟩ := bind_eq_ok.mp hn
  rw [Fields.required, hrest] at hread
  exact h scope hread

end Refusals

/-- What is written is read back, whatever the order of the fields and whatever unknown fields were
added; only of a scope every field counts. -/
theorem read_written :
    (∀ o, RoundTrip Occurrence.shape Occurrence.toJson Occurrence.decode o) ∧
    (∀ n : Notice, n.IsSized → RoundTrip Notice.shape Notice.toJson Notice.decode n) ∧
    (∀ a, RoundTrip Audience.shape Audience.toJson Audience.decode a) ∧
    (∀ c, RoundTrip Context.shape Context.toJson Context.decode c) ∧
    (∀ s, RoundTrip .data Scope.toJson Scope.decode s) ∧
    (∀ r : Record, r.IsSound → RoundTrip Record.shape Record.toJson Record.decode r) ∧
    (∀ r : Rule, r.IsSound → RoundTrip Rule.shape Rule.toJson Rule.decode r) ∧
    ∀ fields, Scope.IsUnclear fields →
      Refused Scope.decode (.object fields) ∧
      (∀ others, others.lookup "scopeId" = some (.object fields) →
        Refused Record.decode (.object others)) ∧
      ∀ others, others.lookup "event" = some (.string "control_changed") →
        others.lookup "scope" = some (.object fields) → Refused Notice.decode (.object others) :=
  ⟨Occurrence.roundTrip, fun _ => Notice.roundTrip, Audience.roundTrip, Context.roundTrip,
    Scope.roundTrip, fun _ => Record.roundTrip, fun _ => Rule.roundTrip, fun _ h =>
    have hrefused := Scope.refused_of_isUnclear h
    ⟨hrefused, fun _ hscope => Record.refused_of_scope hscope hrefused,
      fun _ htag hscope => Notice.refused_of_scope htag hscope hrefused⟩⟩

def Record.alarm : Record := ⟨"alarm", .room "cellar", 3, some ⟨1700000000, 250000000⟩⟩

def Rule.alarm : Rule where
  id := "alarm"
  event := .timer
  conditions := [⟨"flag", ⟨[("value", .object [("level", .int 2)])], by simp⟩, true⟩]
  actions := [⟨"message", ⟨[("text", .string "ding")], by simp⟩, 0.5⟩]
  cooldown := 2.5
  maxFires := 3
  enabled := true
  permanent := true
  commandPattern := none
  timerInterval := some 60
  timerInitialDelay := 0

theorem Record.isSound_alarm : Record.alarm.IsSound where
  count := by decide
  time := by
    rintro _ ⟨⟩
    exact ⟨by decide, by decide, by decide⟩

theorem Rule.isSound_alarm : Rule.alarm.IsSound where
  limit := by decide
  cooldown := rfl
  interval := by
    rintro _ ⟨⟩
    rfl
  initialDelay := rfl
  delays := List.forall_mem_singleton.mpr rfl
  conditions := List.forall_mem_singleton.mpr fun key v hv => by
    simp [SortedMap.get?, SortedMap.lookup] at hv
    obtain ⟨-, rfl⟩ := hv
    rfl
  actions := List.forall_mem_singleton.mpr fun key v hv => by
    simp [SortedMap.get?, SortedMap.lookup] at hv
    obtain ⟨-, rfl⟩ := hv
    rfl

theorem read_written_alarm :
    (Notice.statDelta "alice" "health" (-5)).IsSized ∧
    Notice.decode (Notice.statDelta "alice" "health" (-5)).toJson =
      .ok (.statDelta "alice" "health" (-5)) ∧
    Record.alarm.IsSound ∧ RoundTrip Record.shape Record.toJson Record.decode .alarm ∧
    Rule.alarm.IsSound ∧ RoundTrip Rule.shape Rule.toJson Rule.decode .alarm ∧
    Refused Scope.decode (.object [("room", .string "hall"), ("zone", .null)]) := by
  obtain ⟨-, hnotice, -, -, -, hrecord, hrule, hscope⟩ := read_written
  have hsized : (Notice.statDelta "alice" "health" (-5)).IsSized := ⟨by decide, by decide⟩
  have hunclear : Scope.IsUnclear [("room", .string "hall"), ("zone", .null)] :=
    .inl ⟨("zone", .null), by simp, by decide, by decide⟩
  exact ⟨hsized, (hnotice _ hsized).1, Record.isSound_alarm, hrecord _ Record.isSound_alarm,
    Rule.isSound_alarm, hrule _ Rule.isSound_alarm, (hscope _ hunclear).1⟩

end WorldTriggers
