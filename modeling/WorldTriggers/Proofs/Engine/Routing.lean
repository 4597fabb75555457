import WorldTriggers.Proofs.Engine.Confinement
import WorldTriggers.Proofs.Engine.Installation

namespace WorldTriggers

def Rule.answers (r : Rule) (text : String) : Bool :=
  r.event == .command && r.commandPattern.any fun p => (CommandPattern.ofText p).isMatch text

theorem LoadedRule.matchesCommand_ofRule {r : Rule} (h : r.event = .command) (text : String) :
    (LoadedRule.ofRule r).matchesCommand text = r.answers text := by
  unfold matchesCommand ofRule Rule.answers
  rw [if_pos h, h, Option.any_map]
  rfl

namespace Run

open Engine

variable {run : Run} {f : Firing}

theorem offer_cases (hf : run.engine.Installed f) :
    if f.mayFire run then run.fired ++ [f.ref] <+: (run.offer f).fired else run.offer f = run := by
  obtain ⟨ds, hunfolds⟩ : ∃ ds,
      Unfolds run.engine.settings.maxDepth (.attempt f) 0 run ds 0 (run.offer f) :=
    ⟨_, Passage.unfolds (Nat.zero_le _) (.attempt f) run⟩
  have hfires := hunfolds.fires hf
  generalize run.offer f = run' at hunfolds hfires
  cases hunfolds with
  | refused _ hm => rw [if_neg hm]
  | @fired _ _ _ _ _ ds hm h =>
    rw [if_pos hm, hfires.fired]
    exact ⟨(onsets ds).map Onset.ref, List.append_assoc ..⟩

theorem offers_foldl {fs : List Firing} (hfs : ∀ f ∈ fs, run.engine.Installed f) :
    Offers run (fs.foldl offer run) := by
  induction fs generalizing run with
  | nil => exact .refl
  | cons f fs ih =>
    obtain ⟨hf, hrest⟩ := List.forall_mem_cons.mp hfs
    have hleads := leads_offer run f
    exact .head ⟨f, hf, hleads⟩ (ih fun g hg => (hrest g hg).congr (hleads.steps hf).2.catalog)

end Run

namespace Engine

variable {e : Engine} {w : World} {scope : Scope} {event : EventKind} {context : Context} {now : Instant}

def commandContext (w : World) (actor : ActorId) (room : RoomId) (text : String) : Context :=
  { roomContext w actor room with command := some text }

theorem handle_command (e : Engine) (w : World) (actor : ActorId) (room : RoomId) (text : String)
    (now : Instant) : e.handle w (.commandAttempted actor room text) now =
      let run := (Run.start e w now).fireIn (.room room) .command (commandContext w actor room text)
      match w.roomArea? room with
      | some area =>
        if run.fired.isEmpty then
          (run.fireIn (.area area) .command (commandContext w actor room text)).finish
        else run.finish
      | none => run.finish := rfl

theorem fire_eq (e : Engine) (w : World) (scope : Scope) (event : EventKind) (context : Context)
    (now : Instant) : e.fire w scope event context now =
      ((e.listeners scope event context).foldl Run.offer (Run.start e w now)).finish := by
  unfold fire Run.fireIn listeners
  rw [show (Run.start e w now).engine = e from rfl]
  cases e.catalog.get? scope with
  | none => rfl
  | some i => rw [List.foldl_map]

theorem map_rule_listeners {rules : List Rule} {text : String}
    (hrules : e.loaded scope = rules.map LoadedRule.ofRule) (htext : context.command = some text) :
    (e.listeners scope .command context).map Firing.rule = rules.filter (·.answers text) := by
  have hselects (r : Rule) : ((LoadedRule.ofRule r).rule.event == .command &&
      Run.selects .command context (LoadedRule.ofRule r)) = r.answers text := by
    unfold Run.selects
    rw [htext, show (LoadedRule.ofRule r).rule = r from rfl]
    by_cases hevent : r.event = .command
    · rw [hevent, Option.any_some, LoadedRule.matchesCommand_ofRule hevent]
      rfl
    · rw [beq_eq_false_iff_ne.mpr hevent, Rule.answers, beq_eq_false_iff_ne.mpr hevent]
      rfl
  have hlisteners : (e.listeners scope .command context).map Firing.rule =
      ((e.loaded scope).filter fun l =>
        l.rule.event == .command && Run.selects .command context l).map LoadedRule.rule := by
    unfold listeners loaded
    cases e.catalog.get? scope with
    | none => rfl
    | some i => simp [Installation.boundTo, List.filter_filter, Bool.and_comm, Function.comp_def]
  rw [hlisteners, hrules, List.filter_map, List.map_map]
  simp only [Function.comp_def, hselects]
  exact List.map_id' _

theorem listeners_scope :
    ∀ f ∈ e.listeners scope event context, f.scope = scope ∧ f.context = context := by
  unfold listeners
  cases e.catalog.get? scope with
  | none => exact List.forall_mem_nil _
  | some i =>
    intro f hf
    obtain ⟨l, -, rfl⟩ := List.mem_map.mp hf
    exact ⟨rfl, rfl⟩

theorem nodup_ref_listeners (hsound : e.catalog.Sound) :
    ((e.listeners scope event context).map Firing.ref).Nodup := by
  unfold listeners
  cases hi : e.catalog.get? scope with
  | none => exact .nil
  | some i =>
    have hids : (i.rules.map fun l => l.rule.id).Nodup := by
      have hdistinct := (hsound scope i hi).distinct
      rwa [List.map_map] at hdistinct
    have hrefs : (i.rules.map fun l => (⟨scope, l.rule.id⟩ : RuleRef)).Nodup := by
      have hmap := hids.map (f := RuleRef.mk scope) fun _ _ h => (RuleRef.mk.inj h).2
      rwa [List.map_map] at hmap
    rw [List.map_map]
    exact hrefs.sublist ((List.filter_sublist.trans List.filter_sublist).map _)

/-- A command has the outcome of its room wherever a rule fires there, and otherwise that of the area of
the room, as if the room had not been asked. In either place it is offered to the rules whose patterns
match, to each of them once and in the order of the content that was installed last, and none of them
keeps it from the next. -/
theorem routing_of_reaches {settings : Settings} {ops : List Operation} (h : Reaches settings ops e) :
    (∀ w actor room text now context, context = commandContext w actor room text →
      e.handle w (.commandAttempted actor room text) now =
        if (e.fire w (.room room) .command context now).1.handled then
          e.fire w (.room room) .command context now
        else
          match w.roomArea? room with
          | some area => e.fire w (.area area) .command context now
          | none => (⟨[], []⟩, e, w)) ∧
    ∀ w scope context text now, context.command = some text → ∃ fs : List Firing,
      e.fire w scope .command context now = (fs.foldl Run.offer (Run.start e w now)).finish ∧
      fs.map Firing.rule = (authored scope ops).filter (·.answers text) ∧
      (fs.map Firing.ref).Nodup ∧
      (∀ f ∈ fs, f.scope = scope ∧ f.context = context ∧ e.Installed f) ∧
      ∀ before f after, fs = before ++ f :: after →
        let run := before.foldl Run.offer (Run.start e w now)
        if f.mayFire run then run.fired ++ [f.ref] <+: (run.offer f).fired
        else run.offer f = run := by
  have hsound := h.linked.catalog
  constructor
  · rintro w actor room text now context rfl
    have hroom : Run.Offers (Run.start e w now) ((Run.start e w now).fireIn (.room room) .command
        (commandContext w actor room text)) := Run.offers_fireIn hsound ..
    rw [handle_command]
    unfold fire
    generalize (Run.start e w now).fireIn (.room room) .command
      (commandContext w actor room text) = run at hroom
    by_cases hfired : run.fired = []
    · -- A room where nothing fires leaves the run as it began, for the area to go on from.
      obtain rfl : run = Run.start e w now := hroom.eq_of_fired hfired
      cases w.roomArea? room <;> rfl
    · have hhandled : run.finish.1.handled = true := by simp [Dispatch.handled, Run.finish, hfired]
      have hempty : run.fired.isEmpty = false := by simpa using hfired
      rw [if_pos hhandled]
      cases w.roomArea? room with
      | none => rfl
      | some area =>
        dsimp only
        rw [hempty, if_neg (by simp)]
  · intro w scope context text now htext
    have hinstalled : ∀ f ∈ e.listeners scope .command context, e.Installed f :=
      installed_of_listeners hsound
    refine ⟨e.listeners scope .command context, fire_eq .., map_rule_listeners (h.loaded scope) htext,
      nodup_ref_listeners hsound, fun f hf => ?_, ?_⟩
    · obtain ⟨hscope, hcontext⟩ := listeners_scope f hf
      exact ⟨hscope, hcontext, hinstalled f hf⟩
    · intro before f after hfs
      have hbefore : ∀ g ∈ before, e.Installed g := fun g hg =>
        hinstalled g (hfs ▸ List.mem_append_left _ hg)
      have hf : e.Installed f := hinstalled f (hfs ▸ List.mem_append_right _ List.mem_cons_self)
      have hoffers : Run.Offers (Run.start e w now) (before.foldl Run.offer (Run.start e w now)) :=
        Run.offers_foldl hbefore
      exact Run.offer_cases (hf.congr hoffers.steps.2.catalog)

def courtyard : World :=
  { rooms := .ofList [("courtyard", { id := "courtyard", name := "Courtyard", area := some "castle" })] }

def ropes : Content :=
  .ofRules (.room "courtyard") [
    { Rule.plain "bell" .command [
        ⟨"disable_trigger", .ofList [("trigger", .string "echo")], 0⟩, ⟨"cancel", .empty, 0⟩,
        ⟨"message_room", .ofList [("text", .string "dong")], 0⟩] with commandPattern := some "ring*" },
    { Rule.plain "echo" .command [] with commandPattern := some "ring bell" },
    { Rule.plain "gate" .command [] with commandPattern := some "open gate", enabled := false },
    { Rule.plain "rope" .command [] with commandPattern := some "* bell" }]

def guards : Content :=
  .ofRules (.area "castle") [
    { Rule.plain "guard" .command [] with commandPattern := some "open *" },
    { Rule.plain "alarm" .command [] with commandPattern := some "ring *" }]

def asked (text : String) : Context := commandContext courtyard "ana" "courtyard" text

theorem routing_courtyard :
    ∃ e, Reaches (.builtin 8) [.load guards 0, .load ropes 0] e ∧
      (e.handle courtyard (.commandAttempted "ana" "courtyard" "ring bell") 0).1.fired =
        [⟨.room "courtyard", "bell"⟩, ⟨.room "courtyard", "rope"⟩] ∧
      e.handle courtyard (.commandAttempted "ana" "courtyard" "ring bell") 0 =
        e.fire courtyard (.room "courtyard") .command (asked "ring bell") 0 ∧
      (e.handle courtyard (.commandAttempted "ana" "courtyard" "open gate") 0).1.fired =
        [⟨.area "castle", "guard"⟩] ∧
      e.handle courtyard (.commandAttempted "ana" "courtyard" "open gate") 0 =
        e.fire courtyard (.area "castle") .command (asked "open gate") 0 ∧
      ∃ fs : List Firing, (fs.map fun f => f.rule.id) = ["bell", "echo", "rope"] ∧
        e.fire courtyard (.room "courtyard") .command (asked "ring bell") 0 =
          (fs.foldl Run.offer (Run.start e courtyard 0)).finish := by
  obtain ⟨e, h, hp⟩ := exists_reaches (.builtin 8) [.load guards 0, .load ropes 0]
    (fun e =>
      (e.fire courtyard (.room "courtyard") .command (asked "ring bell") 0).1.fired ==
        [⟨.room "courtyard", "bell"⟩, ⟨.room "courtyard", "rope"⟩] &&
      (e.fire courtyard (.room "courtyard") .command (asked "open gate") 0).1.fired == [] &&
      (e.fire courtyard (.area "castle") .command (asked "open gate") 0).1.fired ==
        [⟨.area "castle", "guard"⟩])
    (by simp [Operation.Authored, ropes, guards, Content.Authored.ofRules]) (by decide +kernel)
  simp only [Bool.and_eq_true, beq_iff_eq] at hp
  obtain ⟨⟨hring, hopen⟩, hguard⟩ := hp
  obtain ⟨hroute, hoffered⟩ := routing_of_reaches h
  have hrung := hroute courtyard "ana" "courtyard" "ring bell" 0 (asked "ring bell") rfl
  have hopened := hroute courtyard "ana" "courtyard" "open gate" 0 (asked "open gate") rfl
  rw [if_pos (by rw [Dispatch.handled, hring]; rfl)] at hrung
  rw [if_neg (by rw [Dispatch.handled, hopen]; simp)] at hopened
  obtain ⟨fs, hfire, hrules, -⟩ := hoffered courtyard (.room "courtyard")
    (asked "ring bell") "ring bell" 0 rfl
  refine ⟨e, h, ?_, hrung, ?_, hopened, fs, ?_, hfire⟩
  · rw [hrung]
    exact hring
  · rw [hopened]
    exact hguard
  · have hids := congrArg (List.map Rule.id) hrules
    rw [List.map_map] at hids
    exact hids.trans (by decide +kernel)

end Engine

end WorldTriggers
