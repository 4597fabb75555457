import Mathlib.Tactic
import WorldTriggers.Console
import WorldTriggers.Proofs.Scope
import WorldTriggers.Proofs.Words

namespace WorldTriggers

open Text

def ConsoleVerb.wordsBefore? : ConsoleVerb → Option Nat
  | .act => some 3
  | .load => some 1
  | _ => none

theorem ConsoleVerb.ofText?_comment (cs : List Char) : ofText? (String.ofList ('#' :: cs)) = none := by
  have hlow : lowerChar '#' = '#' := by decide +kernel
  have hhead : (lowercase (String.ofList ('#' :: cs))).toList.head? = some '#' := by
    simp [lowercase, lowercaseOf, lowercaseFrom, hlow]
  have hspelled : ∀ p ∈ spellings, p.1.toList.head? ≠ some '#' := by decide
  apply List.lookup_eq_none_iff.mpr
  intro p hp
  apply bne_iff_ne.mpr
  intro heq
  apply hspelled p hp
  rw [← heq, hhead]

namespace ConsoleCommand

def names : ConsoleCommand → List String
  | occur (.roomEntered actor room _) => [actor, room]
  | occur (.roomExited actor room _) => [actor, room]
  | occur (.areaEntered actor source target) => [actor, source, target]
  | occur (.areaExited actor source target) => [actor, source, target]
  | occur (.commandAttempted actor room _) => [actor, room]
  | setEnabled ref _ => [ref.scope.id, ref.rule]
  | fire ref actor => ref.scope.id :: ref.rule :: actor.toList
  | unload scope => [scope.id]
  | load _ => []
  | save => []
  | quit => []

def verb? (line : List Char) : Option ConsoleVerb :=
  (wordsOf line).head?.bind fun w => ConsoleVerb.ofText? (String.ofList w)

/-- The second and the third word of a typed command are one blank apart. -/
def Parted (line : List Char) : Prop :=
  verb? line = some .act → 3 ≤ (wordsOf line).length →
    ((afterWord (afterWord line)).takeWhile isBlank).length = 1

instance (line : List Char) : Decidable (Parted line) :=
  inferInstanceAs (Decidable (verb? line = some .act → 3 ≤ (wordsOf line).length →
    ((afterWord (afterWord line)).takeWhile isBlank).length = 1))

variable {cs lead w rest line : List Char}

theorem splitBlank_word (hw : ∀ c ∈ w, isBlank c = false) (hr : Stops rest) :
    splitBlank (w ++ rest) = (w, rest.tail?) := by
  induction w with
  | nil =>
    cases rest with
    | nil => rfl
    | cons c rest => simp [splitBlank, hr c rfl]
  | cons c w ih =>
    obtain ⟨hc, hw⟩ := List.forall_mem_cons.mp hw
    rw [List.cons_append, splitBlank, ih hw]
    simp [hc]

theorem trimOf_tail (h : Stops cs) : trimOf cs.tail = trimOf cs := by
  cases cs with
  | nil => rfl
  | cons c cs => exact (trimOf_append (List.forall_mem_singleton.mpr (h c rfl)) cs).symm

theorem takeWhile_word (hl : Blanks lead) (hw : Word w) (rest : List Char) :
    (lead ++ (w ++ rest)).takeWhile isBlank = lead := by
  obtain ⟨c, t, rfl, hc⟩ := hw.eq_cons
  rw [List.takeWhile_append_of_pos hl]
  simp [hc]

theorem splitCommand?_trimOf
    (h : 2 ≤ (wordsOf cs).length → ((afterWord cs).takeWhile isBlank).length = 1) :
    splitCommand? (trimOf cs) =
      match wordsOf cs with
      | actor :: room :: _ :: _ =>
        some (String.ofList actor, String.ofList room, String.ofList (textAfter 2 cs))
      | _ => none := by
  rcases blanks_or_word cs with hb | ⟨lead, actor, cs, hlead, hactor, hcs, rfl⟩
  · rw [trimOf_blanks hb, wordsOf_blanks hb]
    rfl
  rw [wordsOf_append hlead, wordsOf_word hactor hcs, afterWord_word hlead hactor hcs] at h
  rw [trimOf_word hlead hactor, wordsOf_append hlead, wordsOf_word hactor hcs, splitCommand?,
    splitBlank_word hactor.not_blank (stops_trimEndOf hcs), textAfter,
    afterWord_word hlead hactor hcs]
  rcases blanks_or_word cs with hb | ⟨gap, room, cs, hgap, hroom, hcs', rfl⟩
  · rw [trimEndOf_blanks hb, wordsOf_blanks hb]
    rfl
  rw [wordsOf_append hgap, wordsOf_word hroom hcs', takeWhile_word hgap hroom] at h
  -- A gap of one blank is used up by the first split, so that the second one starts at the room.
  obtain ⟨b, rfl⟩ := List.length_eq_one_iff.mp (h (by simp))
  rw [wordsOf_append hgap, wordsOf_word hroom hcs', trimEndOf_word _ hroom, textAfter, textAfter,
    afterWord_word hgap hroom hcs']
  simp only [List.singleton_append, List.tail?_cons,
    splitBlank_word hroom.not_blank (stops_trimEndOf hcs')]
  rcases blanks_or_word cs with hb | ⟨gap', w, rest, hgap', hw, hr, rfl⟩
  · rw [trimEndOf_blanks hb, wordsOf_blanks hb]
    rfl
  have hne : trimEndOf (gap' ++ (w ++ rest)) ≠ [] := by
    rw [trimEndOf_word gap' hw]
    simp [hw.ne_nil]
  obtain ⟨c, t, ht⟩ := List.exists_cons_of_ne_nil hne
  have htext : trimOf t = trimOf (gap' ++ (w ++ rest)) := by
    rw [← trimOf_trimEndOf (gap' ++ _), ht]
    exact trimOf_tail (ht ▸ stops_trimEndOf hcs')
  rw [wordsOf_append hgap', wordsOf_word hw hr, ht, List.tail?_cons]
  simp only [htext]

theorem splitCommand?_of_wide_gap (hlen : 2 ≤ (wordsOf cs).length)
    (hgap : 1 < ((afterWord cs).takeWhile isBlank).length) :
    ∃ actor text, splitCommand? (trimOf cs) = some (actor, "", text) := by
  rcases blanks_or_word cs with hb | ⟨lead, actor, cs, hlead, hactor, hcs, rfl⟩
  · simp [wordsOf_blanks hb] at hlen
  rw [wordsOf_append hlead, wordsOf_word hactor hcs] at hlen
  rw [afterWord_word hlead hactor hcs] at hgap
  rcases blanks_or_word cs with hb | ⟨gap, room, rest, hblank, hroom, hr, rfl⟩
  · simp [wordsOf_blanks hb] at hlen
  rw [takeWhile_word hblank hroom] at hgap
  obtain ⟨b, gap, rfl⟩ := List.exists_cons_of_length_pos (by omega : 0 < gap.length)
  rw [List.length_cons] at hgap
  obtain ⟨c, gap, rfl⟩ := List.exists_cons_of_length_pos (by omega : 0 < gap.length)
  have hb : isBlank b = true := hblank b (by simp)
  have hc : isBlank c = true := hblank c (by simp)
  have hstops : Stops (b :: c :: gap ++ (room ++ trimEndOf rest)) := by
    rintro d ⟨⟩
    exact hb
  refine ⟨String.ofList actor, String.ofList (trimOf (gap ++ (room ++ trimEndOf rest))), ?_⟩
  rw [trimOf_word hlead hactor, trimEndOf_word _ hroom, splitCommand?,
    splitBlank_word hactor.not_blank hstops]
  simp [splitBlank, hc]

theorem ofTrimmed_trimOf (line : List Char) :
    ofTrimmed (trimOf line) =
      match wordsOf line with
      | [] => .ok none
      | w :: _ =>
        if w.head? = some '#' then .ok none
        else
          match ConsoleVerb.ofText? (String.ofList w) with
          | some v => (ofVerb v (textAfter 1 line)).map some
          | none => .error (.unknownVerb (String.ofList w)) := by
  rcases blanks_or_word line with hb | ⟨lead, w, rest, hl, hw, hr, rfl⟩
  · rw [trimOf_blanks hb, wordsOf_blanks hb]
    rfl
  have hrest : trimOf ((trimEndOf rest).tail?.getD []) = trimOf rest := by
    have htail : (trimEndOf rest).tail?.getD [] = (trimEndOf rest).tail := by
      cases trimEndOf rest <;> rfl
    rw [htail, trimOf_tail (stops_trimEndOf hr), trimOf_trimEndOf]
  rw [trimOf_word hl hw, wordsOf_append hl, wordsOf_word hw hr, textAfter, textAfter,
    afterWord_word hl hw hr]
  have hsplit := splitBlank_word hw.not_blank (stops_trimEndOf hr)
  obtain ⟨c, t, rfl, hc⟩ := hw.eq_cons
  dsimp only
  by_cases hcomment : c = '#'
  · subst c
    simp [ofTrimmed]
  · rw [if_neg (by simpa using hcomment)]
    unfold ofTrimmed
    split
    · rename_i heq
      cases heq
    · rename_i heq
      cases heq
      exact absurd rfl hcomment
    · rw [hsplit]
      dsimp only
      cases ConsoleVerb.ofText? (String.ofList (c :: t)) with
      | none => rfl
      | some v => exact congrArg (fun rest => (ofVerb v rest).map some) hrest

theorem ofLine_eq_ofVerb {line : String} {v : ConsoleVerb} (hv : verb? line.toList = some v) :
    ofLine line = (ofVerb v (textAfter 1 line.toList)).map some := by
  obtain ⟨w, hw, hv⟩ := Option.bind_eq_some_iff.mp hv
  obtain ⟨ws, hws⟩ := List.head?_eq_some_iff.mp hw
  have hcomment : w.head? ≠ some '#' := by
    intro h
    obtain ⟨t, rfl⟩ := List.head?_eq_some_iff.mp h
    rw [ConsoleVerb.ofText?_comment] at hv
    cases hv
  rw [ofLine, ofTrimmed_trimOf, hws]
  dsimp only
  rw [if_neg hcomment, hv]

theorem ofLine_of_verb_eq_none {line : String} (hv : verb? line.toList = none) :
    ofLine line =
      match wordsOf line.toList with
      | [] => .ok none
      | w :: _ =>
        if w.head? = some '#' then .ok none else .error (.unknownVerb (String.ofList w)) := by
  rw [ofLine, ofTrimmed_trimOf]
  cases hws : wordsOf line.toList with
  | nil => rfl
  | cons w ws =>
    have hw : ConsoleVerb.ofText? (String.ofList w) = none := by
      simpa [verb?, hws] using hv
    dsimp only
    rw [hw]

theorem splitCommand?_textAfter (h : Parted line) (hv : verb? line = some .act) :
    splitCommand? (textAfter 1 line) =
      match (wordsOf line).tail with
      | actor :: room :: _ :: _ =>
        some (String.ofList actor, String.ofList room, String.ofList (textAfter 3 line))
      | _ => none := by
  rw [← wordsOf_afterWord]
  apply splitCommand?_trimOf
  intro hlen
  apply h hv
  rw [wordsOf_afterWord, List.length_tail] at hlen
  omega

theorem ofVerb_congr {v : ConsoleVerb} {rest rest' : List Char} (hwords : wordsOf rest' = wordsOf rest)
    (hload : v = .load → rest' = rest) (hact : v = .act → splitCommand? rest' = splitCommand? rest) :
    ofVerb v rest' = ofVerb v rest := by
  cases v <;> simp only [ofVerb, hwords]
  case act => rw [hact rfl]
  case load => rw [hload rfl]

theorem ofLine_respaced {line line' : String} {n : Nat} (h : Parted line.toList)
    (h' : Parted line'.toList) (hr : Respaced n line.toList line'.toList)
    (hn : ∀ k ∈ (verb? line.toList).bind ConsoleVerb.wordsBefore?, n ≤ k) :
    ofLine line' = ofLine line := by
  have hwords := hr.wordsOf_eq
  have hverb : verb? line'.toList = verb? line.toList := by rw [verb?, hwords, verb?]
  cases hv : verb? line.toList with
  | none => rw [ofLine_of_verb_eq_none hv, ofLine_of_verb_eq_none (hverb.trans hv), hwords]
  | some v =>
    rw [hv] at hn
    rw [ofLine_eq_ofVerb hv, ofLine_eq_ofVerb (hverb.trans hv)]
    congr 1
    apply ofVerb_congr
    · rw [wordsOf_textAfter, wordsOf_textAfter, hwords]
    · rintro rfl
      exact hr.textAfter_of_le (hn 1 rfl)
    · rintro rfl
      rw [splitCommand?_textAfter h hv, splitCommand?_textAfter h' (hverb.trans hv), hwords,
        hr.textAfter_of_le (hn 3 rfl)]

theorem ofLine_act {line : String} (h : Parted line.toList) (hv : verb? line.toList = some .act) :
    (ofLine line = .error (.usage .act) ↔ (words line).length < 4) ∧
      ∀ verb actor room w ws, words line = verb :: actor :: room :: w :: ws →
        ofLine line = .ok (some (.occur (.commandAttempted actor room
          (String.ofList (textAfter 3 line.toList))))) := by
  obtain ⟨verb, hverb, -⟩ := Option.bind_eq_some_iff.mp hv
  obtain ⟨args, hargs⟩ := List.head?_eq_some_iff.mp hverb
  have hline : words line = String.ofList verb :: args.map String.ofList := by
    rw [words, hargs, List.map_cons]
  rw [ofLine_eq_ofVerb hv, ofVerb, splitCommand?_textAfter h hv, hargs, List.tail_cons, hline]
  match args with
  | [] => simp [Except.map]
  | [_] => simp [Except.map]
  | [_, _] => simp [Except.map]
  | actor :: room :: w :: ws =>
    refine ⟨by simp [Except.map], ?_⟩
    rintro _ _ _ _ _ heq
    cases heq
    rfl

theorem id_of_readScope {text : String} {scope : Scope} (h : readScope text = .ok scope) :
    scope.id ≠ "" := by
  rw [readScope] at h
  split at h
  · rename_i s hs
    cases h
    exact (Scope.ofText?_eq_some_iff.mp hs).2
  · cases h

theorem names_of_readRule {scope rule : String} {ref : RuleRef} (h : readRule scope rule = .ok ref)
    (hrule : rule ≠ "") : ref.scope.id ≠ "" ∧ ref.rule ≠ "" := by
  obtain ⟨s, hs, rfl⟩ := map_eq_ok.mp h
  exact ⟨id_of_readScope hs, hrule⟩

theorem mem_of_readMove {v : ConsoleVerb} {args : List String} {actor : ActorId} {room : RoomId}
    {d : Option Direction} (h : readMove v args = .ok (actor, room, d)) : actor ∈ args ∧ room ∈ args := by
  unfold readMove at h
  split at h
  · cases h
    simp
  · obtain ⟨_, -, hparts⟩ := map_eq_ok.mp h
    cases hparts
    simp
  · cases h

theorem names_ofVerb {v : ConsoleVerb} {rest : List Char} {c : ConsoleCommand}
    (h : ofVerb v rest = .ok c)
    (hact : v = .act → ∀ actor room text,
      splitCommand? rest = some (actor, room, text) → actor ≠ "" ∧ room ≠ "") :
    ∀ name ∈ c.names, name ≠ "" := by
  have hargs : ∀ a ∈ (wordsOf rest).map String.ofList, a ≠ "" := by
    intro a ha
    obtain ⟨w, hw, rfl⟩ := List.mem_map.mp ha
    exact (word_of_mem_wordsOf hw).ofList_ne
  unfold ofVerb at h
  generalize (wordsOf rest).map String.ofList = args at h hargs
  cases v <;> dsimp only at h
  case enter | exit =>
    obtain ⟨⟨actor, room, d⟩, hmove, rfl⟩ := map_eq_ok.mp h
    obtain ⟨hactor, hroom⟩ := mem_of_readMove hmove
    simp [names, hargs _ hactor, hargs _ hroom]
  case areaEnter | areaExit =>
    split at h
    · cases h
      simpa [names] using hargs
    · cases h
  case act =>
    split at h
    · rename_i actor room text hparts
      cases h
      simpa [names] using hact rfl _ _ _ hparts
    · cases h
  case enable | disable =>
    split at h
    · obtain ⟨ref, href, rfl⟩ := map_eq_ok.mp h
      simpa [names] using names_of_readRule href (hargs _ (by simp))
    · cases h
  case fire =>
    split at h
    · obtain ⟨ref, href, rfl⟩ := map_eq_ok.mp h
      simpa [names] using names_of_readRule href (hargs _ (by simp))
    · obtain ⟨ref, href, rfl⟩ := map_eq_ok.mp h
      have hids := names_of_readRule href (hargs _ (by simp))
      simpa [names, hids.1, hids.2] using hargs _ (by simp)
    · cases h
  case load =>
    split at h
    · cases h
    · cases h
      simp [names]
  case unload =>
    split at h
    · obtain ⟨scope, hscope, rfl⟩ := map_eq_ok.mp h
      simpa [names] using id_of_readScope hscope
    · cases h
  case save | quit =>
    cases h
    simp [names]

theorem ofLine_names {line : String} (h : Parted line.toList) {c : ConsoleCommand}
    (hc : ofLine line = .ok (some c)) : ∀ name ∈ c.names, name ≠ "" := by
  cases hv : verb? line.toList with
  | none =>
    rw [ofLine_of_verb_eq_none hv] at hc
    split at hc
    · cases hc
    · split at hc <;> cases hc
  | some v =>
    rw [ofLine_eq_ofVerb hv] at hc
    obtain ⟨c, hverb, hsame⟩ := map_eq_ok.mp hc
    cases hsame
    apply names_ofVerb hverb
    rintro rfl actor room text hparts
    rw [splitCommand?_textAfter h hv] at hparts
    split at hparts
    · rename_i hws
      cases hparts
      have hword : ∀ w ∈ (wordsOf line.toList).tail, String.ofList w ≠ "" := by
        intro w hw
        exact (word_of_mem_wordsOf (List.mem_of_mem_tail hw)).ofList_ne
      exact ⟨hword _ (by simp [hws]), hword _ (by simp [hws])⟩
    · cases hparts

theorem room_eq_empty {line : String} (hv : verb? line.toList = some .act)
    (hlen : 3 ≤ (wordsOf line.toList).length)
    (hgap : 1 < ((afterWord (afterWord line.toList)).takeWhile isBlank).length) :
    ∃ actor text, ofLine line = .ok (some (.occur (.commandAttempted actor "" text))) := by
  have hargs : 2 ≤ (wordsOf (afterWord line.toList)).length := by
    rw [wordsOf_afterWord, List.length_tail]
    omega
  obtain ⟨actor, text, hparts⟩ := splitCommand?_of_wide_gap hargs hgap
  refine ⟨actor, text, ?_⟩
  rw [ofLine_eq_ofVerb hv, ofVerb, textAfter, textAfter, hparts]
  rfl

/-- Lines are read by their words, as long as the room of a typed command is one blank away. -/
theorem read_by_words {line : String} (h : Parted line.toList) :
    (∀ (line' : String) (n : Nat), Parted line'.toList → Respaced n line.toList line'.toList →
        (∀ k ∈ (verb? line.toList).bind ConsoleVerb.wordsBefore?, n ≤ k) →
        ofLine line' = ofLine line) ∧
      (verb? line.toList = some .act →
        (ofLine line = .error (.usage .act) ↔ (words line).length < 4) ∧
        ∀ verb actor room w ws, words line = verb :: actor :: room :: w :: ws →
          ofLine line = .ok (some (.occur (.commandAttempted actor room
            (String.ofList (textAfter 3 line.toList)))))) ∧
      ∀ c, ofLine line = .ok (some c) → ∀ name ∈ c.names, name ≠ "" :=
  ⟨fun _ _ h' hr hn => ofLine_respaced h h' hr hn, ofLine_act h, fun _ hc => ofLine_names h hc⟩

theorem read_by_words_lever :
    let line := "do alice cellar  pull the  lever "
    let line' := "\t do  alice cellar\tpull the  lever"
    ofLine line' = ofLine line ∧ ¬ofLine line = .error (.usage .act) ∧
      ofLine line = .ok (some (.occur (.commandAttempted "alice" "cellar" "pull the  lever"))) ∧
      "cellar" ≠ "" := by
  intro line line'
  have hrespaced : Respaced 3
      ([] ++ ("do".toList ++ ([' '] ++ ("alice".toList ++ ([' '] ++ ("cellar".toList ++
        ([' ', ' '] ++ ("pull the  lever".toList ++ [' ']))))))))
      (['\t', ' '] ++ ("do".toList ++ ([' ', ' '] ++ ("alice".toList ++ ([' '] ++ ("cellar".toList ++
        (['\t'] ++ ("pull the  lever".toList ++ [])))))))) := by
    refine .word ?_ ?_ ?_ ?_ ?_ (.word ?_ ?_ ?_ ?_ ?_ (.word ?_ ?_ ?_ ?_ ?_ (.text _ ?_ ?_ ?_ ?_)))
    all_goals decide +kernel
  obtain ⟨hsame, htyped, hnames⟩ := @read_by_words line (by decide +kernel)
  obtain ⟨husage, htext⟩ := htyped (by decide +kernel)
  have hline := htext "do" "alice" "cellar" "pull" ["the", "lever"] (by decide +kernel)
  have hpull : String.ofList (textAfter 3 line.toList) = "pull the  lever" := by decide +kernel
  rw [hpull] at hline
  refine ⟨?_, ?_, hline, hnames _ hline "cellar" (by simp [names])⟩
  · apply hsame line' 3 (by decide +kernel)
    · convert hrespaced using 1 <;> decide +kernel
    · decide +kernel
  · intro h
    exact absurd (husage.mp h) (by decide +kernel)

theorem room_lost :
    ofLine "do alice cellar look" =
        .ok (some (.occur (.commandAttempted "alice" "cellar" "look"))) ∧
      ofLine "do alice  cellar look" =
        .ok (some (.occur (.commandAttempted "alice" "" "cellar look"))) ∧
      (words "do alice  cellar").length = 3 ∧
      ofLine "do alice  cellar" = .ok (some (.occur (.commandAttempted "alice" "" "cellar"))) := by
  decide +kernel

end ConsoleCommand

end WorldTriggers
