import Mathlib.Data.List.TakeWhile
import Mathlib.Tactic
import WorldTriggers.Template

namespace WorldTriggers.Template

variable {values : Values} {mark : Char} {cs before after body name name' value value' rest rest' out :
  List Char}

def Resolves (values : Values) (name value : List Char) : Prop :=
  ∃ v s, v.name.toList = name ∧ values v = some s ∧ s.toList = value

def placeholder (name rest : List Char) : List Char := '\x7b' :: (name ++ '\x7d' :: rest)

def Opens (values : Values) (cs : List Char) : Prop :=
  ∃ name value rest, cs = placeholder name rest ∧ Resolves values name value

/-- Every placeholder gives way to its value, every other character is copied. -/
inductive Substituted (values : Values) : List Char → List Char → Prop where
  | nil : Substituted values [] []
  | placeholder {name value rest out : List Char} (h : Resolves values name value)
      (hs : Substituted values rest out) : Substituted values (placeholder name rest) (value ++ out)
  | char {c : Char} {rest out : List Char} (h : ¬Opens values (c :: rest))
      (hs : Substituted values rest out) : Substituted values (c :: rest) (c :: out)

def LeavesOpen (cs : List Char) : Prop := ∃ a b, cs = a ++ '\x7b' :: b ∧ '\x7d' ∉ b

def Unshadowed (values : Values) (cs : List Char) : Prop :=
  ∀ before rest, cs = before ++ rest → Opens values rest → ¬LeavesOpen before

theorem splitAt?_eq_none_iff : splitAt? mark cs = none ↔ mark ∉ cs := by
  induction cs with
  | nil => simp [splitAt?]
  | cons c cs ih =>
    by_cases hc : c = mark
    · simp [splitAt?, hc]
    · simp [splitAt?, hc, ih, Ne.symm hc]

theorem splitAt?_append (h : mark ∉ before) :
    splitAt? mark (before ++ mark :: after) = some (before, after) := by
  induction before with
  | nil => simp [splitAt?]
  | cons c before ih =>
    simp only [List.mem_cons, not_or] at h
    simp [splitAt?, Ne.symm h.1, ih h.2]

theorem eq_append_of_splitAt? (h : splitAt? mark cs = some (before, after)) :
    cs = before ++ mark :: after ∧ mark ∉ before := by
  induction cs generalizing before with
  | nil => cases h
  | cons c cs ih =>
    rw [splitAt?] at h
    split at h
    · subst c
      cases h
      simp
    · rename_i hc
      obtain ⟨⟨b, a⟩, hsplit, hparts⟩ := Option.map_eq_some_iff.mp h
      cases hparts
      obtain ⟨rfl, hb⟩ := ih hsplit
      simp [hb, Ne.symm hc]

section Placeholders

theorem Resolves.plain (h : Resolves values name value) : '\x7b' ∉ name ∧ '\x7d' ∉ name := by
  obtain ⟨v, -, rfl, -⟩ := h
  cases v <;> decide

theorem resolves_iff :
    ((Variable.ofName? name).bind values).map String.toList = some value ↔ Resolves values name value := by
  have hname (v : Variable) : Variable.ofName? name = some v ↔ v.name.toList = name := by
    constructor
    · intro h
      simpa using List.find?_some h
    · rintro rfl
      cases v <;> rfl
  simp [Resolves, Option.bind_eq_some_iff, hname]

theorem Resolves.unique (h : Resolves values name value) (h' : Resolves values name value') :
    value = value' := by
  rw [← resolves_iff] at h h'
  rw [h] at h'
  exact Option.some.inj h'

theorem placeholder_inj (h : placeholder name rest = placeholder name' rest') (hn : '\x7d' ∉ name)
    (hn' : '\x7d' ∉ name') : name = name' ∧ rest = rest' := by
  have hsplit := congrArg (splitAt? '\x7d') (List.cons.inj h).2
  rw [splitAt?_append hn, splitAt?_append hn'] at hsplit
  simpa using hsplit

theorem opens_placeholder (h : Resolves values name value) : Opens values (placeholder name rest) :=
  ⟨name, value, rest, rfl, h⟩

theorem Substituted.unique {out' : List Char} (h : Substituted values cs out)
    (h' : Substituted values cs out') : out = out' := by
  induction h generalizing out' with
  | nil =>
    cases h'
    rfl
  | @placeholder name value rest out hr hs ih =>
    generalize hcs : Template.placeholder name rest = cs at h'
    cases h' with
    | nil => cases hcs
    | @placeholder _ _ _ _ hr' hs' =>
      obtain ⟨rfl, rfl⟩ := placeholder_inj hcs hr.plain.2 hr'.plain.2
      rw [hr.unique hr', ih hs']
    | char hc => exact absurd (hcs ▸ opens_placeholder hr) hc
  | @char c rest out hc hs ih =>
    generalize hcs : c :: rest = cs at h'
    cases h' with
    | nil => cases hcs
    | placeholder hr' => exact absurd (hcs ▸ opens_placeholder hr') hc
    | char hc' hs' =>
      obtain ⟨rfl, rfl⟩ := List.cons.inj hcs
      rw [ih hs']

theorem Substituted.keep (before : List Char) (hs : Substituted values rest out)
    (h : ∀ a b, before = a ++ b → b ≠ [] → ¬Opens values (b ++ rest)) :
    Substituted values (before ++ rest) (before ++ out) := by
  induction before with
  | nil => exact hs
  | cons c before ih =>
    apply Substituted.char
    · exact h [] (c :: before) rfl (by simp)
    · apply ih
      intro a b hab hb
      exact h (c :: a) b (by rw [hab, List.cons_append]) hb

end Placeholders

section Render

theorem expand_of_resolves (h : Resolves values (body.dropWhile (· == '\x7b')) value) :
    expand values body = value := by
  obtain ⟨s, hs, rfl⟩ := Option.map_eq_some_iff.mp (resolves_iff.mpr h)
  simp [expand, hs]

theorem expand_of_not_resolves (h : ∀ value, ¬Resolves values (body.dropWhile (· == '\x7b')) value) :
    expand values body = '\x7b' :: body ++ ['\x7d'] := by
  have hnone : (Variable.ofName? (body.dropWhile (· == '\x7b'))).bind values = none := by
    rw [Option.eq_none_iff_forall_ne_some]
    intro s hs
    exact h s.toList (resolves_iff.mp (by rw [hs, Option.map_some]))
  simp [expand, hnone]

theorem LeavesOpen.append (h : LeavesOpen after) (before : List Char) :
    LeavesOpen (before ++ after) := by
  obtain ⟨a, b, rfl, hb⟩ := h
  exact ⟨before ++ a, b, by simp, hb⟩

theorem Unshadowed.of_append (before : List Char) (h : Unshadowed values (before ++ after)) :
    Unshadowed values after := by
  intro b rest hrest ho hleaves
  exact h (before ++ b) rest (by rw [hrest, List.append_assoc]) ho (hleaves.append before)

theorem Opens.head_eq {c : Char} (h : Opens values (c :: cs)) : c = '\x7b' := by
  obtain ⟨name, value, rest, hname, -⟩ := h
  exact (List.cons.inj hname).1

theorem Opens.isLower {c : Char} (h : Opens values ('\x7b' :: c :: cs)) : c.isLower = true := by
  obtain ⟨name, value, rest, hname, v, s, rfl, -⟩ := h
  have hcs := (List.cons.inj hname).2
  cases v <;>
    · obtain rfl := (List.cons.inj hcs).1
      decide

theorem exists_of_opens {a b : List Char} (hb : '\x7b' ∉ before) (h : before ++ rest = a ++ b)
    (ho : Opens values b) : ∃ c, a = before ++ c ∧ rest = c ++ b := by
  rcases List.append_eq_append_iff.mp h with ⟨c, ha, hrest⟩ | ⟨c, hbefore, hc⟩
  · exact ⟨c, ha, hrest⟩
  · cases c with
    | nil => exact ⟨[], by simp [hbefore], hc.symm⟩
    | cons d c =>
      obtain rfl := (hc ▸ ho).head_eq
      simp [hbefore] at hb

theorem substituted_self (h : ∀ a b, cs = a ++ b → ¬Opens values b) : Substituted values cs cs := by
  have hk : Substituted values (cs ++ []) (cs ++ []) := by
    apply Substituted.keep cs .nil
    intro a b hab hb
    rw [List.append_nil]
    exact h a b hab
  rwa [List.append_nil] at hk

theorem not_opens_of_not_mem (h : '\x7d' ∉ cs) : ¬Opens values cs := by
  rintro ⟨name, value, rest, rfl, -⟩
  simp [placeholder] at h

theorem dropWhile_of_unshadowed
    (h : Unshadowed values (before ++ '\x7b' :: (body ++ '\x7d' :: after))) (hbody : '\x7d' ∉ body)
    (hr : Resolves values (body.dropWhile (· == '\x7b')) value) :
    body.dropWhile (· == '\x7b') = body := by
  have hparts := List.takeWhile_append_dropWhile (p := (· == '\x7b')) (l := body)
  generalize body.dropWhile (· == '\x7b') = name at hparts hr ⊢
  rcases List.eq_nil_or_concat (body.takeWhile (· == '\x7b')) with hnil | ⟨b, c, hc⟩
  · rwa [hnil] at hparts
  · have hmem : c ∈ body.takeWhile (· == '\x7b') := by simp [hc]
    obtain rfl : c = '\x7b' := by simpa using List.mem_takeWhile_imp hmem
    rw [hc] at hparts
    have hclosed : '\x7d' ∉ b := by
      rw [← hparts] at hbody
      simp_all
    refine absurd ⟨before, b, rfl, hclosed⟩
      (h (before ++ '\x7b' :: b) (placeholder name after) ?_ (opens_placeholder hr))
    simp [placeholder, ← hparts]

theorem not_opens_of_not_resolves {a b : List Char} (hb : '\x7b' ∉ before) (hbody : '\x7d' ∉ body)
    (h : Unshadowed values (before ++ '\x7b' :: (body ++ '\x7d' :: after)))
    (hr : ∀ value, ¬Resolves values (body.dropWhile (· == '\x7b')) value)
    (hab : before ++ '\x7b' :: body ++ ['\x7d'] = a ++ b) (hne : b ≠ []) :
    ¬Opens values (b ++ after) := by
  intro ho
  have hwhole : before ++ '\x7b' :: (body ++ '\x7d' :: after) = a ++ (b ++ after) := by
    rw [← List.append_assoc, ← hab]
    simp
  obtain ⟨c, rfl, hc⟩ := exists_of_opens hb hwhole ho
  cases c with
  | nil =>
    obtain ⟨name, value, rest, hname, hv⟩ := ho
    rw [List.nil_append, hname] at hc
    obtain ⟨rfl, -⟩ : body = name ∧ after = rest := placeholder_inj hc hbody hv.plain.2
    apply hr value
    rwa [List.dropWhile_eq_self_iff.mpr]
    intro hlen hhead
    exact hv.plain.1 (by rw [← eq_of_beq hhead]; exact List.getElem_mem hlen)
  | cons d c =>
    obtain ⟨rfl, hc⟩ := List.cons.inj hc
    -- The text in front of the placeholder ends within the body, which holds no closing brace.
    have hopen : '\x7d' ∉ c := by
      obtain rfl | ⟨b, x, rfl⟩ := List.eq_nil_or_concat b
      · exact absurd rfl hne
      · have hbc : body ++ ['\x7d'] = c ++ b ++ [x] := by simpa using hab
        obtain ⟨rfl, -⟩ := List.append_inj' hbc rfl
        exact fun hm => hbody (List.mem_append_left b hm)
    exact h _ _ hwhole ho ⟨before, c, rfl, hopen⟩

theorem substituted_expand (hb : '\x7b' ∉ before) (hbody : '\x7d' ∉ body)
    (h : Unshadowed values (before ++ '\x7b' :: (body ++ '\x7d' :: after)))
    (hs : Substituted values after out) :
    Substituted values (before ++ '\x7b' :: (body ++ '\x7d' :: after))
      (before ++ expand values body ++ out) := by
  by_cases hr : ∃ value, Resolves values (body.dropWhile (· == '\x7b')) value
  · obtain ⟨value, hr⟩ := hr
    rw [expand_of_resolves hr, List.append_assoc]
    rw [dropWhile_of_unshadowed h hbody hr] at hr
    apply Substituted.keep before (.placeholder hr hs)
    intro a b hab hne ho
    cases b with
    | nil => exact hne rfl
    | cons c b =>
      obtain rfl := ho.head_eq
      simp [hab] at hb
  · have hr := not_exists.mp hr
    rw [expand_of_not_resolves hr]
    have hk : Substituted values (before ++ '\x7b' :: body ++ ['\x7d'] ++ after)
        (before ++ '\x7b' :: body ++ ['\x7d'] ++ out) := by
      apply Substituted.keep _ hs
      intro a b hab hne
      exact not_opens_of_not_resolves hb hbody h hr hab hne
    simpa using hk

theorem substituted_renderChars (h : Unshadowed values cs) :
    Substituted values cs (renderChars values cs) := by
  fun_induction renderChars values cs with
  | case1 cs hopen =>
    apply substituted_self
    rintro a b rfl ⟨name, value, rest, rfl, -⟩
    rw [splitAt?_eq_none_iff] at hopen
    simp [placeholder] at hopen
  | case2 cs before rest hopen hclose =>
    obtain ⟨rfl, hb⟩ := eq_append_of_splitAt? hopen
    rw [splitAt?_eq_none_iff] at hclose
    apply substituted_self
    intro a b hab ho
    obtain ⟨c, -, hc⟩ := exists_of_opens hb hab ho
    refine not_opens_of_not_mem (fun hm => ?_) ho
    have : '\x7d' ∈ '\x7b' :: rest := by rw [hc]; exact List.mem_append_right c hm
    simp [hclose] at this
  | case3 cs before rest hopen body after hclose ih =>
    obtain ⟨rfl, hb⟩ := eq_append_of_splitAt? hopen
    obtain ⟨rfl, hbody⟩ := eq_append_of_splitAt? hclose
    apply substituted_expand hb hbody h
    apply ih
    exact Unshadowed.of_append (before ++ '\x7b' :: body ++ ['\x7d']) (by simpa using h)

theorem exists_substituted (values : Values) (cs : List Char) : ∃ out, Substituted values cs out := by
  induction hn : cs.length using Nat.strong_induction_on generalizing cs with
  | _ n ih =>
    subst hn
    cases cs with
    | nil => exact ⟨[], .nil⟩
    | cons c cs =>
      by_cases ho : Opens values (c :: cs)
      · obtain ⟨name, value, rest, hname, hr⟩ := ho
        rw [hname] at ih ⊢
        obtain ⟨out, hs⟩ := ih rest.length (by simp [placeholder]; omega) rest rfl
        exact ⟨value ++ out, .placeholder hr hs⟩
      · obtain ⟨out, hs⟩ := ih cs.length (by simp) cs rfl
        exact ⟨c :: out, .char ho hs⟩

end Render

/-- Every text has one form with the values put in, and rendering finds it when no placeholder stands
behind a brace that is still open. -/
theorem substituted_render (values : Values) (s : String) :
    (∃! out, Substituted values s.toList out) ∧
      (Unshadowed values s.toList → Substituted values s.toList (render values s).toList) := by
  obtain ⟨out, hout⟩ := exists_substituted values s.toList
  refine ⟨⟨out, hout, fun out' h => h.unique hout⟩, fun h => ?_⟩
  rw [render, String.toList_ofList]
  exact substituted_renderChars h

theorem unshadowed_of_forall_lt (h : ∀ i < cs.length, cs[i]? = some '\x7b' ∧ '\x7d' ∈ cs.drop i →
    ∀ j < i, cs[j]? = some '\x7b' → '\x7d' ∈ (cs.take i).drop j) : Unshadowed values cs := by
  rintro before rest rfl ⟨name, value, after, rfl, hr⟩ ⟨a, b, rfl, hb⟩
  have hmem := h (a ++ '\x7b' :: b).length (by simp [placeholder])
    (by rw [List.drop_left, List.getElem?_append_right le_rfl]; simp [placeholder]) a.length (by simp)
    (by simp)
  rw [List.take_left, List.drop_left] at hmem
  simp [hb] at hmem

def alice : Values
  | .actor => some "Alice"
  | _ => none

theorem substituted_render_alice :
    Unshadowed alice "\x7d\x7bactor\x7d has \x7bnothing\x7d.\x7b".toList ∧
      Substituted alice "\x7d\x7bactor\x7d has \x7bnothing\x7d.\x7b".toList
        "\x7dAlice has \x7bnothing\x7d.\x7b".toList := by
  have h : Unshadowed alice "\x7d\x7bactor\x7d has \x7bnothing\x7d.\x7b".toList :=
    unshadowed_of_forall_lt (by decide)
  refine ⟨h, ?_⟩
  have hs := (substituted_render alice _).2 h
  have hrender : render alice "\x7d\x7bactor\x7d has \x7bnothing\x7d.\x7b" =
      "\x7dAlice has \x7bnothing\x7d.\x7b" := by decide +kernel
  rwa [hrender] at hs

theorem surplus_brace_swallowed :
    render alice "\x7b\x7bactor\x7d" = "Alice" ∧
      Substituted alice "\x7b\x7bactor\x7d".toList "\x7bAlice".toList ∧
      render alice "\x7b, \x7bactor\x7d" = "\x7b, \x7bactor\x7d" ∧
      Substituted alice "\x7b, \x7bactor\x7d".toList "\x7b, Alice".toList ∧
      ¬∀ values s, Substituted values s.toList (render values s).toList := by
  have hactor : Substituted alice "\x7bactor\x7d".toList "Alice".toList :=
    .placeholder ⟨.actor, "Alice", rfl, rfl, rfl⟩ .nil
  have hdoubled : Substituted alice "\x7b\x7bactor\x7d".toList "\x7bAlice".toList := by
    refine .char (fun ho => ?_) hactor
    exact absurd ho.isLower (by decide)
  have hrender : render alice "\x7b\x7bactor\x7d" = "Alice" := by decide +kernel
  refine ⟨hrender, hdoubled, by decide +kernel, ?_, fun h => ?_⟩
  · refine .char (fun ho => ?_) (.char (fun ho => ?_) (.char (fun ho => ?_) hactor))
    · exact absurd ho.isLower (by decide)
    · exact absurd ho.head_eq (by decide)
    · exact absurd ho.head_eq (by decide)
  · have hout := (hrender ▸ h alice "\x7b\x7bactor\x7d").unique hdoubled
    exact absurd hout (by decide)

end WorldTriggers.Template
