import Mathlib.Data.List.DropRight
import Mathlib.Tactic
import WorldTriggers.Text.Blank

namespace WorldTriggers.Text

def Blanks (cs : List Char) : Prop := ∀ c ∈ cs, isBlank c = true

structure Word (w : List Char) : Prop where
  ne_nil : w ≠ []
  not_blank : ∀ c ∈ w, isBlank c = false

def Stops (cs : List Char) : Prop := ∀ c ∈ cs.head?, isBlank c = true

-- Not by search, which may run through all characters there are.
instance (cs : List Char) : Decidable (Blanks cs) := List.decidableBAll _ cs

instance (w : List Char) : Decidable (Word w) :=
  have : Decidable (∀ c ∈ w, isBlank c = false) := List.decidableBAll _ w
  decidable_of_iff (w ≠ [] ∧ ∀ c ∈ w, isBlank c = false)
    ⟨fun h => ⟨h.1, h.2⟩, fun h => ⟨h.ne_nil, h.not_blank⟩⟩

instance (cs : List Char) : Decidable (Stops cs) :=
  decidable_of_iff (cs.head?.all isBlank = true) (Option.all_eq_true _ _)

def afterWord (cs : List Char) : List Char := (trimStartOf cs).dropWhile fun c => !isBlank c

def textAfter : Nat → List Char → List Char
  | 0, cs => trimOf cs
  | n + 1, cs => textAfter n (afterWord cs)

variable {cs lead rest e w : List Char}

theorem blanks_nil : Blanks [] := by simp [Blanks]

theorem Word.eq_cons (h : Word w) : ∃ c t, w = c :: t ∧ isBlank c = false := by
  cases w with
  | nil => exact absurd rfl h.ne_nil
  | cons c t => exact ⟨c, t, rfl, h.not_blank c (by simp)⟩

theorem Word.ofList_ne (h : Word w) : String.ofList w ≠ "" := by
  simpa using h.ne_nil

theorem trimStartOf_append (hl : Blanks lead) (cs : List Char) :
    trimStartOf (lead ++ cs) = trimStartOf cs := List.dropWhile_append_of_pos hl

theorem trimStartOf_blanks (h : Blanks cs) : trimStartOf cs = [] := List.dropWhile_eq_nil_iff.mpr h

theorem trimStartOf_word (hw : Word w) (rest : List Char) : trimStartOf (w ++ rest) = w ++ rest := by
  obtain ⟨c, t, rfl, hc⟩ := hw.eq_cons
  simp [trimStartOf, hc]

theorem trimEndOf_append (he : Blanks e) (cs : List Char) : trimEndOf (cs ++ e) = trimEndOf cs := by
  rw [trimEndOf, List.reverse_append,
    List.dropWhile_append_of_pos fun c hc => he c (List.mem_reverse.mp hc)]
  rfl

theorem trimEndOf_blanks (h : Blanks cs) : trimEndOf cs = [] := trimEndOf_append h []

theorem trimEndOf_word (lead : List Char) (hw : Word w) (rest : List Char) :
    trimEndOf (lead ++ (w ++ rest)) = lead ++ (w ++ trimEndOf rest) := by
  have hlast : w.reverse.dropWhile isBlank = w.reverse := by
    cases h : w.reverse with
    | nil => rfl
    | cons c t =>
      have hc : isBlank c = false := hw.not_blank c (List.mem_reverse.mp (h ▸ List.mem_cons_self))
      simp [hc]
  have hne : w.reverse ≠ [] := by simpa using hw.ne_nil
  rw [trimEndOf, trimEndOf, List.reverse_append, List.reverse_append, List.append_assoc,
    List.dropWhile_append, List.dropWhile_append, hlast]
  split
  · rename_i h
    rw [List.isEmpty_iff.mp h]
    simp [hw.ne_nil]
  · simp

theorem stops_trimEndOf (h : Stops cs) : Stops (trimEndOf cs) := by
  obtain ⟨e, he⟩ : trimEndOf cs <+: cs := List.rdropWhile_prefix isBlank cs
  intro c hc
  apply h
  rw [← he, List.head?_append, Option.mem_def.mp hc]
  rfl

theorem blanks_or_word (cs : List Char) :
    Blanks cs ∨ ∃ lead w rest, Blanks lead ∧ Word w ∧ Stops rest ∧ cs = lead ++ (w ++ rest) := by
  induction cs with
  | nil => exact .inl blanks_nil
  | cons c cs ih =>
    cases hc : isBlank c with
    | true =>
      rcases ih with h | ⟨lead, w, rest, hl, hw, hr, rfl⟩
      · exact .inl (List.forall_mem_cons.mpr ⟨hc, h⟩)
      · exact .inr ⟨c :: lead, w, rest, List.forall_mem_cons.mpr ⟨hc, hl⟩, hw, hr, rfl⟩
    | false =>
      right
      have hcs : cs = cs.takeWhile (fun c => !isBlank c) ++ cs.dropWhile fun c => !isBlank c :=
        List.takeWhile_append_dropWhile.symm
      refine ⟨[], c :: cs.takeWhile fun c => !isBlank c, cs.dropWhile fun c => !isBlank c, blanks_nil,
        ⟨by simp, List.forall_mem_cons.mpr ⟨hc, ?_⟩⟩, ?_, ?_⟩
      · intro d hd
        simpa using List.mem_takeWhile_imp hd
      · intro d hd
        have := List.head?_dropWhile_not (fun c => !isBlank c) cs
        rw [Option.mem_def.mp hd] at this
        simpa using this
      · simp

theorem word_induction {P : List Char → Prop} (blank : ∀ cs, Blanks cs → P cs)
    (word : ∀ lead w rest, Blanks lead → Word w → Stops rest → P rest → P (lead ++ (w ++ rest)))
    (cs : List Char) : P cs := by
  rcases blanks_or_word cs with h | ⟨lead, w, rest, hl, hw, hr, rfl⟩
  · exact blank cs h
  · have := List.length_pos_of_ne_nil hw.ne_nil
    exact word lead w rest hl hw hr (word_induction blank word rest)
termination_by cs.length
decreasing_by
  subst cs
  simp only [List.length_append]
  omega

theorem wordsOf_append (hl : Blanks lead) (cs : List Char) : wordsOf (lead ++ cs) = wordsOf cs := by
  induction lead with
  | nil => rfl
  | cons c lead ih =>
    obtain ⟨hc, hl⟩ := List.forall_mem_cons.mp hl
    rw [List.cons_append, ← ih hl]
    cases h : lead ++ cs <;> simp [wordsOf, hc]

theorem wordsOf_blanks (h : Blanks cs) : wordsOf cs = [] := by
  rw [← List.append_nil cs, wordsOf_append h]
  rfl

theorem wordsOf_word (hw : Word w) (hr : Stops rest) : wordsOf (w ++ rest) = w :: wordsOf rest := by
  induction w with
  | nil => exact absurd rfl hw.ne_nil
  | cons c w ih =>
    obtain ⟨hc, hw⟩ := List.forall_mem_cons.mp hw.not_blank
    cases w with
    | nil =>
      cases rest with
      | nil => simp [wordsOf, hc]
      | cons d rest => simp [wordsOf, hc, hr d rfl]
    | cons d w =>
      have hd : isBlank d = false := hw d (by simp)
      have ih := ih ⟨by simp, hw⟩
      simp only [List.cons_append] at ih ⊢
      rw [wordsOf, ih]
      simp [hc, hd]

theorem afterWord_blanks (h : Blanks cs) : afterWord cs = [] := by
  rw [afterWord, trimStartOf_blanks h]
  rfl

theorem afterWord_word (hl : Blanks lead) (hw : Word w) (hr : Stops rest) :
    afterWord (lead ++ (w ++ rest)) = rest := by
  rw [afterWord, trimStartOf_append hl, trimStartOf_word hw,
    List.dropWhile_append_of_pos (by simpa using hw.not_blank)]
  cases rest with
  | nil => rfl
  | cons c rest => simp [hr c rfl]

theorem wordsOf_afterWord (cs : List Char) : wordsOf (afterWord cs) = (wordsOf cs).tail := by
  induction cs using word_induction with
  | blank cs h =>
    rw [afterWord_blanks h, wordsOf_blanks h]
    rfl
  | word lead w rest hl hw hr _ =>
    rw [afterWord_word hl hw hr, wordsOf_append hl, wordsOf_word hw hr, List.tail_cons]

theorem word_of_mem_wordsOf (h : w ∈ wordsOf cs) : Word w := by
  induction cs using word_induction with
  | blank cs hb =>
    rw [wordsOf_blanks hb] at h
    cases h
  | word lead v rest hl hv hr ih =>
    rw [wordsOf_append hl, wordsOf_word hv hr, List.mem_cons] at h
    rcases h with rfl | h
    · exact hv
    · exact ih h

theorem wordsOf_trimEndOf (cs : List Char) : wordsOf (trimEndOf cs) = wordsOf cs := by
  induction cs using word_induction with
  | blank cs hb =>
    rw [trimEndOf_blanks hb, wordsOf_blanks hb]
    rfl
  | word lead w rest hl hw hr ih =>
    rw [trimEndOf_word lead hw, wordsOf_append hl, wordsOf_append hl, wordsOf_word hw hr,
      wordsOf_word hw (stops_trimEndOf hr), ih]

theorem wordsOf_trimOf (cs : List Char) : wordsOf (trimOf cs) = wordsOf cs := by
  rw [trimOf, wordsOf_trimEndOf]
  induction cs using word_induction with
  | blank cs h =>
    rw [trimStartOf_blanks h, wordsOf_blanks h]
    rfl
  | word lead w rest hl hw hr _ =>
    rw [trimStartOf_append hl, trimStartOf_word hw, wordsOf_append hl]

theorem trimOf_blanks (h : Blanks cs) : trimOf cs = [] := by
  rw [trimOf, trimStartOf_blanks h]
  rfl

theorem trimOf_append (hl : Blanks lead) (cs : List Char) : trimOf (lead ++ cs) = trimOf cs := by
  rw [trimOf, trimStartOf_append hl, trimOf]

theorem trimOf_word (hl : Blanks lead) (hw : Word w) (rest : List Char) :
    trimOf (lead ++ (w ++ rest)) = w ++ trimEndOf rest := by
  rw [trimOf_append hl, trimOf, trimStartOf_word hw]
  exact trimEndOf_word [] hw rest

theorem trimEndOf_trimEndOf (cs : List Char) : trimEndOf (trimEndOf cs) = trimEndOf cs :=
  List.rdropWhile_idempotent isBlank cs

theorem trimOf_trimEndOf (cs : List Char) : trimOf (trimEndOf cs) = trimOf cs := by
  induction cs using word_induction with
  | blank cs h =>
    rw [trimEndOf_blanks h, trimOf_blanks h]
    rfl
  | word lead w rest hl hw hr _ =>
    rw [trimEndOf_word lead hw, trimOf_word hl hw, trimOf_word hl hw, trimEndOf_trimEndOf]

theorem trimOf_trimOf (cs : List Char) : trimOf (trimOf cs) = trimOf cs := by
  induction cs using word_induction with
  | blank cs h =>
    rw [trimOf_blanks h]
    rfl
  | word lead w rest hl hw hr _ =>
    rw [trimOf_word hl hw]
    have htrim := trimOf_word blanks_nil hw (trimEndOf rest)
    rwa [trimEndOf_trimEndOf] at htrim

theorem trimOf_append_right (he : Blanks e) (cs : List Char) : trimOf (cs ++ e) = trimOf cs := by
  rw [← trimOf_trimEndOf, trimEndOf_append he, trimOf_trimEndOf]

theorem afterWord_trimEndOf (cs : List Char) : afterWord (trimEndOf cs) = trimEndOf (afterWord cs) := by
  induction cs using word_induction with
  | blank cs h =>
    rw [trimEndOf_blanks h, afterWord_blanks h]
    rfl
  | word lead w rest hl hw hr _ =>
    rw [trimEndOf_word lead hw, afterWord_word hl hw hr, afterWord_word hl hw (stops_trimEndOf hr)]

theorem afterWord_trimOf (cs : List Char) : afterWord (trimOf cs) = trimEndOf (afterWord cs) := by
  induction cs using word_induction with
  | blank cs h =>
    rw [trimOf_blanks h, afterWord_blanks h]
    rfl
  | word lead w rest hl hw hr _ =>
    rw [trimOf_word hl hw, afterWord_word hl hw hr]
    exact afterWord_word blanks_nil hw (stops_trimEndOf hr)

theorem textAfter_trimEndOf (n : Nat) (cs : List Char) :
    textAfter n (trimEndOf cs) = textAfter n cs := by
  induction n generalizing cs with
  | zero => exact trimOf_trimEndOf cs
  | succ n ih => rw [textAfter, afterWord_trimEndOf, ih, textAfter]

theorem textAfter_trimOf (n : Nat) (cs : List Char) : textAfter n (trimOf cs) = textAfter n cs := by
  cases n with
  | zero => exact trimOf_trimOf cs
  | succ n => rw [textAfter, afterWord_trimOf, textAfter_trimEndOf, textAfter]

theorem textAfter_add (n m : Nat) (cs : List Char) :
    textAfter (n + m) cs = textAfter m (textAfter n cs) := by
  induction n generalizing cs with
  | zero => rw [Nat.zero_add, textAfter, textAfter_trimOf]
  | succ n ih => rw [Nat.add_right_comm, textAfter, ih, textAfter]

theorem wordsOf_textAfter (n : Nat) (cs : List Char) :
    wordsOf (textAfter n cs) = (wordsOf cs).drop n := by
  induction n generalizing cs with
  | zero => exact wordsOf_trimOf cs
  | succ n ih => rw [textAfter, ih, wordsOf_afterWord, List.drop_tail]

inductive Respaced : Nat → List Char → List Char → Prop
  | text {lead lead' e e' : List Char} (text : List Char) :
    Blanks lead → Blanks lead' → Blanks e → Blanks e' →
      Respaced 0 (lead ++ (text ++ e)) (lead' ++ (text ++ e'))
  | word {n : Nat} {lead lead' w rest rest' : List Char} :
    Blanks lead → Blanks lead' → Word w → Stops rest → Stops rest' → Respaced n rest rest' →
      Respaced (n + 1) (lead ++ (w ++ rest)) (lead' ++ (w ++ rest'))

variable {cs' : List Char} {n k : Nat}

theorem Respaced.wordsOf_eq (h : Respaced n cs cs') : wordsOf cs' = wordsOf cs := by
  induction h with
  | text text hl hl' he he' =>
    rw [wordsOf_append hl, wordsOf_append hl', ← wordsOf_trimEndOf, trimEndOf_append he',
      ← wordsOf_trimEndOf (text ++ _), trimEndOf_append he]
  | word hl hl' hw hr hr' _ ih =>
    rw [wordsOf_append hl, wordsOf_append hl', wordsOf_word hw hr, wordsOf_word hw hr', ih]

theorem Respaced.textAfter_eq (h : Respaced n cs cs') : textAfter n cs' = textAfter n cs := by
  induction h with
  | text text hl hl' he he' =>
    rw [textAfter, textAfter, trimOf_append hl, trimOf_append hl', trimOf_append_right he,
      trimOf_append_right he']
  | word hl hl' hw hr hr' _ ih =>
    rw [textAfter, textAfter, afterWord_word hl hw hr, afterWord_word hl' hw hr', ih]

theorem Respaced.textAfter_of_le (h : Respaced n cs cs') (hk : n ≤ k) :
    textAfter k cs' = textAfter k cs := by
  obtain ⟨m, rfl⟩ := Nat.exists_eq_add_of_le hk
  rw [textAfter_add, textAfter_add, h.textAfter_eq]

end WorldTriggers.Text
