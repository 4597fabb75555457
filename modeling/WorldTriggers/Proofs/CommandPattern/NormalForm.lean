import Mathlib.Data.List.Chain
import WorldTriggers.CommandPattern
import WorldTriggers.Proofs.Lowercase

namespace WorldTriggers

namespace Text

variable {cs before gap after w : List Char} {ws : List (List Char)}

structure Tidy (cs : List Char) : Prop where
  starts : ∀ c ∈ cs.head?, isBlank c = false
  ends : ∀ c ∈ cs.getLast?, isBlank c = false
  single : cs.IsChain fun c d => isBlank c = false ∨ isBlank d = false

def Parted (before after : List Char) : Prop := Stops before.reverse ∨ Stops after

instance (before after : List Char) : Decidable (Parted before after) :=
  inferInstanceAs (Decidable (_ ∨ _))

section Join

theorem blanks_space : Blanks [' '] := by decide

theorem joinWith_cons (h : ws ≠ []) (sep w : List Char) :
    joinWith sep (w :: ws) = w ++ (sep ++ joinWith sep ws) := by
  obtain ⟨v, vs, rfl⟩ := List.exists_cons_of_ne_nil h
  rw [joinWith.eq_3 _ _ _ (by simp), List.append_assoc]

theorem joinWith_ne_nil (hws : ∀ w ∈ ws, Word w) (h : ws ≠ []) (sep : List Char) :
    joinWith sep ws ≠ [] := by
  obtain ⟨w, ws, rfl⟩ := List.exists_cons_of_ne_nil h
  have hw := (List.forall_mem_cons.mp hws).1.ne_nil
  by_cases hne : ws = []
  · subst hne
    exact hw
  · rw [joinWith_cons hne]
    simp [hw]

theorem wordsOf_joinWith (h : ∀ w ∈ ws, Word w) : wordsOf (joinWith [' '] ws) = ws := by
  induction ws with
  | nil => rfl
  | cons w ws ih =>
    obtain ⟨hw, hws⟩ := List.forall_mem_cons.mp h
    by_cases hne : ws = []
    · subst hne
      have hword : wordsOf (w ++ []) = [w] := wordsOf_word hw (by decide)
      rwa [List.append_nil] at hword
    · have hstops : Stops ([' '] ++ joinWith [' '] ws) := by
        rintro c ⟨⟩
        decide
      rw [joinWith_cons hne, wordsOf_word hw hstops, wordsOf_append blanks_space, ih hws]

theorem Word.tidy (hw : Word w) : Tidy w where
  starts c hc := hw.not_blank c (List.mem_of_mem_head? hc)
  ends c hc := hw.not_blank c (List.mem_of_mem_getLast? hc)
  single := (List.pairwise_of_forall_mem_list fun c hc _ _ => .inl (hw.not_blank c hc)).isChain

theorem tidy_joinWith (h : ∀ w ∈ ws, Word w) : Tidy (joinWith [' '] ws) := by
  induction ws with
  | nil => exact ⟨by simp [joinWith], by simp [joinWith], .nil⟩
  | cons w ws ih =>
    obtain ⟨hw, hws⟩ := List.forall_mem_cons.mp h
    by_cases hne : ws = []
    · subst hne
      exact hw.tidy
    · have hrest := ih hws
      rw [joinWith_cons hne]
      refine ⟨fun c hc => hw.tidy.starts c ?_, fun c hc => hrest.ends c ?_,
        hw.tidy.single.append (hrest.single.cons fun c hc => .inr (hrest.starts c hc)) fun c hc _ _ =>
          .inl (hw.tidy.ends c hc)⟩
      · rwa [List.head?_append_of_ne_nil _ hw.ne_nil] at hc
      · rwa [List.getLast?_append_of_ne_nil _ (by simp),
          List.getLast?_append_of_ne_nil _ (joinWith_ne_nil hws hne _)] at hc

end Join

section Normal

theorem word_of_mem_lowered (h : w ∈ (wordsOf cs).map lowercaseOf) : Word w := by
  obtain ⟨v, hv, rfl⟩ := List.mem_map.mp h
  exact (word_of_mem_wordsOf hv).lowercaseOf

theorem wordsOf_normalizeOf (cs : List Char) :
    wordsOf (normalizeOf cs) = (wordsOf cs).map lowercaseOf :=
  wordsOf_joinWith fun _ => word_of_mem_lowered

theorem tidy_normalizeOf (cs : List Char) : Tidy (normalizeOf cs) :=
  tidy_joinWith fun _ => word_of_mem_lowered

theorem normalizeOf_normalizeOf (cs : List Char) : normalizeOf (normalizeOf cs) = normalizeOf cs := by
  rw [normalizeOf, wordsOf_normalizeOf, List.map_map, normalizeOf]
  congr 2
  exact funext lowercaseOf_lowercaseOf

theorem normalize_normalize (s : String) : normalize (normalize s) = normalize s := by
  rw [normalize, normalize, String.toList_ofList, normalizeOf_normalizeOf]

theorem wordsOf_append_of_stops (h : Stops after) (before : List Char) :
    wordsOf (before ++ after) = wordsOf before ++ wordsOf after := by
  induction before using word_induction with
  | blank before hb => rw [wordsOf_append hb, wordsOf_blanks hb, List.nil_append]
  | word lead w rest hl hw hr ih =>
    have hstops : Stops (rest ++ after) := by
      cases rest with
      | nil => exact h
      | cons c rest => exact hr
    rw [List.append_assoc, List.append_assoc, wordsOf_append hl, wordsOf_append hl,
      wordsOf_word hw hr, wordsOf_word hw hstops, ih, List.cons_append]

theorem Blanks.stops (h : Blanks cs) (hafter : Stops after) : Stops (cs ++ after) := by
  cases cs with
  | nil => exact hafter
  | cons c cs =>
    rintro d ⟨⟩
    exact h c (by simp)

theorem wordsOf_insert (hgap : Blanks gap) (h : Parted before after) :
    wordsOf (before ++ (gap ++ after)) = wordsOf (before ++ after) := by
  rcases h with h | h
  · obtain rfl | ⟨before, c, rfl⟩ := List.eq_nil_or_concat before
    · exact wordsOf_append hgap after
    · have hc : isBlank c = true := h c (by simp)
      have hstops (rest : List Char) : Stops (c :: rest) := by
        rintro d ⟨⟩
        exact hc
      have hblank : Blanks (c :: gap) := List.forall_mem_cons.mpr ⟨hc, hgap⟩
      rw [List.concat_eq_append, List.append_assoc, List.append_assoc, List.singleton_append,
        List.singleton_append, wordsOf_append_of_stops (hstops _), wordsOf_append_of_stops (hstops _),
        ← List.cons_append, wordsOf_append hblank, ← List.singleton_append,
        wordsOf_append (List.forall_mem_singleton.mpr hc)]
  · rw [wordsOf_append_of_stops (hgap.stops h), wordsOf_append hgap, wordsOf_append_of_stops h]

end Normal

end Text

namespace CommandPattern

open Text

theorem display_ofNormal (cs : List Char) : (ofNormal cs).display = cs := by
  have hjoin := joinWith_splitAll '*' cs
  unfold ofNormal
  split
  · rename_i literal hsplit
    rw [hsplit] at hjoin
    exact hjoin
  · rename_i literal hsplit
    rw [hsplit] at hjoin
    rw [display, ← hjoin, joinWith_cons (List.cons_ne_nil _ _)]
    rfl
  · exact hjoin

theorem text_ofText (pattern : String) : (ofText pattern).text = normalize pattern := by
  rw [text, ofText, display_ofNormal, Text.normalize]

theorem isMatch_of_words (p : CommandPattern) {s t : String} (h : wordsOf s.toList = wordsOf t.toList) :
    p.isMatch s = p.isMatch t := by
  rw [isMatch, isMatch, normalizeOf, normalizeOf, h]

/-- A text has a normal form, which is its words in lowercase with one space between them and its own
normal form. A pattern is shown as the normal form that it was compiled from, so that what is shown compiles
to the same pattern. An input is matched as its normal form is, wherever there are further blanks around its
words. -/
theorem settled_by_words (s pattern : String) (p : CommandPattern) :
    normalize (normalize s) = normalize s ∧ Tidy (normalize s).toList ∧
      wordsOf (normalize s).toList = (wordsOf s.toList).map lowercaseOf ∧
      (ofText pattern).text = normalize pattern ∧ ofText (ofText pattern).text = ofText pattern ∧
      p.isMatch (normalize s) = p.isMatch s ∧
      ∀ before gap after : String, Blanks gap.toList → Parted before.toList after.toList →
        p.isMatch (before ++ gap ++ after) = p.isMatch (before ++ after) := by
  have hnormal (t : String) : (normalize t).toList = normalizeOf t.toList := String.toList_ofList
  refine ⟨normalize_normalize s, ?_, ?_, text_ofText pattern, ?_, ?_, fun before gap after hgap h => ?_⟩
  · rw [hnormal]
    exact tidy_normalizeOf s.toList
  · rw [hnormal, wordsOf_normalizeOf]
  · rw [text_ofText, ofText, hnormal, normalizeOf_normalizeOf, ofText]
  · rw [isMatch, hnormal, normalizeOf_normalizeOf, isMatch]
  · apply isMatch_of_words
    rw [String.toList_append, String.toList_append, String.toList_append, List.append_assoc]
    exact wordsOf_insert hgap h

theorem settled_by_words_lever :
    Blanks "\t\u3000".toList ∧ Parted "pull ".toList "THE lever".toList ∧
      (ofText " Pull  *LEVER").isMatch ("pull " ++ "\t\u3000" ++ "THE lever") = true ∧
      ofText "pull *lever" = ofText " Pull  *LEVER" := by
  have hgap : Blanks "\t\u3000".toList := by decide
  have hparted : Parted "pull ".toList "THE lever".toList := by decide
  obtain ⟨-, -, -, -, hshown, -, hinsert⟩ := settled_by_words "" " Pull  *LEVER" (ofText " Pull  *LEVER")
  refine ⟨hgap, hparted, ?_, ?_⟩
  · rw [hinsert "pull " "\t\u3000" "THE lever" hgap hparted]
    decide +kernel
  · have htext : (ofText " Pull  *LEVER").text = "pull *lever" := by decide +kernel
    rwa [htext] at hshown

end CommandPattern

end WorldTriggers
