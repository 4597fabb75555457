import Mathlib.Computability.Language
import Mathlib.Tactic
import WorldTriggers.CommandPattern

namespace WorldTriggers

theorem Text.length_splitAll (mark : Char) (cs : List Char) :
    (splitAll mark cs).length = cs.count mark + 1 := by
  induction cs with
  | nil => rfl
  | cons c rest ih =>
    by_cases hc : c = mark
    · subst hc
      simp [splitAll, ih]
    · obtain ⟨s, ss, hs⟩ := List.exists_cons_of_ne_nil (splitAll_ne_nil mark rest)
      rw [hs] at ih
      simpa [splitAll, hc, hs, List.count_cons] using ih

namespace CommandPattern

open Text

/-- The texts that a pattern in normal form stands for. -/
def languageOf : List Char → Language Char
  | [] => 1
  | c :: p => (if c = '*' then ⊤ else {[c]}) * languageOf p

def spread (gaps segments : List (List Char)) : List Char :=
  (List.zipWith (· ++ ·) gaps segments).flatten

def interleave (gaps : List (List Char)) : List (List Char) → List Char
  | [] => []
  | first :: rest => first ++ spread gaps rest

section Languages

variable {c : Char} {p t : List Char}

theorem mem_languageOf_star : t ∈ languageOf ('*' :: p) ↔ ∃ run, ∃ u ∈ languageOf p, run ++ u = t := by
  rw [languageOf, if_pos rfl, Language.mem_mul]
  constructor
  · rintro ⟨run, -, u, hu, rfl⟩
    exact ⟨run, u, hu, rfl⟩
  · rintro ⟨run, u, hu, rfl⟩
    exact ⟨run, Set.mem_univ run, u, hu, rfl⟩

theorem mem_languageOf_char (hc : c ≠ '*') :
    t ∈ languageOf (c :: p) ↔ ∃ u ∈ languageOf p, c :: u = t := by
  rw [languageOf, if_neg hc, Language.mem_mul]
  constructor
  · rintro ⟨_, rfl, u, hu, rfl⟩
    exact ⟨u, hu, rfl⟩
  · rintro ⟨u, hu, rfl⟩
    exact ⟨[c], Set.mem_singleton [c], u, hu, rfl⟩

theorem interleave_nil_cons (gap : List Char) (gaps segments : List (List Char)) (h : segments ≠ []) :
    interleave (gap :: gaps) ([] :: segments) = gap ++ interleave gaps segments := by
  obtain ⟨s, ss, rfl⟩ := List.exists_cons_of_ne_nil h
  simp [interleave, spread]

theorem mem_languageOf_iff : t ∈ languageOf p ↔
    ∃ gaps, gaps.length = p.count '*' ∧ t = interleave gaps (splitAll '*' p) := by
  induction p generalizing t with
  | nil => simp [languageOf, splitAll, interleave, spread, Language.mem_one]
  | cons c p ih =>
    by_cases hc : c = '*'
    · subst hc
      have hsplit : splitAll '*' ('*' :: p) = [] :: splitAll '*' p := by simp [splitAll]
      rw [mem_languageOf_star, hsplit, List.count_cons_self]
      constructor
      · rintro ⟨run, u, hu, rfl⟩
        obtain ⟨gaps, hlen, rfl⟩ := ih.mp hu
        refine ⟨run :: gaps, by simp [hlen], ?_⟩
        rw [interleave_nil_cons _ _ _ (splitAll_ne_nil '*' p)]
      · rintro ⟨gaps, hlen, rfl⟩
        obtain ⟨run, gaps, rfl⟩ := List.exists_cons_of_length_eq_add_one hlen
        refine ⟨run, _, ih.mpr ⟨gaps, by simpa using hlen, rfl⟩, ?_⟩
        rw [interleave_nil_cons _ _ _ (splitAll_ne_nil '*' p)]
    · obtain ⟨s, ss, hs⟩ := List.exists_cons_of_ne_nil (splitAll_ne_nil '*' p)
      have hsplit : splitAll '*' (c :: p) = (c :: s) :: ss := by simp [splitAll, hc, hs]
      rw [mem_languageOf_char hc, hsplit, List.count_cons_of_ne hc]
      constructor
      · rintro ⟨u, hu, rfl⟩
        obtain ⟨gaps, hlen, rfl⟩ := ih.mp hu
        exact ⟨gaps, hlen, by simp [hs, interleave]⟩
      · rintro ⟨gaps, hlen, rfl⟩
        exact ⟨_, ih.mpr ⟨gaps, hlen, rfl⟩, by simp [hs, interleave]⟩

end Languages

section Search

variable {literal cs rest : List Char}

theorem afterFirst?_sound (h : afterFirst? literal cs = some rest) :
    ∃ gap, cs = gap ++ literal ++ rest := by
  induction cs with
  | nil =>
    unfold afterFirst? at h
    split at h
    · rename_i hempty
      rw [List.isEmpty_iff] at hempty
      exact ⟨[], by simp [hempty, ← Option.some.inj h]⟩
    · cases h
  | cons c cs ih =>
    unfold afterFirst? at h
    split at h
    · rename_i hprefix
      obtain ⟨u, hu⟩ := List.isPrefixOf_iff_prefix.mp hprefix
      rw [← hu, List.drop_left] at h
      exact ⟨[], by rw [← hu, Option.some.inj h, List.nil_append]⟩
    · obtain ⟨gap, hgap⟩ := ih h
      exact ⟨c :: gap, by simp [hgap]⟩

theorem exists_afterFirst? (gap literal rest : List Char) :
    ∃ more, afterFirst? literal (gap ++ literal ++ rest) = some (more ++ rest) := by
  induction gap with
  | nil =>
    rw [List.nil_append]
    cases hcs : literal ++ rest with
    | nil =>
      obtain ⟨rfl, rfl⟩ := List.append_eq_nil_iff.mp hcs
      exact ⟨[], rfl⟩
    | cons c cs =>
      have hprefix : literal.isPrefixOf (c :: cs) = true := by
        rw [← hcs]
        exact List.isPrefixOf_iff_prefix.mpr (List.prefix_append _ _)
      refine ⟨[], ?_⟩
      rw [afterFirst?, if_pos hprefix, ← hcs, List.drop_left, List.nil_append]
  | cons c gap ih =>
    rw [List.cons_append, List.cons_append, afterFirst?]
    split
    · rename_i hprefix
      obtain ⟨u, hu⟩ := List.isPrefixOf_iff_prefix.mp hprefix
      rw [← hu, List.drop_left]
      -- The literal begins here and once more after the gap, so that what follows here is longer.
      have hlen : rest.length ≤ u.length := by
        have := congrArg List.length hu
        simp only [List.length_append, List.length_cons] at this
        omega
      have hsuffix : rest <:+ literal ++ u := ⟨c :: (gap ++ literal), by simp [hu]⟩
      obtain ⟨more, hmore⟩ := List.suffix_of_suffix_length_le hsuffix (List.suffix_append _ _) hlen
      exact ⟨more, by rw [hmore]⟩
    · exact ih

theorem matchSegments_cons {segments : List (List Char)} (h : segments ≠ []) (s cs : List Char) :
    matchSegments (s :: segments) cs =
      match afterFirst? s cs with
      | some rest => matchSegments segments rest
      | none => false := by
  cases segments with
  | nil => exact absurd rfl h
  | cons s' segments => rfl

theorem matchSegments_iff (segments : List (List Char)) (cs : List Char) :
    matchSegments segments cs = true ↔
      ∃ gaps, gaps.length = segments.length ∧ cs = spread gaps segments := by
  induction segments generalizing cs with
  | nil => simp [matchSegments, spread]
  | cons s segments ih =>
    cases segments with
    | nil =>
      rw [matchSegments, List.isSuffixOf_iff_suffix]
      constructor
      · rintro ⟨gap, rfl⟩
        exact ⟨[gap], rfl, by simp [spread]⟩
      · rintro ⟨gaps, hlen, rfl⟩
        obtain ⟨gap, rfl⟩ := List.length_eq_one_iff.mp hlen
        exact ⟨gap, by simp [spread]⟩
    | cons s' segments =>
      rw [matchSegments_cons (List.cons_ne_nil _ _)]
      constructor
      · intro h
        split at h
        · rename_i rest hrest
          obtain ⟨gap, rfl⟩ := afterFirst?_sound hrest
          obtain ⟨gaps, hlen, rfl⟩ := (ih rest).mp h
          exact ⟨gap :: gaps, by simp [hlen], by simp [spread]⟩
        · cases h
      · rintro ⟨gaps, hlen, rfl⟩
        obtain ⟨gap, gaps, rfl⟩ := List.exists_cons_of_length_eq_add_one hlen
        -- What the first occurrence leaves over in front of the match goes into the next gap.
        obtain ⟨gap', gaps, rfl⟩ : ∃ gap' gaps', gaps = gap' :: gaps' :=
          List.exists_cons_of_length_eq_add_one (Nat.succ.inj hlen)
        obtain ⟨more, hmore⟩ := exists_afterFirst? gap s (spread (gap' :: gaps) (s' :: segments))
        have hspread : spread (gap :: gap' :: gaps) (s :: s' :: segments) =
            gap ++ s ++ spread (gap' :: gaps) (s' :: segments) := by simp [spread]
        rw [hspread, hmore]
        exact (ih _).mpr ⟨(more ++ gap') :: gaps, by simpa using hlen, by simp [spread]⟩

theorem matchesNormal_glob {segments : List (List Char)} (h : segments ≠ []) (cs : List Char) :
    (glob segments).matchesNormal cs = true ↔
      ∃ gaps, gaps.length + 1 = segments.length ∧ cs = interleave gaps segments := by
  obtain ⟨first, segments, rfl⟩ := List.exists_cons_of_ne_nil h
  rw [matchesNormal, Bool.and_eq_true, List.isPrefixOf_iff_prefix, matchSegments_iff]
  constructor
  · rintro ⟨⟨u, rfl⟩, gaps, hlen, hu⟩
    rw [List.drop_left] at hu
    exact ⟨gaps, by simp [hlen], by rw [interleave, hu]⟩
  · rintro ⟨gaps, hlen, rfl⟩
    refine ⟨List.prefix_append _ _, gaps, by simpa using hlen, ?_⟩
    rw [interleave, List.drop_left]

theorem matchesNormal_ofNormal (p cs : List Char) :
    (ofNormal p).matchesNormal cs = (glob (splitAll '*' p)).matchesNormal cs := by
  unfold ofNormal
  split
  · rename_i literal hsplit
    rw [hsplit, Bool.eq_iff_iff, matchesNormal_glob (List.cons_ne_nil _ _)]
    simp [matchesNormal, interleave, spread]
  · rename_i literal hsplit
    rw [hsplit]
    simp [matchesNormal, matchSegments]
  · rfl

end Search

/-- A pattern matches the texts of its language, that is its segments with anything between them, and
the short ways for a literal and for a star at the end agree with the search. -/
theorem isMatch_ofText (pattern input : String) :
    ((ofText pattern).isMatch input = true ↔
        normalizeOf input.toList ∈ languageOf (normalizeOf pattern.toList)) ∧
      ((ofText pattern).isMatch input = true ↔
        ∃ gaps, gaps.length = (normalizeOf pattern.toList).count '*' ∧
          normalizeOf input.toList = interleave gaps (splitAll '*' (normalizeOf pattern.toList))) ∧
      (ofText pattern).isMatch input =
        (glob (splitAll '*' (normalizeOf pattern.toList))).isMatch input := by
  have hglob : (ofText pattern).isMatch input =
      (glob (splitAll '*' (normalizeOf pattern.toList))).isMatch input :=
    matchesNormal_ofNormal _ _
  have hgaps : (ofText pattern).isMatch input = true ↔
      ∃ gaps, gaps.length = (normalizeOf pattern.toList).count '*' ∧
        normalizeOf input.toList = interleave gaps (splitAll '*' (normalizeOf pattern.toList)) := by
    rw [hglob, isMatch, matchesNormal_glob (splitAll_ne_nil '*' _), length_splitAll]
    simp only [Nat.add_right_cancel_iff]
  exact ⟨hgaps.trans mem_languageOf_iff.symm, hgaps, hglob⟩

example : (ofText "Say * to *to").isMatch "say  to to TO" = true := by decide +kernel

end CommandPattern

end WorldTriggers
