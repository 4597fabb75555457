import Mathlib.Tactic
import WorldTriggers.Proofs.Words
import WorldTriggers.Text.Lowercase

namespace WorldTriggers.Text

variable {c d : Char} {cs w before : List Char} {r s : LowercaseRun} {n m : Nat}

namespace LowercaseRun

def firstLow (r : LowercaseRun) : Nat := (r.first + r.shift).toNat

def lastLow (r : LowercaseRun) : Nat := (r.last + r.shift).toNat

def avoids (r s : LowercaseRun) : Bool :=
  r.lastLow.blt s.first || s.last.blt r.firstLow ||
    (r.stride.beq 2 || r.first.beq r.last) && s.stride.beq 2 && ((r.firstLow - s.first) % 2).beq 1

theorem covers_iff : r.covers n = true ↔ r.first ≤ n ∧ n ≤ r.last ∧ (n - r.first) % r.stride = 0 := by
  simp [covers, and_assoc]

theorem not_covers_of_avoids (h : r.avoids s = true) (hn : r.covers n = true)
    (hm : (m : ℤ) = n + r.shift) : s.covers m = false := by
  rw [covers_iff] at hn
  rw [Bool.eq_false_iff, Ne, covers_iff]
  rintro ⟨hfirst, hlast, hactionStep⟩
  simp only [avoids, firstLow, lastLow, Bool.or_eq_true, Bool.and_eq_true,
    Nat.blt_eq, Nat.beq_eq] at h
  rcases h with (h | h) | ⟨⟨hr | hr, hs⟩, h⟩
  · omega
  · omega
  · rw [hr] at hn
    rw [hs] at hactionStep
    omega
  · rw [hs] at hactionStep
    omega

end LowercaseRun

section Table

def plainRun (range : Nat × Nat) : LowercaseRun := ⟨range.1, range.2, 1, 0⟩

/-- The code points that no character is lowered to: those that are lowered themselves, and the blanks. -/
def unlowered : List LowercaseRun :=
  lowercaseRuns ++ plainRun (0x130, 0x130) :: blankRanges.map plainRun

theorem avoids_unlowered : ∀ r ∈ lowercaseRuns, ∀ s ∈ unlowered, r.avoids s = true := by
  have hall : (lowercaseRuns.all fun r => unlowered.all r.avoids) = true := by decide +kernel
  simpa only [List.all_eq_true] using hall

theorem isValidChar_lowered : ∀ r ∈ lowercaseRuns, 0 ≤ r.first + r.shift ∧
    (r.last + r.shift < 0xD800 ∨ 0xDFFF < r.first + r.shift ∧ r.last + r.shift < 0x110000) := by
  decide +kernel

theorem plainRun_covers {range : Nat × Nat} :
    (plainRun range).covers n = true ↔ range.1 ≤ n ∧ n ≤ range.2 := by
  simp [LowercaseRun.covers_iff, plainRun, Nat.mod_one]

theorem isBlank_iff : isBlank c = true ↔ ∃ s ∈ blankRanges.map plainRun, s.covers c.toNat = true := by
  simp [isBlank, inRanges, plainRun_covers]

theorem toNat_ofNat_lowered (hr : r ∈ lowercaseRuns) (hn : r.covers n = true) :
    ((Char.ofNat (n + r.shift).toNat).toNat : ℤ) = n + r.shift := by
  obtain ⟨hnonneg, hrange⟩ := isValidChar_lowered r hr
  obtain ⟨hfirst, hlast, -⟩ := LowercaseRun.covers_iff.mp hn
  have hvalid : (n + r.shift).toNat.isValidChar := by
    unfold Nat.isValidChar
    omega
  rw [Char.ofNat, dif_pos hvalid]
  change (((n + r.shift).toNat : ℕ) : ℤ) = n + r.shift
  omega

theorem lowerChar_cases (c : Char) :
    (lowerChar c = c ∧ ∀ r ∈ lowercaseRuns, r.covers c.toNat = false) ∨
      ∃ r ∈ lowercaseRuns, r.covers c.toNat = true ∧ ((lowerChar c).toNat : ℤ) = c.toNat + r.shift := by
  unfold lowerChar
  split
  · rename_i r hfind
    have hmem := List.mem_of_find?_eq_some hfind
    have hcovers : r.covers c.toNat = true := by
      simpa using List.find?_some hfind
    exact .inr ⟨r, hmem, hcovers, toNat_ofNat_lowered hmem hcovers⟩
  · rename_i hfind
    exact .inl ⟨rfl, by simpa using hfind⟩

end Table

section Characters

def Settled (c : Char) : Prop := (∀ r ∈ lowercaseRuns, r.covers c.toNat = false) ∧ c.toNat ≠ 0x130

instance (c : Char) : Decidable (Settled c) :=
  have : Decidable (∀ r ∈ lowercaseRuns, r.covers c.toNat = false) := List.decidableBAll _ _
  inferInstanceAs (Decidable (_ ∧ _))

theorem Settled.lowerChar_eq (h : Settled c) : lowerChar c = c := by
  rcases lowerChar_cases c with ⟨heq, -⟩ | ⟨r, hr, hcovers, -⟩
  · exact heq
  · exact absurd hcovers (by simp [h.1 r hr])

theorem Settled.ne_sigma (h : Settled c) : c.toNat ≠ 0x3A3 := by
  intro hc
  have hcovers := h.1 ⟨0x3A3, 0x3AB, 1, 32⟩ (by decide +kernel)
  rw [hc] at hcovers
  exact absurd hcovers (by decide)

theorem settled_lowerChar (h : c.toNat ≠ 0x130) : Settled (lowerChar c) := by
  rcases lowerChar_cases c with ⟨heq, hnone⟩ | ⟨r, hr, hcovers, hshift⟩
  · rw [heq]
    exact ⟨hnone, h⟩
  · have hout (s : LowercaseRun) (hs : s ∈ unlowered) : s.covers (lowerChar c).toNat = false :=
      LowercaseRun.not_covers_of_avoids (avoids_unlowered r hr s hs) hcovers hshift
    refine ⟨fun s hs => hout s (List.mem_append_left _ hs), fun hdotted => ?_⟩
    have hfalse := hout (plainRun (0x130, 0x130)) (by simp [unlowered])
    rw [hdotted] at hfalse
    exact absurd hfalse (by decide)

theorem isBlank_lowerChar (h : isBlank c = false) : isBlank (lowerChar c) = false := by
  rcases lowerChar_cases c with ⟨heq, -⟩ | ⟨r, hr, hcovers, hshift⟩
  · rw [heq, h]
  · rw [Bool.eq_false_iff, Ne, isBlank_iff]
    rintro ⟨s, hs, hblank⟩
    have hmem : s ∈ unlowered := List.mem_append_right _ (List.mem_cons_of_mem _ hs)
    rw [LowercaseRun.not_covers_of_avoids (avoids_unlowered r hr s hmem) hcovers hshift] at hblank
    cases hblank

end Characters

section Texts

def lowered (before : List Char) (c : Char) (rest : List Char) : List Char :=
  if c.toNat = 0x3A3 then
    if seesCased before && !seesCased rest then ['\u03c2'] else ['\u03c3']
  else if c.toNat = 0x130 then ['i', '\u0307']
  else [lowerChar c]

theorem lowercaseFrom_cons (before : List Char) (c : Char) (rest : List Char) :
    lowercaseFrom before (c :: rest) = lowered before c rest ++ lowercaseFrom (c :: before) rest := rfl

theorem lowered_ne_nil (before : List Char) (c : Char) (rest : List Char) :
    lowered before c rest ≠ [] := by
  unfold lowered
  split_ifs <;> simp

theorem settled_of_mem_lowered (h : d ∈ lowered before c cs) : Settled d := by
  unfold lowered at h
  split_ifs at h with hsigma hfinal hdotted
  · obtain rfl := List.mem_singleton.mp h
    decide +kernel
  · obtain rfl := List.mem_singleton.mp h
    decide +kernel
  · rcases List.mem_pair.mp h with rfl | rfl <;> decide +kernel
  · obtain rfl := List.mem_singleton.mp h
    exact settled_lowerChar hdotted

theorem isBlank_of_mem_lowered (hc : isBlank c = false) (h : d ∈ lowered before c cs) :
    isBlank d = false := by
  unfold lowered at h
  split_ifs at h
  · obtain rfl := List.mem_singleton.mp h
    decide
  · obtain rfl := List.mem_singleton.mp h
    decide
  · rcases List.mem_pair.mp h with rfl | rfl <;> decide
  · obtain rfl := List.mem_singleton.mp h
    exact isBlank_lowerChar hc

theorem settled_of_mem_lowercaseFrom (h : d ∈ lowercaseFrom before cs) : Settled d := by
  induction cs generalizing before with
  | nil => cases h
  | cons c cs ih =>
    rw [lowercaseFrom_cons, List.mem_append] at h
    rcases h with h | h
    · exact settled_of_mem_lowered h
    · exact ih h

theorem lowercaseFrom_of_settled (h : ∀ c ∈ cs, Settled c) : lowercaseFrom before cs = cs := by
  induction cs generalizing before with
  | nil => rfl
  | cons c cs ih =>
    obtain ⟨hc, hcs⟩ := List.forall_mem_cons.mp h
    rw [lowercaseFrom_cons, ih hcs, lowered, if_neg hc.ne_sigma, if_neg hc.2, hc.lowerChar_eq]
    rfl

theorem lowercaseOf_lowercaseOf (cs : List Char) : lowercaseOf (lowercaseOf cs) = lowercaseOf cs :=
  lowercaseFrom_of_settled fun _ => settled_of_mem_lowercaseFrom

theorem not_blank_lowercaseFrom (hw : ∀ c ∈ cs, isBlank c = false) (h : d ∈ lowercaseFrom before cs) :
    isBlank d = false := by
  induction cs generalizing before with
  | nil => cases h
  | cons c cs ih =>
    obtain ⟨hc, hcs⟩ := List.forall_mem_cons.mp hw
    rw [lowercaseFrom_cons, List.mem_append] at h
    rcases h with h | h
    · exact isBlank_of_mem_lowered hc h
    · exact ih hcs h

theorem Word.lowercaseOf (hw : Word w) : Word (Text.lowercaseOf w) where
  ne_nil := by
    obtain ⟨c, t, rfl, -⟩ := hw.eq_cons
    rw [Text.lowercaseOf, lowercaseFrom_cons]
    simp [lowered_ne_nil]
  not_blank _ := not_blank_lowercaseFrom hw.not_blank

end Texts

end WorldTriggers.Text
