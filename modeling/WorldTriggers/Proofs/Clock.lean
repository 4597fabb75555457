import Mathlib.Tactic
import WorldTriggers.Engine.Advance
import WorldTriggers.Time.Clock

namespace WorldTriggers

open Instant (first last)

section Conversions

variable {t u : Instant} {d : Span} {m k start : Moment} {n : Lapse}

theorem Moment.since_le_since (h : m ≤ k) (start : Moment) : m.since start ≤ k.since start :=
  Int.toNat_le_toNat (sub_le_sub_right h start)

theorem Moment.cast_since (h : start ≤ m) : ((m.since start : ℕ) : ℤ) = m - start :=
  Int.toNat_of_nonneg (sub_nonneg.mpr h)

theorem Moment.after?_of_le (h : m + n ≤ Moment.last) : m.after? n = some (m + n) := if_pos h

theorem Lapse.ofSpan?_getD (d : Span) : (Lapse.ofSpan? d).getD 0 = d.toNat := by
  unfold Lapse.ofSpan?
  split
  · rfl
  · rename_i h
    exact (Int.toNat_of_nonpos (le_of_not_ge h)).symm

theorem Instant.sub_le_longest (ht : first ≤ t) (hu : u ≤ last) : u - t ≤ Span.longest :=
  (sub_le_sub hu ht).trans (by decide)

theorem Instant.after?_getD (ht : first ≤ t) (hd : 0 ≤ d) : (t.after? d).getD last = min (t + d) last := by
  have hfirst : first ≤ t + d := le_add_of_le_of_nonneg ht hd
  unfold Instant.after?
  split
  · rename_i h
    exact (min_eq_left h.2).symm
  · rename_i h
    exact (min_eq_right (le_of_not_ge fun hlast => h ⟨hfirst, hlast⟩)).symm

end Conversions

namespace Clock

variable {c : Clock} {deadline : Instant} {j k m : Moment}

section Now

theorem now_eq (hfirst : first ≤ c.instant) (m : Moment) :
    c.now m = min (c.instant + m.since c.anchor) last := by
  unfold now Lapse.span?
  dsimp only
  split
  · exact Instant.after?_getD hfirst (Int.natCast_nonneg _)
  · rename_i hlong
    have hlast : last ≤ c.instant + Span.longest :=
      sub_le_iff_le_add'.mp (Instant.sub_le_longest hfirst le_rfl)
    have hsince : last ≤ c.instant + m.since c.anchor :=
      hlast.trans (add_le_add_right (le_of_not_ge hlong) _)
    rw [Option.getD_none, Instant.after?_getD hfirst (by decide), min_eq_right hlast, min_eq_right hsince]

theorem now_mono (hfirst : first ≤ c.instant) (h : j ≤ k) : c.now j ≤ c.now k := by
  rw [now_eq hfirst, now_eq hfirst]
  exact min_le_min_right _ (add_le_add_right (Int.ofNat_le.mpr (Moment.since_le_since h c.anchor)) _)

theorem le_now_of_le (hfirst : first ≤ c.instant) (hlast : c.instant ≤ last) (h : deadline ≤ c.instant)
    (j : Moment) : deadline ≤ c.now j := by
  rw [now_eq hfirst, le_min_iff]
  exact ⟨h.trans (le_add_of_nonneg_right (Int.natCast_nonneg _)), h.trans hlast⟩

end Now

section MomentOf

theorem momentOf_eq (h : c.anchor + c.lapseTo deadline ≤ Moment.last) (m : Moment) :
    c.momentOf m deadline = c.anchor + (deadline - c.instant).toNat := by
  rw [momentOf, Moment.after?_of_le h, Option.getD_some, lapseTo, Lapse.ofSpan?_getD]

theorem le_now_iff (hfirst : first ≤ c.instant) (hdeadline : deadline ≤ last)
    (hlater : c.instant < deadline) (h : c.anchor + c.lapseTo deadline ≤ Moment.last)
    (hj : c.anchor ≤ j) (m : Moment) : deadline ≤ c.now j ↔ c.momentOf m deadline ≤ j := by
  rw [now_eq hfirst, le_min_iff, and_iff_left hdeadline, Moment.cast_since hj, momentOf_eq h,
    Int.toNat_of_nonneg (sub_nonneg.mpr hlater.le)]
  constructor <;> intro hle <;> linarith

theorem le_now_of_momentOf_le (hfirst : first ≤ c.instant) (hlast : c.instant ≤ last)
    (hdeadline : deadline ≤ last) (h : c.anchor + c.lapseTo deadline ≤ Moment.last)
    (hj : c.anchor ≤ j) (hwoken : c.momentOf m deadline ≤ j) : deadline ≤ c.now j := by
  rcases le_or_gt deadline c.instant with hpast | hlater
  · exact le_now_of_le hfirst hlast hpast j
  · exact (le_now_iff hfirst hdeadline hlater h hj m).mpr hwoken

end MomentOf

end Clock

theorem Engine.exists_runNext?_of_nextDeadline? {e : Engine} {deadline now : Instant}
    (h : e.nextDeadline? = some deadline) (hdue : deadline ≤ now) (w : World) :
    ∃ told, e.runNext? w now = some told := by
  obtain ⟨⟨k, r⟩, hfirst, rfl⟩ := Option.map_eq_some_iff.mp h
  unfold runNext? Schedule.popDue?
  rw [hfirst]
  dsimp only
  rw [if_pos hdue]
  exact ⟨_, rfl⟩

namespace Clock

variable {c : Clock} {deadline : Instant} {j k m : Moment}

/-- It is never too early when the moment of a deadline comes, and never too late before, provided that the
moment can be told; a deadline that had passed when the clock was started is past at all times. Time does
not go back. An engine that is woken for its next deadline therefore has a job to run. Anchors and deadlines
are instants, that is no leap seconds: the anchor is read off the system's clock, a deadline is such a time
with a span added to it, and neither gives a second 60. -/
theorem due_iff_woken (hfirst : first ≤ c.instant) (hlast : c.instant ≤ last)
    (hdeadline : deadline ≤ last) (hj : c.anchor ≤ j) :
    (c.anchor + c.lapseTo deadline ≤ Moment.last → c.instant < deadline →
        ∀ m, deadline ≤ c.now j ↔ c.momentOf m deadline ≤ j) ∧
      (deadline ≤ c.instant → deadline ≤ c.now j) ∧
      (∀ k, j ≤ k → c.now j ≤ c.now k) ∧
      (c.anchor + c.lapseTo deadline ≤ Moment.last →
        ∀ (e : Engine) (w : World) (m : Moment), e.nextDeadline? = some deadline →
          c.momentOf m deadline ≤ j → ∃ told, e.runNext? w (c.now j) = some told) := by
  refine ⟨fun h hlater m => le_now_iff hfirst hdeadline hlater h hj m,
    fun h => le_now_of_le hfirst hlast h j, fun k => now_mono hfirst, fun h e w m hnext hwoken => ?_⟩
  exact Engine.exists_runNext?_of_nextDeadline? hnext
    (le_now_of_momentOf_le hfirst hlast hdeadline h hj hwoken) w

def noon : Clock := ⟨7000000, 1700000000000000000⟩

def chilling : Engine :=
  { Engine.ofSettings (.builtin 8) with
    schedule := (Schedule.empty.once 1700000001500000000 (.expireEffect "alice" "chilled" none)).2 }

theorem due_iff_woken_noon :
    first ≤ noon.instant ∧ noon.instant < 1700000001500000000 ∧ 1700000001500000000 ≤ last ∧
      noon.anchor + noon.lapseTo 1700000001500000000 ≤ Moment.last ∧
      noon.momentOf 0 1700000001500000000 = 1507000000 ∧
      (∀ j, noon.anchor ≤ j → (1700000001500000000 ≤ noon.now j ↔ 1507000000 ≤ j)) ∧
      chilling.nextDeadline? = some 1700000001500000000 ∧
      ∃ told, chilling.runNext? {} (noon.now 1507000000) = some told := by
  have hfirst : first ≤ noon.instant := by decide
  have hlater : noon.instant < 1700000001500000000 := by decide
  have hlast : (1700000001500000000 : Instant) ≤ last := by decide
  have htold : noon.anchor + noon.lapseTo 1700000001500000000 ≤ Moment.last := by decide
  have hmoment : noon.momentOf 0 1700000001500000000 = 1507000000 := by decide
  have hspec (j : Moment) := due_iff_woken (j := j) hfirst (hlater.le.trans hlast) hlast
  refine ⟨hfirst, hlater, hlast, htold, hmoment, fun j hj => ?_, rfl, ?_⟩
  · rw [(hspec j hj).1 htold hlater 0, hmoment]
  · exact (hspec 1507000000 (by decide)).2.2.2 htold chilling {} 0 rfl hmoment.le

end Clock

end WorldTriggers
