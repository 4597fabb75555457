import Mathlib.Tactic
import WorldTriggers.Content.Document

namespace WorldTriggers.Scope

theorem text_injective : Function.Injective text := by
  intro s t h
  have hchars := congrArg String.toList h
  cases s <;> cases t <;> simp [text] at hchars ⊢
  · exact String.toList_injective hchars
  · exact String.toList_injective hchars

theorem eq_append_of_splitColon {cs before after : List Char}
    (h : splitColon cs = some (before, after)) : cs = before ++ ':' :: after := by
  induction cs generalizing before with
  | nil => cases h
  | cons c cs ih =>
    rw [splitColon] at h
    split at h
    · subst c
      cases h
      rfl
    · obtain ⟨⟨_, _⟩, hsplit, hparts⟩ := Option.map_eq_some_iff.mp h
      cases hparts
      rw [ih hsplit, List.cons_append]

theorem ofText?_eq_some_iff {t : String} {s : Scope} :
    ofText? t = some s ↔ t = s.text ∧ s.id ≠ "" := by
  constructor
  · intro h
    unfold ofText? ofChars? at h
    split at h
    · cases h
    · rename_i kind i hsplit
      have hchars := eq_append_of_splitColon hsplit
      split at h
      · cases h
      rename_i hne
      have hid : String.ofList i ≠ "" := by simpa using hne
      split at h
      · cases h
        subst kind
        exact ⟨String.toList_injective (by simp [hchars, text]), hid⟩
      · split at h
        · cases h
          subst kind
          exact ⟨String.toList_injective (by simp [hchars, text]), hid⟩
        · cases h
  · rintro ⟨rfl, h⟩
    have hne : s.id.toList.isEmpty = false := by
      simpa [List.isEmpty_eq_false_iff] using h
    cases s <;> simp_all [ofText?, text, ofChars?, splitColon, id]

def node (s : Scope) : Yaml.Node :=
  .mapping [(.scalar (if s.rank = 0 then "room" else "area") true, .scalar s.id false)]

theorem exists_content (s : Scope) : ∃ n c, Content.ofNode? n none = some c ∧ c.scope = s := by
  refine ⟨.mapping [(.scalar "scope" true, s.node)], .empty s none, ?_, rfl⟩
  cases s <;> rfl

end WorldTriggers.Scope
