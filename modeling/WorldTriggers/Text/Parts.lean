namespace WorldTriggers.Text

def splitAll (mark : Char) : List Char → List (List Char)
  | [] => [[]]
  | c :: rest =>
    if c = mark then [] :: splitAll mark rest
    else
      match splitAll mark rest with
      | [] => [[c]]
      | s :: ss => (c :: s) :: ss

def joinWith (sep : List Char) : List (List Char) → List Char
  | [] => []
  | [w] => w
  | w :: rest => w ++ sep ++ joinWith sep rest

theorem splitAll_ne_nil (mark : Char) (cs : List Char) : splitAll mark cs ≠ [] := by
  cases cs with
  | nil => simp [splitAll]
  | cons c rest =>
    unfold splitAll
    split
    · simp
    · split <;> simp

theorem joinWith_splitAll (mark : Char) (cs : List Char) :
    joinWith [mark] (splitAll mark cs) = cs := by
  induction cs with
  | nil => rfl
  | cons c rest ih =>
    have hne := splitAll_ne_nil mark rest
    unfold splitAll
    split
    · rename_i hc
      obtain ⟨s, ss, hs⟩ := List.exists_cons_of_ne_nil hne
      rw [hs] at ih ⊢
      simp [joinWith, hc, ih]
    · split
      · rename_i hs
        exact absurd hs hne
      · rename_i s ss hs
        rw [hs] at ih
        cases ss <;> simp_all [joinWith]

end WorldTriggers.Text
