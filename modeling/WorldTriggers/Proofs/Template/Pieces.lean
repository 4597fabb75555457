import WorldTriggers.Proofs.Template

namespace WorldTriggers.Template

variable {values : Values} {cs before body : List Char}

def Values.resolved (values : Values) (v : Variable) : Bool := (values v).isSome

inductive Part where
  | plain (cs : List Char)
  | braced (body : List Char)
  deriving DecidableEq, Repr

inductive Piece where
  | literal (cs : List Char)
  | value (v : Variable)
  deriving DecidableEq, Repr

namespace Part

def written : Part → List Char
  | plain cs => cs
  | braced body => '\x7b' :: body ++ ['\x7d']

def piece (resolved : Variable → Bool) : Part → Piece
  | plain cs => .literal cs
  | braced body =>
    match Variable.ofName? (body.dropWhile (· == '\x7b')) with
    | some v => if resolved v then .value v else .literal (braced body).written
    | none => .literal (braced body).written

def expand (values : Values) : Part → List Char
  | plain cs => cs
  | braced body => Template.expand values body

end Part

def Piece.fill (values : Values) : Piece → List Char
  | literal cs => cs
  | value v => ((values v).getD "").toList

/-- The parts of a text. An opening brace takes the next closing one; without one, the rest is plain. -/
def parts (cs : List Char) : List Part :=
  match _hopen : splitAt? '\x7b' cs with
  | none => [.plain cs]
  | some (before, rest) =>
    match _hclose : splitAt? '\x7d' rest with
    | none => [.plain cs]
    | some (body, after) => .plain before :: .braced body :: parts after
termination_by cs.length
decreasing_by exact Nat.lt_trans (splitAt?_length _hclose) (splitAt?_length _hopen)

def pieces (resolved : Variable → Bool) (cs : List Char) : List Piece :=
  (parts cs).map (Part.piece resolved)

section Parts

theorem parts_plain (h : '\x7b' ∉ cs) : parts cs = [.plain cs] := by
  rw [parts]
  split
  · rfl
  · simp_all [splitAt?_eq_none_iff.mpr h]

theorem parts_unclosed (hb : '\x7b' ∉ before) (hbody : '\x7d' ∉ body) :
    parts (before ++ '\x7b' :: body) = [.plain (before ++ '\x7b' :: body)] := by
  rw [parts]
  split
  · rfl
  · rename_i hopen
    rw [splitAt?_append hb] at hopen
    cases hopen
    split
    · rfl
    · simp_all [splitAt?_eq_none_iff.mpr hbody]

theorem parts_braced (hb : '\x7b' ∉ before) (hbody : '\x7d' ∉ body) (after : List Char) :
    parts (before ++ '\x7b' :: (body ++ '\x7d' :: after)) =
      .plain before :: .braced body :: parts after := by
  rw [parts]
  split
  · simp_all [splitAt?_append hb]
  · rename_i hopen
    rw [splitAt?_append hb] at hopen
    cases hopen
    split
    · simp_all [splitAt?_append hbody]
    · rename_i hclose
      rw [splitAt?_append hbody] at hclose
      cases hclose
      rfl

theorem braces_induct {motive : List Char → Prop} (plain : ∀ cs, '\x7b' ∉ cs → motive cs)
    (unclosed : ∀ before body, '\x7b' ∉ before → '\x7d' ∉ body → motive (before ++ '\x7b' :: body))
    (braced : ∀ before body after, '\x7b' ∉ before → '\x7d' ∉ body → motive after →
      motive (before ++ '\x7b' :: (body ++ '\x7d' :: after))) (cs : List Char) : motive cs := by
  fun_induction parts cs with
  | case1 cs hopen => exact plain cs (splitAt?_eq_none_iff.mp hopen)
  | case2 cs before rest hopen hclose =>
    obtain ⟨rfl, hb⟩ := eq_append_of_splitAt? hopen
    exact unclosed before rest hb (splitAt?_eq_none_iff.mp hclose)
  | case3 cs before rest hopen body after hclose ih =>
    obtain ⟨rfl, hb⟩ := eq_append_of_splitAt? hopen
    obtain ⟨rfl, hbody⟩ := eq_append_of_splitAt? hclose
    exact braced before body after hb hbody ih

theorem written_parts (cs : List Char) : (parts cs).flatMap Part.written = cs := by
  induction cs using braces_induct with
  | plain cs h => simp [parts_plain h, Part.written]
  | unclosed before body hb hbody => simp [parts_unclosed hb hbody, Part.written]
  | braced before body after hb hbody ih => simp [parts_braced hb hbody, Part.written, ih]

theorem renderChars_eq_flatMap (values : Values) (cs : List Char) :
    renderChars values cs = (parts cs).flatMap (Part.expand values) := by
  fun_induction renderChars values cs with
  | case1 cs hopen => simp [parts_plain (splitAt?_eq_none_iff.mp hopen), Part.expand]
  | case2 cs before rest hopen hclose =>
    obtain ⟨rfl, hb⟩ := eq_append_of_splitAt? hopen
    simp [parts_unclosed hb (splitAt?_eq_none_iff.mp hclose), Part.expand]
  | case3 cs before rest hopen body after hclose ih =>
    obtain ⟨rfl, hb⟩ := eq_append_of_splitAt? hopen
    obtain ⟨rfl, hbody⟩ := eq_append_of_splitAt? hclose
    simp [parts_braced hb hbody, Part.expand, ih]

end Parts

section Pieces

theorem fill_piece (values : Values) (part : Part) :
    (part.piece values.resolved).fill values = part.expand values := by
  cases part with
  | plain cs => rfl
  | braced body =>
    dsimp only [Part.piece, Part.expand, Template.expand]
    cases Variable.ofName? (body.dropWhile (· == '\x7b')) with
    | none => rfl
    | some v => cases hv : values v <;> simp [Values.resolved, hv, Piece.fill, Part.written]

theorem renderChars_eq_fill (values : Values) (cs : List Char) :
    renderChars values cs = (pieces values.resolved cs).flatMap (Piece.fill values) := by
  simp only [renderChars_eq_flatMap, pieces, List.flatMap_map, fill_piece]

theorem resolved_of_value_mem {resolved : Variable → Bool} {v : Variable}
    (h : .value v ∈ pieces resolved cs) : resolved v = true := by
  obtain ⟨part, -, hpart⟩ := List.mem_map.mp h
  cases part with
  | plain => cases hpart
  | braced body =>
    dsimp only [Part.piece] at hpart
    split at hpart
    · split at hpart
      · obtain rfl := Piece.value.inj hpart
        assumption
      · cases hpart
    · cases hpart

theorem renderChars_of_unresolved (h : ∀ v, values v = none) (cs : List Char) :
    renderChars values cs = cs := by
  have hexpand (part : Part) : part.expand values = part.written := by
    cases part with
    | plain => rfl
    | braced body => exact expand_of_not_resolves fun value ⟨v, s, _, hs, _⟩ => by simp [h v] at hs
  rw [renderChars_eq_flatMap, funext hexpand, written_parts]

end Pieces

section Append

theorem renderChars_append_of_plain (h : '\x7b' ∉ before) (cs : List Char) :
    renderChars values (before ++ cs) = before ++ renderChars values cs := by
  simp only [renderChars_eq_flatMap]
  induction cs using braces_induct with
  | plain cs hcs =>
    have hall : '\x7b' ∉ before ++ cs := by simp [h, hcs]
    simp [parts_plain hcs, parts_plain hall, Part.expand]
  | unclosed b body hb hbody =>
    have hall : '\x7b' ∉ before ++ b := by simp [h, hb]
    rw [← List.append_assoc, parts_unclosed hall hbody, parts_unclosed hb hbody]
    simp [Part.expand]
  | braced b body after hb hbody =>
    have hall : '\x7b' ∉ before ++ b := by simp [h, hb]
    rw [← List.append_assoc, parts_braced hall hbody, parts_braced hb hbody]
    simp [Part.expand]

theorem renderChars_append (h : ¬LeavesOpen cs) (after : List Char) :
    renderChars values (cs ++ after) = renderChars values cs ++ renderChars values after := by
  induction cs using braces_induct with
  | plain cs hcs =>
    rw [renderChars_append_of_plain hcs, renderChars_eq_flatMap values cs, parts_plain hcs]
    simp [Part.expand]
  | unclosed before body hb hbody => exact absurd ⟨before, body, rfl, hbody⟩ h
  | braced before body rest hb hbody ih =>
    have hrest : ¬LeavesOpen rest := fun ho =>
      h (by simpa using ho.append (before ++ '\x7b' :: (body ++ ['\x7d'])))
    have hsplit (cs : List Char) : renderChars values (before ++ '\x7b' :: (body ++ '\x7d' :: cs)) =
        before ++ (expand values body ++ renderChars values cs) := by
      simp [renderChars_eq_flatMap, parts_braced hb hbody, Part.expand]
    rw [hsplit, show before ++ '\x7b' :: (body ++ '\x7d' :: rest) ++ after =
      before ++ '\x7b' :: (body ++ '\x7d' :: (rest ++ after)) by simp, hsplit, ih hrest]
    simp

end Append

/-- A text has its parts whatever the values are, and where these variables have values, it has its pieces:
rendering puts each value in for its variable and copies the rest. Without values a text is copied as it
is, and behind a text that leaves no brace open, rendering begins anew. -/
theorem rendered_by_pieces (s : String) :
    (parts s.toList).flatMap Part.written = s.toList ∧
      (∀ resolved, (∀ v, .value v ∈ pieces resolved s.toList → resolved v = true) ∧
        ∀ values : Values, values.resolved = resolved →
          (render values s).toList = (pieces resolved s.toList).flatMap (Piece.fill values)) ∧
      (∀ values : Values, (∀ v, values v = none) → render values s = s) ∧
      (¬LeavesOpen s.toList → ∀ values rest, render values (s ++ rest) =
        render values s ++ render values rest) := by
  refine ⟨written_parts _, fun resolved => ⟨fun v => resolved_of_value_mem, ?_⟩, fun values h => ?_,
    fun h values rest => ?_⟩
  · rintro values rfl
    rw [render, String.toList_ofList]
    exact renderChars_eq_fill values s.toList
  · rw [render, renderChars_of_unresolved h, String.ofList_toList]
  · rw [render, String.toList_append, renderChars_append h, String.ofList_append]
    rfl

theorem not_leavesOpen_concat (cs : List Char) : ¬LeavesOpen (cs ++ ['\x7d']) := by
  rintro ⟨a, b, h, hb⟩
  obtain rfl | ⟨b, c, rfl⟩ := List.eq_nil_or_concat b
  · exact absurd (List.append_inj' h rfl).2 (by decide)
  · obtain ⟨-, hc⟩ := List.append_inj' (h.trans (by simp : _ = (a ++ '\x7b' :: b) ++ [c])) rfl
    exact hb (by simp [← hc])

def sly : Values
  | .command => some "\x7bactor\x7d \x7b"
  | .actor => some "Alice"
  | _ => none

theorem rendered_by_pieces_sly :
    pieces sly.resolved "\x7b\x7bcommand\x7dactor\x7d, \x7broom\x7d".toList =
        [.literal [], .value .command, .literal "actor\x7d, ".toList, .literal "\x7broom\x7d".toList,
          .literal []] ∧
      render sly "\x7b\x7bcommand\x7dactor\x7d, \x7broom\x7d" =
        "\x7bactor\x7d \x7bactor\x7d, \x7broom\x7d" ∧
      render (fun _ => none) "\x7bcommand\x7d" = "\x7bcommand\x7d" ∧
      ¬LeavesOpen "\x7d\x7bcommand\x7d".toList ∧
      render sly ("\x7d\x7bcommand\x7d" ++ "actor\x7d \x7bactor\x7d") =
        render sly "\x7d\x7bcommand\x7d" ++ "actor\x7d Alice" := by
  have hpieces : pieces sly.resolved "\x7b\x7bcommand\x7dactor\x7d, \x7broom\x7d".toList =
      [.literal [], .value .command, .literal "actor\x7d, ".toList, .literal "\x7broom\x7d".toList,
        .literal []] := by decide +kernel
  refine ⟨hpieces, ?_, ?_, ?_, ?_⟩
  · have hfill := ((rendered_by_pieces "\x7b\x7bcommand\x7dactor\x7d, \x7broom\x7d").2.1 _).2 sly rfl
    rw [hpieces] at hfill
    apply String.toList_injective
    rw [hfill]
    rfl
  · exact (rendered_by_pieces _).2.2.1 _ fun _ => rfl
  · exact not_leavesOpen_concat "\x7d\x7bcommand".toList
  · rw [(rendered_by_pieces "\x7d\x7bcommand\x7d").2.2.2
      (not_leavesOpen_concat "\x7d\x7bcommand".toList)]
    congr 1
    decide +kernel

end WorldTriggers.Template
