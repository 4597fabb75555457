/-!
Finite maps kept as lists in strictly ascending key order, so that a map is determined by its lookups
(`SortedMap.ext_get?`). `get?_insert` and `get?_erase` say what the two updates do to a lookup.
-/

namespace WorldTriggers

structure SortedMap (κ : Type u) (α : Type v) [Ord κ] where
  entries : List (κ × α)
  sorted : entries.Pairwise fun a b => compare a.1 b.1 = .lt

namespace SortedMap

variable {κ : Type u} {α : Type v} {β : Type w} [Ord κ]

def lookup (k : κ) : List (κ × α) → Option α
  | [] => none
  | (l, a) :: rest => if compare k l = .eq then some a else lookup k rest

def insertEntry (k : κ) (a : α) : List (κ × α) → List (κ × α)
  | [] => [(k, a)]
  | (l, b) :: rest =>
    match compare k l with
    | .lt => (k, a) :: (l, b) :: rest
    | .eq => (k, a) :: rest
    | .gt => (l, b) :: insertEntry k a rest

theorem mem_insertEntry {k : κ} {a : α} {e : κ × α} {es : List (κ × α)}
    (h : e ∈ insertEntry k a es) : e = (k, a) ∨ e ∈ es := by
  induction es with
  | nil => simpa [insertEntry] using h
  | cons d rest ih =>
    obtain ⟨l, b⟩ := d
    unfold insertEntry at h
    split at h
    · simpa using h
    · rcases List.mem_cons.mp h with h | h
      · exact .inl h
      · exact .inr (List.mem_cons_of_mem _ h)
    · rcases List.mem_cons.mp h with h | h
      · exact .inr (by simp [h])
      · exact (ih h).imp_right (List.mem_cons_of_mem _)

theorem sorted_insertEntry [Std.TransOrd κ] [Std.LawfulEqOrd κ] {k : κ} {a : α}
    {es : List (κ × α)} (h : es.Pairwise fun a b => compare a.1 b.1 = .lt) :
    (insertEntry k a es).Pairwise fun a b => compare a.1 b.1 = .lt := by
  induction es with
  | nil => simp [insertEntry]
  | cons d rest ih =>
    obtain ⟨l, b⟩ := d
    obtain ⟨hl, hr⟩ := List.pairwise_cons.mp h
    unfold insertEntry
    split
    · rename_i hk
      refine List.pairwise_cons.mpr ⟨fun e he => ?_, h⟩
      rcases List.mem_cons.mp he with rfl | he
      · exact hk
      · exact Std.TransCmp.lt_trans hk (hl e he)
    · rename_i hk
      obtain rfl := Std.LawfulEqCmp.eq_of_compare hk
      exact List.pairwise_cons.mpr ⟨hl, hr⟩
    · rename_i hk
      refine List.pairwise_cons.mpr ⟨fun e he => ?_, ih hr⟩
      rcases mem_insertEntry he with rfl | he
      · exact Std.OrientedCmp.lt_of_gt hk
      · exact hl e he

def empty : SortedMap κ α := ⟨[], .nil⟩

instance : Inhabited (SortedMap κ α) := ⟨empty⟩

instance : EmptyCollection (SortedMap κ α) := ⟨empty⟩

def get? (m : SortedMap κ α) (k : κ) : Option α := lookup k m.entries

def contains (m : SortedMap κ α) (k : κ) : Bool := (m.get? k).isSome

def insert [Std.TransOrd κ] [Std.LawfulEqOrd κ] (m : SortedMap κ α) (k : κ) (a : α) :
    SortedMap κ α :=
  ⟨insertEntry k a m.entries, sorted_insertEntry m.sorted⟩

def filter (p : κ → α → Bool) (m : SortedMap κ α) : SortedMap κ α :=
  ⟨m.entries.filter fun e => p e.1 e.2, m.sorted.filter _⟩

def erase (m : SortedMap κ α) (k : κ) : SortedMap κ α := m.filter fun l _ => compare k l != .eq

def modify [Std.TransOrd κ] [Std.LawfulEqOrd κ] (m : SortedMap κ α) (k : κ) (f : α → α) :
    SortedMap κ α :=
  match m.get? k with
  | some a => m.insert k (f a)
  | none => m

def ofList [Std.TransOrd κ] [Std.LawfulEqOrd κ] (es : List (κ × α)) : SortedMap κ α :=
  es.foldl (fun m e => m.insert e.1 e.2) empty

theorem mem_ofList [Std.TransOrd κ] [Std.LawfulEqOrd κ] {e : κ × α} {es : List (κ × α)}
    (h : e ∈ (ofList es).entries) : e ∈ es := by
  suffices ∀ m : SortedMap κ α,
      e ∈ (es.foldl (fun m e => m.insert e.1 e.2) m).entries → e ∈ m.entries ∨ e ∈ es by
    rcases this _ h with h | h
    · simp [empty] at h
    · exact h
  clear h
  induction es with
  | nil => exact fun m h => .inl h
  | cons d rest ih =>
    intro m h
    rcases ih _ h with h | h
    · rcases mem_insertEntry h with rfl | h
      · exact .inr (by simp)
      · exact .inl h
    · exact .inr (List.mem_cons_of_mem _ h)

def keys (m : SortedMap κ α) : List κ := m.entries.map (·.1)

def values (m : SortedMap κ α) : List α := m.entries.map (·.2)

def size (m : SortedMap κ α) : Nat := m.entries.length

def isEmpty (m : SortedMap κ α) : Bool := m.entries.isEmpty

@[simp] theorem get?_empty (k : κ) : (empty : SortedMap κ α).get? k = none := rfl

theorem lookup_insertEntry [Std.TransOrd κ] [Std.LawfulEqOrd κ] (k l : κ) (a : α)
    (es : List (κ × α)) :
    lookup l (insertEntry k a es) = if compare l k = .eq then some a else lookup l es := by
  induction es with
  | nil => simp [insertEntry, lookup]
  | cons d rest ih =>
    obtain ⟨m, b⟩ := d
    unfold insertEntry
    split
    · simp [lookup]
    · rename_i hk
      obtain rfl := Std.LawfulEqCmp.eq_of_compare hk
      by_cases h : compare l k = .eq <;> simp [lookup, h]
    · rename_i hk
      by_cases hm : compare l m = .eq
      · obtain rfl := Std.LawfulEqCmp.eq_of_compare hm
        have : compare l k ≠ .eq := by
          intro he
          obtain rfl := Std.LawfulEqCmp.eq_of_compare he
          simp at hk
        simp [lookup, this]
      · simp [lookup, hm, ih]

theorem get?_insert [DecidableEq κ] [Std.TransOrd κ] [Std.LawfulEqOrd κ] (m : SortedMap κ α) (k l : κ) (a : α) :
    (m.insert k a).get? l = if l = k then some a else m.get? l := by
  simp [get?, insert, lookup_insertEntry, Std.LawfulEqCmp.compare_eq_iff_eq]

theorem of_get?_insert [DecidableEq κ] [Std.TransOrd κ] [Std.LawfulEqOrd κ] {m : SortedMap κ α} {k l : κ}
    {a b : α} {p : κ → α → Prop} (h : (m.insert k a).get? l = some b) (hnew : p k a)
    (hold : ∀ l b, m.get? l = some b → p l b) : p l b := by
  rw [get?_insert] at h
  split at h
  · cases h
    subst l
    exact hnew
  · exact hold l b h

@[simp] theorem get?_insert_self [Std.TransOrd κ] [Std.LawfulEqOrd κ] (m : SortedMap κ α) (k : κ)
    (a : α) : (m.insert k a).get? k = some a := by
  simp [get?, insert, lookup_insertEntry]

theorem lookup_filter_ne [DecidableEq κ] [Std.LawfulEqOrd κ] (k l : κ) (es : List (κ × α)) :
    lookup l (es.filter fun e => compare k e.1 != .eq) = if l = k then none else lookup l es := by
  induction es with
  | nil => simp [lookup]
  | cons d rest ih =>
    obtain ⟨j, b⟩ := d
    by_cases hj : k = j
    · subst hj
      rw [List.filter_cons_of_neg (by simp), ih]
      by_cases hl : l = k
      · simp [hl]
      · simp [hl, lookup, Std.LawfulEqCmp.compare_eq_iff_eq]
    · rw [List.filter_cons_of_pos (by simp [Std.LawfulEqCmp.compare_eq_iff_eq, hj])]
      by_cases hl : l = j
      · subst hl
        simp [lookup, Ne.symm hj]
      · simp [lookup, Std.LawfulEqCmp.compare_eq_iff_eq, hl, ih]

theorem get?_erase [DecidableEq κ] [Std.LawfulEqOrd κ] (m : SortedMap κ α) (k l : κ) :
    (m.erase k).get? l = if l = k then none else m.get? l :=
  lookup_filter_ne k l m.entries

theorem mem_of_lookup [Std.LawfulEqOrd κ] {k : κ} {a : α} {es : List (κ × α)}
    (h : lookup k es = some a) : (k, a) ∈ es := by
  induction es with
  | nil => simp [lookup] at h
  | cons d rest ih =>
    obtain ⟨l, b⟩ := d
    by_cases hk : compare k l = .eq
    · obtain rfl := Std.LawfulEqCmp.eq_of_compare hk
      simp_all [lookup]
    · exact List.mem_cons_of_mem _ (ih (by simpa [lookup, hk] using h))

theorem lookup_eq_some_iff [Std.TransOrd κ] [Std.LawfulEqOrd κ] {k : κ} {a : α}
    {es : List (κ × α)} (h : es.Pairwise fun a b => compare a.1 b.1 = .lt) :
    lookup k es = some a ↔ (k, a) ∈ es := by
  refine ⟨mem_of_lookup, fun hm => ?_⟩
  induction es with
  | nil => simp at hm
  | cons d rest ih =>
    obtain ⟨l, b⟩ := d
    obtain ⟨hl, hr⟩ := List.pairwise_cons.mp h
    rcases List.mem_cons.mp hm with heq | hm
    · obtain ⟨rfl, rfl⟩ := Prod.mk.inj heq
      simp [lookup]
    · have hlt := hl _ hm
      have hne : compare k l ≠ .eq := by
        intro he
        obtain rfl := Std.LawfulEqCmp.eq_of_compare he
        simp at hlt
      simpa [lookup, hne] using ih hr hm

theorem get?_eq_some_iff [Std.TransOrd κ] [Std.LawfulEqOrd κ] {m : SortedMap κ α} {k : κ} {a : α} :
    m.get? k = some a ↔ (k, a) ∈ m.entries :=
  lookup_eq_some_iff m.sorted

theorem entries_eq_of_mem_iff [Std.TransOrd κ] {es fs : List (κ × α)}
    (he : es.Pairwise fun a b => compare a.1 b.1 = .lt)
    (hf : fs.Pairwise fun a b => compare a.1 b.1 = .lt) (h : ∀ e, e ∈ es ↔ e ∈ fs) : es = fs := by
  induction es generalizing fs with
  | nil =>
    cases fs with
    | nil => rfl
    | cons f fs => simpa using h f
  | cons e es ih =>
    cases fs with
    | nil => simpa using h e
    | cons f fs =>
      obtain ⟨hel, her⟩ := List.pairwise_cons.mp he
      obtain ⟨hfl, hfr⟩ := List.pairwise_cons.mp hf
      have hef : e = f := by
        rcases List.mem_cons.mp ((h e).mp (by simp)) with rfl | hm
        · rfl
        · rcases List.mem_cons.mp ((h f).mpr (by simp)) with rfl | hm'
          · rfl
          · have h1 := Std.OrientedCmp.gt_of_lt (hfl _ hm)
            have h2 := hel _ hm'
            simp [h1] at h2
      subst hef
      congr 1
      refine ih her hfr fun d => ⟨fun hd => ?_, fun hd => ?_⟩
      · rcases List.mem_cons.mp ((h d).mp (List.mem_cons_of_mem _ hd)) with rfl | hm
        · have := hel _ hd
          simp at this
        · exact hm
      · rcases List.mem_cons.mp ((h d).mpr (List.mem_cons_of_mem _ hd)) with rfl | hm
        · have := hfl _ hd
          simp at this
        · exact hm

theorem ext_get? [Std.TransOrd κ] [Std.LawfulEqOrd κ] {m n : SortedMap κ α}
    (h : ∀ k, m.get? k = n.get? k) : m = n := by
  have he : m.entries = n.entries := entries_eq_of_mem_iff m.sorted n.sorted fun ⟨k, a⟩ => by
    rw [← get?_eq_some_iff, ← get?_eq_some_iff, h]
  cases m
  cases n
  simp_all

theorem get?_filter [Std.TransOrd κ] [Std.LawfulEqOrd κ] (m : SortedMap κ α) (p : κ → α → Bool)
    (k : κ) : (m.filter p).get? k = (m.get? k).filter (p k) := by
  apply Option.ext
  intro a
  rw [get?_eq_some_iff, Option.filter_eq_some_iff, get?_eq_some_iff]
  simp [filter]

theorem contains_eq_true_iff {m : SortedMap κ α} {k : κ} :
    m.contains k = true ↔ ∃ a, m.get? k = some a := by
  rw [contains, Option.isSome_iff_exists]

theorem contains_eq_false_iff {m : SortedMap κ α} {k : κ} :
    m.contains k = false ↔ m.get? k = none := by
  simp [contains]

theorem contains_insert_of_get? [DecidableEq κ] [Std.TransOrd κ] [Std.LawfulEqOrd κ] {m : SortedMap κ α}
    {k : κ} {a : α} (h : m.get? k = some a) (b : α) (l : κ) :
    (m.insert k b).contains l = m.contains l := by
  unfold contains
  rw [get?_insert]
  split
  · subst l
    rw [h]
    rfl
  · rfl

theorem get?_insert_of_new [DecidableEq κ] [Std.TransOrd κ] [Std.LawfulEqOrd κ] {m : SortedMap κ α}
    {k l : κ} {a b : α} (h : m.contains k = false) :
    (m.insert k a).get? l = some b ↔ m.get? l = some b ∨ k = l ∧ b = a := by
  rw [get?_insert]
  split
  · subst l
    rw [contains_eq_false_iff.mp h]
    simp [eq_comm]
  · rename_i hne
    simp [Ne.symm hne]

theorem mem_values [Std.TransOrd κ] [Std.LawfulEqOrd κ] {m : SortedMap κ α} {a : α} :
    a ∈ m.values ↔ ∃ k, m.get? k = some a := by
  simp only [values, List.mem_map, get?_eq_some_iff]
  constructor
  · rintro ⟨⟨k, b⟩, h, rfl⟩
    exact ⟨k, h⟩
  · rintro ⟨k, h⟩
    exact ⟨(k, a), h, rfl⟩

theorem nodup_keys [Std.TransOrd κ] (m : SortedMap κ α) : m.keys.Nodup := by
  refine List.pairwise_map.mpr (m.sorted.imp fun h he => ?_)
  simp [he] at h

def map (f : α → β) (m : SortedMap κ α) : SortedMap κ β :=
  ⟨m.entries.map fun e => (e.1, f e.2), List.pairwise_map.mpr m.sorted⟩

@[simp] theorem get?_map (f : α → β) (m : SortedMap κ α) (k : κ) :
    (m.map f).get? k = (m.get? k).map f := by
  suffices ∀ es : List (κ × α),
      lookup k (es.map fun e => (e.1, f e.2)) = (lookup k es).map f from this m.entries
  intro es
  induction es with
  | nil => rfl
  | cons e rest ih =>
    by_cases h : compare k e.1 = .eq
    · simp [lookup, h]
    · simp [lookup, h, ih]

@[simp] theorem size_map (f : α → β) (m : SortedMap κ α) : (m.map f).size = m.size := by
  simp [map, size]

theorem map_insert [DecidableEq κ] [Std.TransOrd κ] [Std.LawfulEqOrd κ] (f : α → β)
    (m : SortedMap κ α) (k : κ) (a : α) : (m.insert k a).map f = (m.map f).insert k (f a) := by
  refine ext_get? fun l => ?_
  simp only [get?_map, get?_insert]
  split <;> rfl

theorem map_erase [DecidableEq κ] [Std.TransOrd κ] [Std.LawfulEqOrd κ] (f : α → β)
    (m : SortedMap κ α) (k : κ) : (m.erase k).map f = (m.map f).erase k := by
  refine ext_get? fun l => ?_
  simp only [get?_map, get?_erase]
  split <;> rfl

theorem map_ofList [DecidableEq κ] [Std.TransOrd κ] [Std.LawfulEqOrd κ] (f : α → β) (es : List (κ × α)) :
    (ofList es).map f = ofList (es.map fun e => (e.1, f e.2)) := by
  suffices ∀ m : SortedMap κ α, (es.foldl (fun m e => m.insert e.1 e.2) m).map f =
      (es.map fun e => (e.1, f e.2)).foldl (fun m e => m.insert e.1 e.2) (m.map f) from this empty
  induction es with
  | nil => exact fun _ => rfl
  | cons e rest ih =>
    intro m
    rw [List.foldl_cons, ih, map_insert]
    rfl

theorem insert_eq_self [DecidableEq κ] [Std.TransOrd κ] [Std.LawfulEqOrd κ] {m : SortedMap κ α}
    {k : κ} {a : α} (h : m.get? k = some a) : m.insert k a = m := by
  refine ext_get? fun l => ?_
  rw [get?_insert]
  split
  · subst l
    exact h.symm
  · rfl

theorem insert_insert [DecidableEq κ] [Std.TransOrd κ] [Std.LawfulEqOrd κ] (m : SortedMap κ α)
    (k : κ) (a b : α) : (m.insert k a).insert k b = m.insert k b := by
  refine ext_get? fun l => ?_
  simp only [get?_insert]
  split <;> rfl

theorem erase_eq_self [DecidableEq κ] [Std.TransOrd κ] [Std.LawfulEqOrd κ] {m : SortedMap κ α}
    {k : κ} (h : m.get? k = none) : m.erase k = m := by
  refine ext_get? fun l => ?_
  rw [get?_erase]
  split
  · simp_all
  · rfl

theorem insert_erase [DecidableEq κ] [Std.TransOrd κ] [Std.LawfulEqOrd κ] (m : SortedMap κ α)
    (k : κ) (a : α) : (m.erase k).insert k a = m.insert k a := by
  refine ext_get? fun l => ?_
  simp only [get?_insert, get?_erase]
  split <;> simp_all

theorem get?_ofList_eq_some_iff [DecidableEq κ] [Std.TransOrd κ] [Std.LawfulEqOrd κ]
    {es : List (κ × α)} {k : κ} {a : α} (h : (es.map Prod.fst).Nodup) :
    (ofList es).get? k = some a ↔ (k, a) ∈ es := by
  suffices ∀ m : SortedMap κ α, (∀ e ∈ es, m.get? e.1 = none) →
      ((es.foldl (fun m e => m.insert e.1 e.2) m).get? k = some a ↔
        m.get? k = some a ∨ (k, a) ∈ es) by
    exact (this empty fun _ _ => rfl).trans (by simp)
  induction es with
  | nil => simp
  | cons e rest ih =>
    obtain ⟨l, b⟩ := e
    obtain ⟨hfresh, hrest⟩ := List.nodup_cons.mp h
    intro m hm
    have hl : m.contains l = false := contains_eq_false_iff.mpr (hm (l, b) (by simp))
    rw [List.foldl_cons, ih hrest, get?_insert_of_new hl, List.mem_cons, or_assoc]
    · simp [eq_comm]
    · intro d hd
      have hne : d.1 ≠ l := fun he => hfresh (he ▸ List.mem_map.mpr ⟨d, hd, rfl⟩)
      rw [get?_insert, if_neg hne]
      exact hm d (List.mem_cons_of_mem _ hd)

theorem get?_ofList_eq_none [Std.TransOrd κ] [Std.LawfulEqOrd κ] {es : List (κ × α)} {k : κ}
    (h : k ∉ es.map Prod.fst) : (ofList es).get? k = none := by
  refine Option.eq_none_iff_forall_ne_some.mpr fun a ha => h ?_
  exact List.mem_map.mpr ⟨(k, a), mem_ofList (get?_eq_some_iff.mp ha), rfl⟩

theorem ofList_entries [DecidableEq κ] [Std.TransOrd κ] [Std.LawfulEqOrd κ] (m : SortedMap κ α) :
    ofList m.entries = m :=
  ext_get? fun k => Option.ext fun a => by
    rw [get?_ofList_eq_some_iff (nodup_keys m), get?_eq_some_iff]

theorem ofList_perm [DecidableEq κ] [Std.TransOrd κ] [Std.LawfulEqOrd κ] {es fs : List (κ × α)}
    (h : (es.map Prod.fst).Nodup) (hperm : es.Perm fs) : ofList es = ofList fs :=
  ext_get? fun k => Option.ext fun a => by
    rw [get?_ofList_eq_some_iff h,
      get?_ofList_eq_some_iff ((hperm.map Prod.fst).nodup_iff.mp h), hperm.mem_iff]

theorem ofList_cons [DecidableEq κ] [Std.TransOrd κ] [Std.LawfulEqOrd κ] {es : List (κ × α)} {k : κ}
    {a : α} (h : (((k, a) :: es).map Prod.fst).Nodup) :
    ofList ((k, a) :: es) = (ofList es).insert k a := by
  obtain ⟨hfresh, hrest⟩ := List.nodup_cons.mp h
  refine ext_get? fun l => Option.ext fun b => ?_
  rw [get?_ofList_eq_some_iff h,
    get?_insert_of_new (contains_eq_false_iff.mpr (get?_ofList_eq_none hfresh)),
    get?_ofList_eq_some_iff hrest, List.mem_cons, Prod.mk.injEq, or_comm, eq_comm]

theorem get?_ofList [DecidableEq κ] [Std.TransOrd κ] [Std.LawfulEqOrd κ] {es : List (κ × α)}
    (h : (es.map Prod.fst).Nodup) (k : κ) : (ofList es).get? k = es.lookup k := by
  induction es with
  | nil => rfl
  | cons e rest ih =>
    rw [ofList_cons h, get?_insert, ih (List.nodup_cons.mp h).2, List.lookup_cons]
    by_cases hk : k = e.1
    · simp [hk]
    · simp [hk, beq_false_of_ne hk]

theorem exists_entries_insert [Std.TransOrd κ] [Std.LawfulEqOrd κ] {m : SortedMap κ α} {k : κ}
    (h : m.get? k = none) :
    ∃ before after, m.entries = before ++ after ∧
      ∀ a, (m.insert k a).entries = before ++ (k, a) :: after := by
  suffices ∀ es : List (κ × α), lookup k es = none →
      ∃ before after, es = before ++ after ∧ ∀ a, insertEntry k a es = before ++ (k, a) :: after from
    this m.entries h
  intro es hes
  induction es with
  | nil => exact ⟨[], [], rfl, fun _ => rfl⟩
  | cons e rest ih =>
    obtain ⟨l, b⟩ := e
    cases hk : compare k l with
    | lt => exact ⟨[], (l, b) :: rest, rfl, fun a => by simp [insertEntry, hk]⟩
    | eq => simp [lookup, hk] at hes
    | gt =>
      obtain ⟨before, after, heq, hins⟩ := ih (by simpa [lookup, hk] using hes)
      exact ⟨(l, b) :: before, after, by rw [heq]; rfl, fun a => by simp [insertEntry, hk, hins]⟩

theorem lookup_entries [DecidableEq κ] [Std.LawfulEqOrd κ] (m : SortedMap κ α) (k : κ) :
    m.entries.lookup k = m.get? k := by
  suffices ∀ es : List (κ × α), es.lookup k = lookup k es from this m.entries
  intro es
  induction es with
  | nil => rfl
  | cons e rest ih =>
    obtain ⟨l, b⟩ := e
    by_cases h : k = l
    · simp [lookup, h]
    · have hne : compare k l ≠ .eq := fun he => h (Std.LawfulEqCmp.eq_of_compare he)
      rw [List.lookup_cons, beq_false_of_ne h, lookup, if_neg hne]
      exact ih

end SortedMap

end WorldTriggers
