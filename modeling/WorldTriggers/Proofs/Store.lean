import Mathlib.Tactic
import WorldTriggers.Proofs.Scope
import WorldTriggers.Store

namespace WorldTriggers

namespace Record

structure Storable (r : Record) : Prop where
  named : r.scope.id ≠ ""
  fits : r.fireCount ≤ maxCount

instance (r : Record) : Decidable r.Storable :=
  decidable_of_iff (r.scope.id ≠ "" ∧ r.fireCount ≤ maxCount)
    ⟨fun ⟨hn, hf⟩ => ⟨hn, hf⟩, fun ⟨hn, hf⟩ => ⟨hn, hf⟩⟩

def Precedes (a b : Record) : Prop :=
  a.scope.text < b.scope.text ∨ a.scope.text = b.scope.text ∧ a.rule < b.rule

theorem precedes_iff {a b : Record} :
    a.Precedes b ↔ compare (Row.ofRecord a).1 (Row.ofRecord b).1 = .lt := by
  have hlt {s t : String} : compare s t = .lt ↔ s < t := compareOfLessAndEq_eq_lt
  change _ ↔ (compare a.scope.text b.scope.text).then (compare a.rule b.rule) = .lt
  rw [Ordering.then_eq_lt, hlt, hlt, Std.LawfulEqCmp.compare_eq_iff_eq]
  rfl

theorem key_eq_iff {a b : Record} : (Row.ofRecord a).1 = (Row.ofRecord b).1 ↔ a.ref = b.ref := by
  simp [Row.ofRecord, ref, Scope.text_injective.eq_iff]

end Record

theorem bind_eq_error {x : Except ε α} {f : α → Except ε β} {c : ε} :
    (x >>= f) = .error c ↔ x = .error c ∨ ∃ a, x = .ok a ∧ f a = .error c := by
  cases x <;> simp [bind, Except.bind]

theorem Row.toRecord_ofRecord {r : Record} (h : r.Storable) :
    toRecord (ofRecord r).1 (ofRecord r).2 = .ok r := by
  have hcount : ¬(Record.maxCount : Int) < r.fireCount := by
    have hfits := h.fits
    omega
  have hscope := Scope.ofText?_eq_some_iff.mpr ⟨rfl, h.named⟩
  simp [toRecord, ofRecord, hscope, hcount]

theorem Row.toRecord_of_nameless {r : Record} (h : r.scope.id = "") :
    toRecord (ofRecord r).1 (ofRecord r).2 = .error ⟨(ofRecord r).1, .badScope⟩ := by
  have hscope : Scope.ofText? r.scope.text = none := by
    rw [Option.eq_none_iff_forall_ne_some]
    intro s hs
    obtain ⟨htext, hid⟩ := Scope.ofText?_eq_some_iff.mp hs
    exact hid (Scope.text_injective htext ▸ h)
  simp [toRecord, ofRecord, hscope]

theorem Row.toRecord_eq_ok_iff {key : RowKey} {row : Row} {r : Record} :
    toRecord key row = .ok r ↔ ofRecord r = (key, row) ∧ r.Storable := by
  constructor
  · intro h
    unfold toRecord at h
    split at h
    · cases h
    · rename_i scope hscope
      obtain ⟨htext, hid⟩ := Scope.ofText?_eq_some_iff.mp hscope
      split at h
      · cases h
      · split at h
        · cases h
        · cases h
          have hcount : (row.fireCount.toNat : Int) = row.fireCount := Int.toNat_of_nonneg (by omega)
          have hfits : row.fireCount.toNat ≤ Record.maxCount := by omega
          refine ⟨?_, hid, hfits⟩
          simp only [ofRecord, hcount, ← htext]
  · rintro ⟨heq, hr⟩
    have hback := toRecord_ofRecord hr
    rwa [heq] at hback

theorem Row.ofRecord_injective : Function.Injective ofRecord := by
  intro r q h
  have hscope : r.scope = q.scope := Scope.text_injective (congrArg (·.1.scope) h)
  cases r
  cases q
  simp_all [ofRecord]

inductive Write where
  | saved (r : Record)
  | deleted (scope : Scope)

namespace Write

def Concerns (ref : RuleRef) : Write → Prop
  | saved r => r.ref = ref
  | deleted scope => scope = ref.scope

/-- A record is the last one that was saved of its rule, and its scope was not deleted since. -/
def Leaves (ws : List Write) (r : Record) : Prop :=
  ∃ before after, ws = before ++ saved r :: after ∧ ∀ w ∈ after, ¬w.Concerns r.ref

theorem leaves_concat {ws : List Write} {w : Write} {r : Record} :
    Leaves (ws ++ [w]) r ↔ w = saved r ∨ Leaves ws r ∧ ¬w.Concerns r.ref := by
  constructor
  · rintro ⟨before, after, hws, hafter⟩
    rcases List.eq_nil_or_concat' after with rfl | ⟨after, last, rfl⟩
    · exact .inl (List.singleton_inj.mp (List.append_inj' hws rfl).2)
    · rw [← List.cons_append, ← List.append_assoc] at hws
      obtain ⟨rfl, hlast⟩ := List.append_inj' hws rfl
      obtain rfl := List.singleton_inj.mp hlast
      obtain ⟨hafter, hw⟩ := List.forall_mem_append.mp hafter
      exact .inr ⟨⟨before, after, rfl, hafter⟩, hw w (List.mem_singleton_self w)⟩
  · rintro (rfl | ⟨⟨before, after, rfl, hafter⟩, hw⟩)
    · exact ⟨ws, [], rfl, List.forall_mem_nil _⟩
    · refine ⟨before, after ++ [w], by simp, List.forall_mem_append.mpr ⟨hafter, ?_⟩⟩
      simpa using hw

end Write

inductive StoreCall where
  | save (records : List Record)
  | deleteScope (scope : Scope)

def StoreCall.writes : StoreCall → List Write
  | save records => records.map .saved
  | deleteScope scope => [.deleted scope]

namespace Store

def call (s : Store) : StoreCall → Store
  | .save records => s.save records
  | .deleteScope scope => (s.deleteScope scope).2

def ofCalls (cs : List StoreCall) : Store := cs.foldl call {}

def write (s : Store) : Write → Store
  | .saved r => s.put r
  | .deleted scope => (s.deleteScope scope).2

theorem ofCalls_eq (cs : List StoreCall) :
    ofCalls cs = (cs.flatMap StoreCall.writes).foldl write {} := by
  have hcall : call = fun s c => c.writes.foldl write s := by
    funext s c
    cases c with
    | save records =>
      rw [StoreCall.writes, List.foldl_map]
      rfl
    | deleteScope scope => rfl
  rw [ofCalls, List.foldl_flatMap, hcall]

theorem isOf_ofRecord (scope : Scope) (r : Record) :
    isOf scope (Row.ofRecord r).1 = decide (r.scope = scope) := by
  rw [Bool.eq_iff_iff]
  simp [isOf, Row.ofRecord, Scope.text_injective.eq_iff]

section Holds

variable {s : Store} {p : Record → Prop} {r : Record}

structure Holds (s : Store) (p : Record → Prop) : Prop where
  storable : ∀ r, p r → r.Storable
  rows : ∀ key row, s.rows.get? key = some row ↔ ∃ r, p r ∧ Row.ofRecord r = (key, row)

theorem holds_empty : Holds {} fun _ => False :=
  ⟨fun _ h => h.elim, fun key row => by simp [SortedMap.get?_empty]⟩

def Has (s : Store) (p : Record → Prop) : Prop :=
  ∀ key row, s.rows.get? key = some row ↔ ∃ r, p r ∧ Row.ofRecord r = (key, row)

theorem Has.put (h : s.Has p) (r : Record) : (s.put r).Has fun q => q = r ∨ p q ∧ q.ref ≠ r.ref := by
  intro key row
  change (s.rows.insert (Row.ofRecord r).1 (Row.ofRecord r).2).get? key = some row ↔ _
  rw [SortedMap.get?_insert]
  split
  · subst key
    constructor
    · intro hrow
      exact ⟨r, .inl rfl, by rw [← Option.some.inj hrow]⟩
    · rintro ⟨q, rfl | ⟨-, hother⟩, hrow⟩
      · rw [hrow]
      · have hkey : (Row.ofRecord q).1 = (Row.ofRecord r).1 := by rw [hrow]
        exact absurd (Record.key_eq_iff.mp hkey) hother
  · rename_i hkey
    rw [h]
    constructor
    · rintro ⟨q, hq, hrow⟩
      refine ⟨q, .inr ⟨hq, fun hsame => hkey ?_⟩, hrow⟩
      rw [← Record.key_eq_iff.mpr hsame, hrow]
    · rintro ⟨q, rfl | ⟨hq, -⟩, hrow⟩
      · exact absurd (congrArg Prod.fst hrow).symm hkey
      · exact ⟨q, hq, hrow⟩

theorem Has.save {rs : List Record} (h : s.Has p) (hnodup : (rs.map Record.ref).Nodup) :
    (s.save rs).Has fun q => q ∈ rs ∨ p q ∧ q.ref ∉ rs.map Record.ref := by
  induction rs generalizing s p with
  | nil => simpa [Store.save] using h
  | cons r rest ih =>
    obtain ⟨hr, hrest⟩ := List.nodup_cons.mp hnodup
    have hsaved := ih (h.put r) hrest
    have hsame : (fun q => q ∈ r :: rest ∨ p q ∧ q.ref ∉ (r :: rest).map Record.ref) =
        fun q => q ∈ rest ∨ (q = r ∨ p q ∧ q.ref ≠ r.ref) ∧ q.ref ∉ rest.map Record.ref := by
      funext q
      rw [List.mem_cons, List.map_cons, List.mem_cons, not_or, eq_iff_iff]
      constructor
      · rintro ((rfl | hq) | ⟨hq, hne, hout⟩)
        · exact .inr ⟨.inl rfl, hr⟩
        · exact .inl hq
        · exact .inr ⟨.inr ⟨hq, hne⟩, hout⟩
      · rintro (hq | ⟨rfl | ⟨hq, hne⟩, hout⟩)
        · exact .inl (.inr hq)
        · exact .inl (.inl rfl)
        · exact .inr ⟨hq, hne, hout⟩
    rw [hsame]
    exact hsaved

theorem Holds.put (h : s.Holds p) (hr : r.Storable) :
    (s.put r).Holds fun q => q = r ∨ p q ∧ q.ref ≠ r.ref := by
  refine ⟨?_, Has.put h.rows r⟩
  rintro q (rfl | ⟨hq, -⟩)
  · exact hr
  · exact h.storable q hq

theorem Holds.deleteScope (h : s.Holds p) (scope : Scope) :
    (s.deleteScope scope).2.Holds fun q => p q ∧ q.scope ≠ scope := by
  refine ⟨fun q hq => h.storable q hq.1, fun key row => ?_⟩
  change (s.rows.filter fun key _ => !isOf scope key).get? key = some row ↔ _
  rw [SortedMap.get?_filter, Option.filter_eq_some_iff, h.rows]
  have hof (q : Record) (hrow : Row.ofRecord q = (key, row)) :
      isOf scope key = decide (q.scope = scope) := by rw [← isOf_ofRecord, hrow]
  constructor
  · rintro ⟨⟨q, hq, hrow⟩, hkept⟩
    rw [hof q hrow] at hkept
    exact ⟨q, ⟨hq, by simpa using hkept⟩, hrow⟩
  · rintro ⟨q, ⟨hq, hscope⟩, hrow⟩
    rw [hof q hrow]
    exact ⟨⟨q, hq, hrow⟩, by simpa using hscope⟩

theorem holds_writes {ws : List Write} (h : ∀ r, .saved r ∈ ws → r.Storable) :
    (ws.foldl write {}).Holds (Write.Leaves ws) := by
  induction ws using List.reverseRecOn with
  | nil =>
    have hnone : Write.Leaves [] = fun _ => False := by
      funext r
      simp [Write.Leaves]
    rw [hnone]
    exact holds_empty
  | append_singleton ws w ih =>
    have hbefore := ih fun r hr => h r (List.mem_append_left _ hr)
    have hleaves : Write.Leaves (ws ++ [w]) =
        fun q => w = .saved q ∨ Write.Leaves ws q ∧ ¬w.Concerns q.ref :=
      funext fun q => propext Write.leaves_concat
    rw [hleaves, List.foldl_append]
    cases w with
    | saved r =>
      have hput := hbefore.put (h r (by simp))
      simpa [write, Write.Concerns, eq_comm] using hput
    | deleted scope =>
      have hdelete := hbefore.deleteScope scope
      simpa [write, Write.Concerns, RuleRef.scope, Record.ref, eq_comm] using hdelete

end Holds

structure Lists (s : Store) (rs : List Record) : Prop where
  entries : s.rows.entries = rs.map Row.ofRecord
  storable : ∀ r ∈ rs, r.Storable

section Lists

variable {s : Store} {p : Record → Prop} {rs : List Record}

theorem Holds.exists_lists (h : s.Holds p) : ∃ rs, s.Lists rs ∧ ∀ r, r ∈ rs ↔ p r := by
  have hrange : s.rows.entries ∈ Set.range (List.map fun r : { r // p r } => Row.ofRecord r) := by
    rw [Set.range_list_map]
    rintro ⟨key, row⟩ he
    obtain ⟨r, hr, hrow⟩ := (h.rows key row).mp (SortedMap.get?_eq_some_iff.mpr he)
    exact ⟨⟨r, hr⟩, hrow⟩
  obtain ⟨rs, hrs⟩ := hrange
  have hentries : s.rows.entries = (rs.map Subtype.val).map Row.ofRecord := by
    rw [List.map_map, ← hrs]
    rfl
  have hmem : ∀ r ∈ rs.map Subtype.val, p r := by
    intro r hr
    obtain ⟨q, -, rfl⟩ := List.mem_map.mp hr
    exact q.2
  refine ⟨rs.map Subtype.val, ⟨hentries, fun r hr => h.storable r (hmem r hr)⟩,
    fun r => ⟨hmem r, fun hr => ?_⟩⟩
  -- The row of such a record is there, and it is that of no other.
  have hrow : Row.ofRecord r ∈ s.rows.entries :=
    SortedMap.get?_eq_some_iff.mp ((h.rows (Row.ofRecord r).1 (Row.ofRecord r).2).mpr ⟨r, hr, rfl⟩)
  rw [hentries] at hrow
  obtain ⟨q, hq, hqr⟩ := List.mem_map.mp hrow
  have hboth := Row.toRecord_ofRecord (h.storable q (hmem q hq))
  rw [hqr, Row.toRecord_ofRecord (h.storable r hr)] at hboth
  obtain rfl := Except.ok.inj hboth
  exact hq

theorem Lists.pairwise (h : s.Lists rs) : rs.Pairwise Record.Precedes := by
  have hsorted := s.rows.sorted
  rw [h.entries, List.pairwise_map] at hsorted
  exact hsorted.imp Record.precedes_iff.mpr

theorem decodeRows_map (h : ∀ r ∈ rs, r.Storable) : decodeRows (rs.map Row.ofRecord) = .ok rs := by
  induction rs with
  | nil => rfl
  | cons r rs ih =>
    obtain ⟨hr, hrs⟩ := List.forall_mem_cons.mp h
    have hfirst := Row.toRecord_ofRecord hr
    have hrest := ih hrs
    unfold decodeRows at hrest ⊢
    rw [List.map_cons, List.mapM_cons, hrest]
    dsimp only
    rw [hfirst]
    rfl

theorem Lists.loadAll (h : s.Lists rs) : s.loadAll = .ok rs := by
  rw [Store.loadAll, h.entries, decodeRows_map h.storable]

theorem decodeRows_eq_ok_iff {rows : List (RowKey × Row)} :
    decodeRows rows = .ok rs ↔ rows = rs.map Row.ofRecord ∧ ∀ r ∈ rs, r.Storable := by
  constructor
  · intro h
    induction rows generalizing rs with
    | nil =>
      cases h
      simp
    | cons e rows ih =>
      unfold decodeRows at h
      rw [List.mapM_cons] at h
      obtain ⟨r, hr, h⟩ := bind_eq_ok.mp h
      obtain ⟨rest, hrest, h⟩ := bind_eq_ok.mp h
      cases h
      obtain ⟨hrow, hr⟩ := Row.toRecord_eq_ok_iff.mp hr
      obtain ⟨rfl, hall⟩ := ih hrest
      exact ⟨by rw [List.map_cons, hrow], List.forall_mem_cons.mpr ⟨hr, hall⟩⟩
  · rintro ⟨rfl, h⟩
    exact decodeRows_map h

theorem exists_mem_of_decodeRows {rows : List (RowKey × Row)} {c : CorruptRow}
    (h : decodeRows rows = .error c) : ∃ e ∈ rows, Row.toRecord e.1 e.2 = .error c := by
  induction rows with
  | nil => cases h
  | cons e rows ih =>
    unfold decodeRows at h ih
    rw [List.mapM_cons] at h
    rcases bind_eq_error.mp h with hfirst | ⟨r, -, h⟩
    · exact ⟨e, List.mem_cons_self, hfirst⟩
    · rcases bind_eq_error.mp h with hrest | ⟨rest, -, h⟩
      · obtain ⟨q, hq, hfault⟩ := ih hrest
        exact ⟨q, List.mem_cons_of_mem _ hq, hfault⟩
      · cases h

theorem loadAll_eq_ok_iff : s.loadAll = .ok rs ↔ s.Lists rs := by
  unfold Store.loadAll
  rw [decodeRows_eq_ok_iff]
  exact ⟨fun ⟨he, hr⟩ => ⟨he, hr⟩, fun ⟨he, hr⟩ => ⟨he, hr⟩⟩

theorem Lists.has (h : s.Lists rs) : s.Has (· ∈ rs) := by
  intro key row
  rw [SortedMap.get?_eq_some_iff, h.entries, List.mem_map]

theorem mem_iff_of_loadAll (hload : s.loadAll = .ok rs) (h : s.Has p) (r : Record) :
    r ∈ rs ↔ p r := by
  have hlists := loadAll_eq_ok_iff.mp hload
  have hrow := h (Row.ofRecord r).1 (Row.ofRecord r).2
  rw [SortedMap.get?_eq_some_iff, hlists.entries,
    List.mem_map_of_injective Row.ofRecord_injective] at hrow
  simpa [Row.ofRecord_injective.eq_iff] using hrow

theorem exists_loadAll_iff (h : s.Has p) : (∃ rs, s.loadAll = .ok rs) ↔ ∀ r, p r → r.Storable := by
  constructor
  · rintro ⟨rs, hload⟩ r hr
    exact (loadAll_eq_ok_iff.mp hload).storable r ((mem_iff_of_loadAll hload h r).mpr hr)
  · intro hstorable
    obtain ⟨rs, hlists, -⟩ := Holds.exists_lists ⟨hstorable, h⟩
    exact ⟨rs, hlists.loadAll⟩

theorem exists_of_loadAll_error {c : CorruptRow} (hload : s.loadAll = .error c) (h : s.Has p)
    (hfits : ∀ r, p r → r.fireCount ≤ Record.maxCount) :
    ∃ r, p r ∧ r.scope.id = "" ∧ c = ⟨(Row.ofRecord r).1, .badScope⟩ := by
  obtain ⟨⟨key, row⟩, he, hfault⟩ := exists_mem_of_decodeRows hload
  obtain ⟨r, hr, hrow⟩ := (h key row).mp (SortedMap.get?_eq_some_iff.mpr he)
  have hread : Row.toRecord (Row.ofRecord r).1 (Row.ofRecord r).2 = .error c := by rw [hrow, hfault]
  by_cases hid : r.scope.id = ""
  · rw [Row.toRecord_of_nameless hid] at hread
    exact ⟨r, hr, hid, (Except.error.inj hread).symm⟩
  · rw [Row.toRecord_ofRecord ⟨hid, hfits r hr⟩] at hread
    cases hread

theorem Lists.filter_isOf (h : s.Lists rs) (scope : Scope) :
    (s.rows.entries.filter fun e => isOf scope e.1) =
      (rs.filter (·.scope = scope)).map Row.ofRecord := by
  rw [h.entries, List.filter_map]
  congr 1
  exact List.filter_congr fun r _ => isOf_ofRecord scope r

theorem Lists.loadScope (h : s.Lists rs) (scope : Scope) :
    s.loadScope scope = .ok (rs.filter (·.scope = scope)) := by
  rw [Store.loadScope, h.filter_isOf, decodeRows_map]
  exact fun r hr => h.storable r (List.mem_of_mem_filter hr)

theorem Lists.deleteScope (h : s.Lists rs) (scope : Scope) :
    (s.deleteScope scope).1 = (rs.filter (·.scope = scope)).length ∧
      (s.deleteScope scope).2.Lists (rs.filter (·.scope ≠ scope)) := by
  refine ⟨?_, ?_, fun r hr => h.storable r (List.mem_of_mem_filter hr)⟩
  · rw [Store.deleteScope, h.filter_isOf, List.length_map]
  · change (s.rows.entries.filter fun e => !isOf scope e.1) = _
    rw [h.entries, List.filter_map]
    congr 1
    refine List.filter_congr fun r _ => ?_
    rw [Function.comp_apply, isOf_ofRecord]
    simp

end Lists

/-- After any history of saves and deletes the table holds the last record saved of each rule whose scope
was not deleted since, one row for a rule, and reads all of them back; one scope is read back, or deleted
and counted, by itself. -/
theorem loads_ofCalls {cs : List StoreCall}
    (h : ∀ r, .saved r ∈ cs.flatMap StoreCall.writes → r.Storable) :
    ∃ rs, (ofCalls cs).loadAll = .ok rs ∧
      (∀ r, r ∈ rs ↔ Write.Leaves (cs.flatMap StoreCall.writes) r) ∧ rs.Pairwise Record.Precedes ∧
      ∀ scope, (ofCalls cs).loadScope scope = .ok (rs.filter (·.scope = scope)) ∧
        ((ofCalls cs).deleteScope scope).1 = (rs.filter (·.scope = scope)).length ∧
        ((ofCalls cs).deleteScope scope).2.loadAll = .ok (rs.filter (·.scope ≠ scope)) := by
  have hholds := holds_writes h
  rw [← ofCalls_eq] at hholds
  obtain ⟨rs, hrs, hmem⟩ := hholds.exists_lists
  refine ⟨rs, hrs.loadAll, hmem, hrs.pairwise, fun scope => ⟨hrs.loadScope scope, ?_⟩⟩
  obtain ⟨hcount, hrest⟩ := hrs.deleteScope scope
  exact ⟨hcount, hrest.loadAll⟩

def shelving : List StoreCall :=
  [.save [⟨"gong", .area "mill", 1, none⟩, ⟨"door", .room "area:mill", 3, none⟩,
      ⟨"door", .room "area:mill", Record.maxCount, some ⟨60, 500000000⟩⟩],
    .deleteScope (.area "mill"), .save [⟨"bell", .area "mill", 2, none⟩]]

theorem loads_shelving : ∃ rs, (ofCalls shelving).loadAll = .ok rs ∧
    rs = [⟨"bell", .area "mill", 2, none⟩,
      ⟨"door", .room "area:mill", Record.maxCount, some ⟨60, 500000000⟩⟩] ∧
    (∀ r, r ∈ rs ↔ Write.Leaves (shelving.flatMap StoreCall.writes) r) ∧
    ((ofCalls shelving).deleteScope (.area "mill")).1 = 1 := by
  have hstorable : ∀ r, .saved r ∈ shelving.flatMap StoreCall.writes → r.Storable := by
    intro r hr
    simp only [shelving, List.flatMap_cons, List.flatMap_nil, StoreCall.writes, List.map_cons,
      List.map_nil, List.mem_append, List.mem_cons, List.not_mem_nil, or_false, false_or,
      Write.saved.injEq, reduceCtorEq] at hr
    rcases hr with (rfl | rfl | rfl) | rfl <;> decide
  obtain ⟨rs, hload, hmem, -, hscope⟩ := loads_ofCalls hstorable
  have hrows : (ofCalls shelving).loadAll = .ok [⟨"bell", .area "mill", 2, none⟩,
      ⟨"door", .room "area:mill", Record.maxCount, some ⟨60, 500000000⟩⟩] := by decide +kernel
  obtain rfl := Except.ok.inj (hload.symm.trans hrows)
  exact ⟨_, hload, rfl, hmem, (hscope (.area "mill")).2.1⟩

end Store

end WorldTriggers
