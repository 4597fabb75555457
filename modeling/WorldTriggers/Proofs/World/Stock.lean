import WorldTriggers.Proofs.World.Consistency
import WorldTriggers.Proofs.World.InPlace

namespace WorldTriggers

def Stacks.Positive (s : Stacks) : Prop := ∀ item n, s.get? item = some n → 0 < n

theorem Stacks.positive_iff {s : Stacks} : s.Positive ↔ ∀ e ∈ s.entries, 0 < e.2 :=
  ⟨fun h e he => h e.1 e.2 (SortedMap.get?_eq_some_iff.mpr he),
    fun h item n hn => h (item, n) (SortedMap.get?_eq_some_iff.mp hn)⟩

instance (s : Stacks) : Decidable s.Positive := decidable_of_iff _ Stacks.positive_iff.symm

@[ext]
structure Stock where
  items : Stacks
  worn : NameSet := .empty

def Room.stock (r : Room) : Stock := { items := r.items }

def Actor.stock (a : Actor) : Stock := { items := a.inventory, worn := a.equipped }

namespace Stock

def count (s : Stock) (item : TemplateId) : Nat := s.items.count item

def add (s : Stock) (item : TemplateId) (quantity : Nat) : Stock :=
  { s with items := s.items.insert item (s.count item + quantity) }

def remove (s : Stock) (item : TemplateId) (quantity : Nat) : Stock where
  items := s.items.put item (s.count item - quantity)
  worn := if s.count item ≤ quantity then s.worn.erase item else s.worn

def Positive (s : Stock) : Prop := s.items.Positive

def Carried (s : Stock) : Prop := ∀ item, s.worn.contains item = true → 0 < s.count item

variable {s : Stock} {item : TemplateId} {quantity : Nat}

theorem count_of_get? {n : Nat} (h : s.items.get? item = some n) : s.count item = n := by
  rw [count, Stacks.count, h]
  rfl

theorem count_add (s : Stock) (item : TemplateId) (quantity : Nat) (k : TemplateId) :
    (s.add item quantity).count k = if k = item then s.count item + quantity else s.count k := by
  unfold add
  split
  · subst k
    exact Stacks.count_insert _ _ _
  · rw [count, Stacks.count, SortedMap.get?_insert, if_neg ‹_›]
    rfl

theorem count_remove (s : Stock) (item : TemplateId) (quantity : Nat) (k : TemplateId) :
    (s.remove item quantity).count k = if k = item then s.count item - quantity else s.count k := by
  split
  · subst k
    exact Stacks.count_put _ _ _
  · exact Stacks.count_put_of_ne ‹_› _ _

theorem positive_add_iff (h : s.Positive) :
    (s.add item quantity).Positive ↔ ¬ (quantity = 0 ∧ s.count item = 0) := by
  constructor
  · rintro hadd ⟨rfl, hnone⟩
    have hzero := hadd item _ (SortedMap.get?_insert_self _ _ _)
    omega
  · intro hsome k n hn
    exact SortedMap.of_get?_insert (p := fun _ n => 0 < n) hn (by omega) h

theorem Positive.remove (h : s.Positive) : (s.remove item quantity).Positive := by
  intro k n hn
  change (s.items.put item _).get? k = _ at hn
  unfold Stacks.put at hn
  split at hn
  · rw [SortedMap.get?_erase] at hn
    split at hn
    · cases hn
    · exact h k n hn
  · exact SortedMap.of_get?_insert (p := fun _ n => 0 < n) hn (by omega) h

theorem Carried.add (h : s.Carried) : (s.add item quantity).Carried := by
  intro k hk
  have hcount := h k hk
  rw [count_add]
  split
  · subst k
    omega
  · exact hcount

theorem Carried.remove (h : s.Carried) : (s.remove item quantity).Carried := by
  intro k hk
  change (if s.count item ≤ quantity then s.worn.erase item else s.worn).contains k = true at hk
  rw [count_remove]
  split at hk
  · rw [SortedMap.contains, SortedMap.get?_erase] at hk
    by_cases hitem : k = item
    · simp [hitem] at hk
    · rw [if_neg hitem] at hk ⊢
      exact h k hk
  · have hcount := h k hk
    split
    · omega
    · exact hcount

end Stock

inductive Holder where
  | room (room : RoomId)
  | actor (actor : ActorId)
  deriving DecidableEq, Repr

/-- An item is added to what a holder has, or as many as there are are removed from it, or just so many
are taken from it. -/
inductive Dealing where
  | add (holder : Holder) (item : TemplateId) (quantity : Nat)
  | remove (holder : Holder) (item : TemplateId) (quantity : Nat)
  | take (holder : Holder) (item : TemplateId) (quantity : Nat)
  deriving DecidableEq, Repr

namespace Dealing

def holder : Dealing → Holder
  | add holder .. => holder
  | remove holder .. => holder
  | take holder .. => holder

def item : Dealing → TemplateId
  | add _ item _ => item
  | remove _ item _ => item
  | take _ item _ => item

def Possible : Dealing → Stock → Prop
  | add _ item quantity, s => s.count item + quantity ≤ maxStack
  | remove .., _ => True
  | take _ item quantity, s => quantity ≤ s.count item

def result : Dealing → Stock → Stock
  | add _ item quantity, s => s.add item quantity
  | remove _ item quantity, s => s.remove item quantity
  | take _ item quantity, s => s.remove item quantity

theorem count_result_of_ne {d : Dealing} {k : TemplateId} (h : k ≠ d.item) (s : Stock) :
    (d.result s).count k = s.count k := by
  cases d with
  | add => exact (Stock.count_add ..).trans (if_neg h)
  | remove | take => exact (Stock.count_remove ..).trans (if_neg h)

end Dealing

namespace World

def stock? (w : World) : Holder → Option Stock
  | .room room => (w.rooms.get? room).map Room.stock
  | .actor actor => (w.actors.get? actor).map Actor.stock

def held (w : World) : Holder → TemplateId → Nat
  | .room room => w.roomItemCount room
  | .actor actor => w.actorItemCount actor

def dealt (w : World) : Dealing → Int
  | .add _ _ quantity => quantity
  | .remove h item quantity => -(min quantity (w.held h item) : Nat)
  | .take _ _ quantity => -quantity

def Restock (w w' : World) : Option Dealing → Prop
  | none => w'.stock? = w.stock?
  | some d => ∃ s, w.stock? d.holder = some s ∧ d.Possible s ∧
    w'.stock? = Function.update w.stock? d.holder (some (d.result s))

def Stocked (w : World) : Prop := ∀ h s, w.stock? h = some s → s.Positive

def Carried (w : World) : Prop := ∀ h s, w.stock? h = some s → s.Carried

def Change.dealing? : Change → Option Dealing
  | addRoomItems room item quantity => some (.add (.room room) item quantity)
  | removeRoomItems room item quantity => some (.remove (.room room) item quantity)
  | giveItem actor item quantity => some (.add (.actor actor) item quantity)
  | takeItem actor item quantity => some (.take (.actor actor) item quantity)
  | _ => none

variable {w w' : World} {room : RoomId} {actor : ActorId} {r r' : Room} {a a' : Actor}

theorem held_eq (w : World) (h : Holder) (item : TemplateId) :
    w.held h item = ((w.stock? h).map (·.count item)).getD 0 := by
  cases h with
  | room room =>
    unfold held stock? roomItemCount
    dsimp only
    cases w.rooms.get? room <;> rfl
  | actor actor =>
    unfold held stock? actorItemCount
    dsimp only
    cases w.actors.get? actor <;> rfl

section Restock

theorem stock?_putRoom (w : World) (room : RoomId) (r : Room) :
    (w.putRoom room r).stock? = Function.update w.stock? (.room room) (some r.stock) := by
  funext h
  cases h with
  | room k =>
    by_cases hk : k = room <;> simp [stock?, putRoom, SortedMap.get?_insert, hk]
  | actor k => rfl

theorem stock?_putActor (w : World) (actor : ActorId) (a : Actor) :
    (w.putActor actor a).stock? = Function.update w.stock? (.actor actor) (some a.stock) := by
  funext h
  cases h with
  | room k => rfl
  | actor k =>
    by_cases hk : k = actor <;> simp [stock?, putActor, SortedMap.get?_insert, hk]

theorem stock?_of_findRoom (hr : w.findRoom room = .ok r) : w.stock? (.room room) = some r.stock := by
  rw [stock?, findRoom_eq_ok.mp hr]
  rfl

theorem stock?_of_findActor (ha : w.findActor actor = .ok a) : w.stock? (.actor actor) = some a.stock := by
  rw [stock?, findActor_eq_ok.mp ha]
  rfl

theorem restock_room (hr : w.findRoom room = .ok r) (h : r'.stock = r.stock) :
    Restock w (w.putRoom room r') none := by
  rw [Restock, stock?_putRoom, h, Function.update_eq_self_iff, stock?_of_findRoom hr]

theorem restock_actor (ha : w.findActor actor = .ok a) (h : a'.stock = a.stock) :
    Restock w (w.putActor actor a') none := by
  rw [Restock, stock?_putActor, h, Function.update_eq_self_iff, stock?_of_findActor ha]

theorem restock_putRoom {d : Dealing} (hr : w.findRoom room = .ok r) (hd : d.holder = .room room)
    (h : d.Possible r.stock ∧ r'.stock = d.result r.stock) : Restock w (w.putRoom room r') (some d) :=
  ⟨r.stock, hd ▸ stock?_of_findRoom hr, h.1, by rw [stock?_putRoom, h.2, hd]⟩

theorem restock_putActor {d : Dealing} (ha : w.findActor actor = .ok a) (hd : d.holder = .actor actor)
    (h : d.Possible a.stock ∧ a'.stock = d.result a.stock) : Restock w (w.putActor actor a') (some d) :=
  ⟨a.stock, hd ▸ stock?_of_findActor ha, h.1, by rw [stock?_putActor, h.2, hd]⟩

theorem Restock.trans {v : World} (h : Restock w v none) (h' : Restock v w' none) : Restock w w' none :=
  Eq.trans h' h

theorem restock_spawnNpc {template : TemplateId} (h : w.spawnNpc room template = .ok w') :
    Restock w w' none := by
  obtain ⟨r, hr, h⟩ := bind_eq_ok.mp h
  cases h
  exact restock_room hr rfl

theorem restock_despawnNpc {template : TemplateId} (h : w.despawnNpc room template = .ok w') :
    Restock w w' none := by
  obtain ⟨r, hr, h⟩ := bind_eq_ok.mp h
  obtain ⟨r', htake, h⟩ := bind_eq_ok.mp h
  obtain ⟨n, -, rfl⟩ := Room.takeNpc_eq_ok.mp htake
  cases h
  exact restock_room hr rfl

theorem stock_addItems {item : TemplateId} {quantity : Nat} (h : r.addItems item quantity = .ok r') :
    r.stock.count item + quantity ≤ maxStack ∧ r'.stock = r.stock.add item quantity := by
  obtain ⟨items, hadd, rfl⟩ := Room.addItems_eq_ok.mp h
  obtain ⟨hle, rfl⟩ := Stacks.add_eq_ok.mp hadd
  exact ⟨hle, rfl⟩

theorem stock_give {item : TemplateId} {quantity : Nat} (h : a.give item quantity = .ok a') :
    a.stock.count item + quantity ≤ maxStack ∧ a'.stock = a.stock.add item quantity := by
  obtain ⟨inventory, hadd, rfl⟩ := Actor.give_eq_ok.mp h
  obtain ⟨hle, rfl⟩ := Stacks.add_eq_ok.mp hadd
  exact ⟨hle, rfl⟩

theorem stock_removeItems (r : Room) (item : TemplateId) (quantity : Nat) :
    (r.removeItems item quantity).2.stock = r.stock.remove item quantity := by
  have hworn : (r.stock.remove item quantity).worn = .empty := by
    change (if _ then SortedMap.erase .empty item else .empty) = SortedMap.empty
    split <;> rfl
  refine Stock.ext ?_ hworn.symm
  unfold Room.removeItems
  split
  · rename_i hnone
    have hcount : r.stock.count item = 0 := by
      change r.items.count item = 0
      rw [Stacks.count, hnone]
      rfl
    change r.items = Stacks.put r.items item (r.stock.count item - quantity)
    rw [hcount, Nat.zero_sub, Stacks.put, if_pos rfl, SortedMap.erase_eq_self hnone]
  · rename_i n hn
    have hcount : r.stock.count item = n := Stock.count_of_get? hn
    change Stacks.put r.items item (n - min quantity n) = Stacks.put r.items item (r.stock.count item - quantity)
    rw [hcount, show n - min quantity n = n - quantity by omega]

theorem removed_eq {item : TemplateId} {quantity n : Nat}
    (h : w.removeRoomItems room item quantity = .ok (n, w')) :
    n = min quantity (w.held (.room room) item) := by
  obtain ⟨r, hr, h⟩ := bind_eq_ok.mp h
  have hheld : w.held (.room room) item = r.items.count item :=
    roomItemCount_of_get? (findRoom_eq_ok.mp hr) item
  have hremoved : (r.removeItems item quantity).1 = min quantity (r.items.count item) := by
    unfold Room.removeItems Stacks.count
    cases r.items.get? item with
    | none => exact (Nat.min_zero _).symm
    | some held => rfl
  rw [hheld, ← hremoved]
  cases h
  rfl

theorem stock_take {item : TemplateId} {quantity : Nat} (h : a.take item quantity = .ok a') :
    quantity ≤ a.stock.count item ∧ a'.stock = a.stock.remove item quantity := by
  refine ⟨(Actor.take_eq_ok h).1, ?_⟩
  have hcount : a.stock.count item = a.inventory.count item := rfl
  unfold Actor.take at h
  dsimp only at h
  split at h
  · cases h
  · rename_i hheld
    unfold Stock.remove
    rw [hcount]
    split at h <;> cases h
    · rename_i hall
      rw [hall, Nat.sub_self, if_pos le_rfl]
      rfl
    · rename_i hrest
      rw [if_neg (by omega), Stacks.put, if_neg (by omega)]
      rfl

theorem restock_apply {c : Change} (h : c.apply w = .ok w') : Restock w w' c.dealing? := by
  cases c with
  | setRoomFlag | setDescription | resetDescription =>
    obtain ⟨r, hr, h⟩ := bind_eq_ok.mp h
    cases h
    exact restock_room hr rfl
  | openExit room d target =>
    obtain ⟨⟨_, _⟩, hmade, rfl⟩ := map_eq_ok.mp h
    obtain ⟨-, -, h⟩ := bind_eq_ok.mp hmade
    obtain ⟨r, hr, h⟩ := bind_eq_ok.mp h
    have hsame : (r.openExit d target).2.stock = r.stock := by
      unfold Room.openExit
      split <;> rfl
    cases h
    exact restock_room hr hsame
  | closeExit room d =>
    obtain ⟨⟨_, _⟩, hmade, rfl⟩ := map_eq_ok.mp h
    obtain ⟨r, hr, h⟩ := bind_eq_ok.mp hmade
    have hsame : (r.closeExit d).2.stock = r.stock := by
      unfold Room.closeExit
      split <;> rfl
    cases h
    exact restock_room hr hsame
  | addRoomItems room item quantity =>
    obtain ⟨r, hr, h⟩ := bind_eq_ok.mp h
    obtain ⟨r', hadd, h⟩ := bind_eq_ok.mp h
    cases h
    exact restock_putRoom hr rfl (stock_addItems hadd)
  | removeRoomItems room item quantity =>
    obtain ⟨⟨_, _⟩, hmade, rfl⟩ := map_eq_ok.mp h
    obtain ⟨r, hr, h⟩ := bind_eq_ok.mp hmade
    cases h
    exact restock_putRoom hr rfl ⟨trivial, stock_removeItems r item quantity⟩
  | spawnNpc => exact restock_spawnNpc h
  | despawnNpc => exact restock_despawnNpc h
  | moveNpc =>
    obtain ⟨-, -, h⟩ := bind_eq_ok.mp h
    obtain ⟨mid, hmid, h⟩ := bind_eq_ok.mp h
    exact (restock_despawnNpc hmid).trans (restock_spawnNpc h)
  | moveActor =>
    obtain ⟨⟨_, _⟩, hmade, rfl⟩ := map_eq_ok.mp h
    obtain ⟨-, -, h⟩ := bind_eq_ok.mp hmade
    obtain ⟨a, ha, h⟩ := bind_eq_ok.mp h
    cases h
    exact restock_actor ha rfl
  | adjustHealth | addEffect | removeEffect =>
    obtain ⟨⟨_, _⟩, hmade, rfl⟩ := map_eq_ok.mp h
    obtain ⟨a, ha, h⟩ := bind_eq_ok.mp hmade
    cases h
    exact restock_actor ha rfl
  | giveItem actor item quantity =>
    obtain ⟨a, ha, h⟩ := bind_eq_ok.mp h
    obtain ⟨a', hgive, h⟩ := bind_eq_ok.mp h
    cases h
    exact restock_putActor ha rfl (stock_give hgive)
  | takeItem actor item quantity =>
    obtain ⟨a, ha, h⟩ := bind_eq_ok.mp h
    obtain ⟨a', htake, h⟩ := bind_eq_ok.mp h
    cases h
    exact restock_putActor ha rfl (stock_take htake)
  | addExperience =>
    obtain ⟨a, ha, h⟩ := bind_eq_ok.mp h
    split at h <;> cases h
    exact restock_actor ha rfl

section Consequences

variable {o : Option Dealing} {h : Holder} {item : TemplateId} {s : Stock}

theorem held_of_stock? (hs : w.stock? h = some s) (item : TemplateId) : w.held h item = s.count item := by
  rw [held_eq, hs]
  rfl

theorem Restock.held (hr : Restock w w' o) (h : Holder) (item : TemplateId) :
    (w'.held h item : Int) =
      w.held h item + (o.elim 0 fun d => if h = d.holder ∧ item = d.item then w.dealt d else 0) := by
  cases o with
  | none =>
    have hsame : w'.held h item = w.held h item := by rw [held_eq, hr, held_eq]
    rw [hsame]
    exact (Int.add_zero _).symm
  | some d =>
    obtain ⟨s, hs, hpossible, hupdate⟩ := hr
    have hheld := held_of_stock? hs
    change _ = _ + if _ then _ else _
    by_cases hh : h = d.holder
    · subst h
      have hs' : w'.stock? d.holder = some (d.result s) := by rw [hupdate, Function.update_self]
      rw [held_of_stock? hs', hheld item]
      by_cases hk : item = d.item
      · subst hk
        rw [if_pos ⟨rfl, rfl⟩]
        cases d with
        | add _ k quantity =>
          rw [Dealing.result, Stock.count_add, Dealing.item, if_pos rfl, dealt]
          exact Int.natCast_add _ _
        | remove holder k quantity =>
          have hk : w.held holder k = s.count k := hheld k
          rw [Dealing.result, Stock.count_remove, Dealing.item, if_pos rfl, dealt, hk]
          omega
        | take _ k quantity =>
          have hle : quantity ≤ s.count k := hpossible
          rw [Dealing.result, Stock.count_remove, Dealing.item, if_pos rfl, dealt]
          omega
      · rw [if_neg fun hd => hk hd.2, Dealing.count_result_of_ne hk, Int.add_zero]
    · have hother : w'.held h item = w.held h item := by
        rw [held_eq, hupdate, Function.update_of_ne hh, held_eq]
      rw [if_neg fun hd => hh hd.1, hother, Int.add_zero]

theorem Restock.of_stock? (hr : Restock w w' o) (hs : w'.stock? h = some s) :
    w.stock? h = some s ∨ ∃ d t, o = some d ∧ h = d.holder ∧ w.stock? h = some t ∧ s = d.result t := by
  cases o with
  | none => exact .inl (by rwa [← show w'.stock? = w.stock? from hr])
  | some d =>
    obtain ⟨t, ht, -, hupdate⟩ := hr
    rw [hupdate] at hs
    by_cases hh : h = d.holder
    · subst h
      rw [Function.update_self] at hs
      exact .inr ⟨d, t, rfl, rfl, ht, (Option.some.inj hs).symm⟩
    · rw [Function.update_of_ne hh] at hs
      exact .inl hs

theorem Stocked.restock (hw : w.Stocked) (hr : Restock w w' o) :
    w'.Stocked ↔ ¬ ∃ h item, o = some (.add h item 0) ∧ w.held h item = 0 := by
  constructor
  · rintro hw' ⟨h, item, rfl, hnone⟩
    obtain ⟨s, hs, -, hupdate⟩ := hr
    have hpositive := hw' h (s.add item 0) (by rw [hupdate]; exact Function.update_self ..)
    exact (Stock.positive_add_iff (hw h s hs)).mp hpositive ⟨rfl, (held_of_stock? hs item).symm.trans hnone⟩
  · intro hsome h s hs
    rcases hr.of_stock? hs with hs | ⟨d, t, rfl, rfl, ht, rfl⟩
    · exact hw h s hs
    · cases d with
      | add h item quantity =>
        refine (Stock.positive_add_iff (hw h t ht)).mpr ?_
        rintro ⟨rfl, hnone⟩
        exact hsome ⟨h, item, rfl, (held_of_stock? ht item).trans hnone⟩
      | remove | take => exact (hw _ t ht).remove

theorem Carried.restock (hw : w.Carried) (hr : Restock w w' o) : w'.Carried := by
  intro h s hs
  rcases hr.of_stock? hs with hs | ⟨d, t, rfl, rfl, ht, rfl⟩
  · exact hw h s hs
  · cases d with
    | add => exact (hw _ t ht).add
    | remove | take => exact (hw _ t ht).remove

end Consequences

end Restock

namespace Change

open WorldTriggers.InPlace

def Fits : Change → Prop
  | addRoomItems _ _ quantity => quantity ≤ maxStack
  | giveItem _ _ quantity => quantity ≤ maxStack
  | _ => True

def inPlace : Change → EStateM WorldError World Unit
  | setRoomFlag room flag value => InPlace.setRoomFlag room flag value
  | openExit room d target => (fun _ => ()) <$> InPlace.openExit room d target
  | closeExit room d => (fun _ => ()) <$> InPlace.closeExit room d
  | setDescription room text => InPlace.setDescription room text
  | resetDescription room => InPlace.resetDescription room
  | addRoomItems room item quantity => InPlace.addRoomItems room item quantity
  | removeRoomItems room item quantity => (fun _ => ()) <$> InPlace.removeRoomItems room item quantity
  | spawnNpc room template => InPlace.spawnNpc room template
  | despawnNpc room template => InPlace.despawnNpc room template
  | moveNpc template source target => InPlace.moveNpc template source target
  | moveActor actor room => (fun _ => ()) <$> InPlace.moveActor actor room
  | adjustHealth actor delta => (fun _ => ()) <$> InPlace.adjustHealth actor delta
  | addEffect actor effect => (fun _ => ()) <$> InPlace.addEffect actor effect
  | removeEffect actor effect => (fun _ => ()) <$> InPlace.removeEffect actor effect
  | giveItem actor item quantity => InPlace.giveItem actor item quantity
  | takeItem actor item quantity => InPlace.takeItem actor item quantity
  | addExperience actor amount => InPlace.addExperience actor amount

theorem forget_commit {α : Type} (f : World → Except WorldError (α × World)) :
    (fun _ => ()) <$> commit f = commit fun w => ((f w).map (·.2)).map ((), ·) := by
  funext w
  change EStateM.map _ (commit f) w = _
  rw [EStateM.map, commit_apply, commit_apply]
  cases f w <;> rfl

theorem inPlace_eq {c : Change} (h : c.Fits) : c.inPlace = commit fun w => (c.apply w).map ((), ·) := by
  cases c with
  | setRoomFlag => exact InPlace.setRoomFlag_eq ..
  | openExit => exact (congrArg _ (InPlace.openExit_eq ..)).trans (forget_commit _)
  | closeExit => exact (congrArg _ (InPlace.closeExit_eq ..)).trans (forget_commit _)
  | setDescription => exact InPlace.setDescription_eq ..
  | resetDescription => exact InPlace.resetDescription_eq ..
  | addRoomItems => exact InPlace.addRoomItems_eq _ _ h
  | removeRoomItems => exact (congrArg _ (InPlace.removeRoomItems_eq ..)).trans (forget_commit _)
  | spawnNpc => exact InPlace.spawnNpc_eq ..
  | despawnNpc => exact InPlace.despawnNpc_eq ..
  | moveNpc => exact InPlace.moveNpc_eq ..
  | moveActor => exact (congrArg _ (InPlace.moveActor_eq ..)).trans (forget_commit _)
  | adjustHealth => exact (congrArg _ (InPlace.adjustHealth_eq ..)).trans (forget_commit _)
  | addEffect => exact (congrArg _ (InPlace.addEffect_eq ..)).trans (forget_commit _)
  | removeEffect => exact (congrArg _ (InPlace.removeEffect_eq ..)).trans (forget_commit _)
  | giveItem => exact InPlace.giveItem_eq _ _ h
  | takeItem => exact InPlace.takeItem_eq ..
  | addExperience => exact InPlace.addExperience_eq ..

end Change

end World

end WorldTriggers
