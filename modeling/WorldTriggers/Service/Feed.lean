import WorldTriggers.Event

namespace WorldTriggers

structure Feed where
  capacity : Nat
  unread : List Notice := []
  missed : Nat := 0

namespace Feed

def ofCapacity (n : Nat) : Feed := { capacity := n.nextPowerOfTwo }

def publish (f : Feed) (notices : List Notice) : Feed :=
  let all := f.unread ++ notices
  let excess := all.length - f.capacity
  { f with unread := all.drop excess, missed := f.missed + excess }

theorem length_unread_publish (f : Feed) (notices : List Notice) :
    (f.publish notices).unread.length ≤ f.capacity := by
  simp only [publish, List.length_drop]
  omega

def read (f : Feed) : (Nat × List Notice) × Feed :=
  ((f.missed, f.unread), { f with unread := [], missed := 0 })

end Feed

end WorldTriggers
