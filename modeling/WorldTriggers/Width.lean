namespace WorldTriggers.Width

def count (bits : Nat) : Nat := 1 <<< bits

def maxNat (bits : Nat) : Nat := count bits - 1

def minInt (bits : Nat) : Int := -(count (bits - 1) : Int)

def maxInt (bits : Nat) : Int := (count (bits - 1) : Int) - 1

end WorldTriggers.Width
