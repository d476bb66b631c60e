/-!
# Powers of two and ten

The bounds of machine numbers are powers of two, and decimal places are powers of ten.
-/

namespace Mend.Number

/-- Two to a power. -/
def twoTo (n : Nat) : Nat := Nat.pow 2 n

/-- Ten to a power. -/
def tenTo (n : Nat) : Nat := Nat.pow 10 n

/-- The doubling of a power of two is the next one. -/
theorem twoTo_succ (n : Nat) : twoTo (n + 1) = twoTo n * 2 := rfl

/-- Ten times a power of ten is the next one. -/
theorem tenTo_succ (n : Nat) : tenTo (n + 1) = tenTo n * 10 := rfl

end Mend.Number
