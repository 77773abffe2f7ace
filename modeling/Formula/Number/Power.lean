/-!
# Powers of two and of ten

The powers that the binary and the decimal notation of numbers are made of.
-/

namespace Formula.Number

/-- Two to the power `n`. -/
def twoPow (n : Nat) : Nat := Nat.pow 2 n

/-- Ten to the power `n`. -/
def tenPow (n : Nat) : Nat := Nat.pow 10 n

end Formula.Number
