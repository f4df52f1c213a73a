/-!
# Powers of two and of ten

The two powers that numbers in binary and in decimal notation are made of.
-/

namespace BoxFlow

/-- Two to the power of `k`. -/
abbrev pow2 (k : Nat) : Nat := Nat.pow 2 k

/-- Ten to the power of `k`. -/
abbrev pow10 (k : Nat) : Nat := Nat.pow 10 k

end BoxFlow
