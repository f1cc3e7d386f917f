/-!
# Whole numbers of 64 bits

Whole numbers have no bound here, but some are treated differently where 64 bits with a sign cannot
hold them.
-/

namespace Steward

/-- The least magnitude that 64 bits with a sign cannot hold, but for the least number. -/
def wordBound : Nat := Nat.pow 2 63

/-- The whole numbers that 64 bits with a sign hold. -/
def FitsWord (n : Int) : Prop := -(wordBound : Int) ≤ n ∧ n < wordBound

instance (n : Int) : Decidable (FitsWord n) := by
  unfold FitsWord
  infer_instance

end Steward
