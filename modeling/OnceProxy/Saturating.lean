/-
Sums of 64-bit numbers that stop at the greatest one.

Instants are 64-bit numbers. An expiry too far away to be written stops at
the last instant instead of wrapping around into the past.
-/
namespace OnceProxy

/-- The greatest 64-bit number. -/
def maxUInt64 : Nat := UInt64.size - 1

/-- The number itself, or the greatest one that can be written. -/
def saturate (n : Nat) : UInt64 := UInt64.ofNat (min n maxUInt64)

/-- The sum, or the greatest number if the sum is greater. -/
def addSaturating (a b : UInt64) : UInt64 := UInt64.ofNat (min (a.toNat + b.toNat) maxUInt64)

theorem toNat_saturate (n : Nat) : (saturate n).toNat = min n maxUInt64 := by
  unfold saturate
  rw [UInt64.toNat_ofNat']
  exact Nat.mod_eq_of_lt (Nat.lt_of_le_of_lt (Nat.min_le_right _ _) (by decide))

/-- The sum in exact arithmetic, cut off at the top. -/
theorem addSaturating_eq (a b : UInt64) :
    addSaturating a b = saturate (a.toNat + b.toNat) := rfl

theorem toNat_addSaturating (a b : UInt64) :
    (addSaturating a b).toNat = min (a.toNat + b.toNat) maxUInt64 := by
  rw [addSaturating_eq]
  exact toNat_saturate _

end OnceProxy
