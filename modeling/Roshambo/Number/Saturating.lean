/-!
# Saturating arithmetic

Scores, plans and plan tallies are 64-bit words. A sum, difference or product that does not fit
stops at the nearer end of the range, so no sequence of rules can wrap a score around. `toInt_add`
and its companions give each operation on the integers, `toNat_positiveWord` the step from an
integer to a number of turns.
-/
namespace Roshambo.Saturating

/-- The integer moved to the nearer end of the 64-bit range when it lies outside. -/
def clamp (n : Int) : Int :=
  max Int64.minValue.toInt (min n Int64.maxValue.toInt)

theorem clamp_eq_self {n : Int} (lo : Int64.minValue.toInt ≤ n) (hi : n ≤ Int64.maxValue.toInt) :
    clamp n = n := by
  simp only [clamp]; omega

def add (a b : Int64) : Int64 := Int64.ofIntClamp (a.toInt + b.toInt)

def sub (a b : Int64) : Int64 := Int64.ofIntClamp (a.toInt - b.toInt)

def mul (a b : Int64) : Int64 := Int64.ofIntClamp (a.toInt * b.toInt)

theorem toInt_ofIntClamp (n : Int) : (Int64.ofIntClamp n).toInt = clamp n := by
  have ends : Int64.minValue.toInt ≤ Int64.maxValue.toInt := by decide
  unfold Int64.ofIntClamp
  split
  · split
    · rw [Int64.toInt_ofIntLE]; simp only [clamp]; omega
    · simp only [clamp]; omega
  · simp only [clamp]; omega

@[simp] theorem toInt_add (a b : Int64) : (add a b).toInt = clamp (a.toInt + b.toInt) :=
  toInt_ofIntClamp _

@[simp] theorem toInt_sub (a b : Int64) : (sub a b).toInt = clamp (a.toInt - b.toInt) :=
  toInt_ofIntClamp _

@[simp] theorem toInt_mul (a b : Int64) : (mul a b).toInt = clamp (a.toInt * b.toInt) :=
  toInt_ofIntClamp _

/-- The integer as a word that counts at least one, moved to the nearer end of that range when it
lies outside. -/
def positiveWord (n : Int) : UInt32 :=
  UInt32.ofNat (min (max n.toNat 1) (UInt32.size - 1))

theorem toNat_positiveWord (n : Int) :
    (positiveWord n).toNat = min (max n.toNat 1) (UInt32.size - 1) :=
  UInt32.toNat_ofNat_of_lt (by simp only [UInt32.size]; omega)

theorem one_le_positiveWord (n : Int) : 1 ≤ (positiveWord n).toNat := by
  rw [toNat_positiveWord]; simp only [UInt32.size]; omega

end Roshambo.Saturating
