import Roshambo.Number.Double

/-!
# JSON values

Integers are kept apart from every other number, since a field that counts accepts only the former.
A text may hold half of a surrogate pair, which stands for no character; such a string, and an
object with such a key, is malformed: it can be skipped but not read.
-/
namespace Roshambo.Json

/-- A number with a fraction, an exponent or a signed zero: its digits as one integer, and the
power of ten they count. -/
structure Decimal where
  negative : Bool
  digits : Nat
  exponent : Int
  deriving DecidableEq

/-- The number cut to its leading digits, as many as fit a word. -/
def Decimal.cutToWord (d : Decimal) : Decimal :=
  if d.digits < UInt64.size then d
  else cutToWord { d with digits := d.digits / 10, exponent := d.exponent + 1 }
termination_by d.digits
decreasing_by simp only [UInt64.size] at *; omega

/-- The number is read as a double: its leading digits times a power of ten, both rounded before
they are multiplied. Only such a product can be too large, never a quotient. -/
def Decimal.hasDouble (d : Decimal) : Bool :=
  let cut := d.cutToWord
  if cut.digits = 0 ∨ cut.exponent < 0 then true
  else if 308 < cut.exponent then false
  else Double.round cut.digits * Double.round (Nat.pow 10 cut.exponent.toNat) < Double.bound

theorem Decimal.cutToWord_of_lt {d : Decimal} (h : d.digits < UInt64.size) : d.cutToWord = d := by
  rw [cutToWord, if_pos h]

theorem Decimal.hasDouble_whole {n : Nat} (h : n < UInt64.size) (negative : Bool) :
    Decimal.hasDouble ⟨negative, n, 0⟩ := by
  have short : Double.round n < Double.bound :=
    calc Double.round n ≤ 2 * n := Double.round_le_two_mul n
      _ < 2 * UInt64.size := by omega
      _ < Double.bound := by decide
  have one : Double.round 1 = 1 := Double.round_eq_self (by decide)
  simp [hasDouble, cutToWord_of_lt (d := ⟨negative, n, 0⟩) h, one, short]

inductive Value where
  | null
  | bool (b : Bool)
  | int (n : Int)
  | real (d : Decimal)
  | str (s : String)
  | arr (items : List Value)
  | obj (members : List (String × Value))
  | malformed

mutual

/-- Everything in the value can be held without knowing its type: it is well formed, its numbers
have doubles, and arrays and objects nest at most so deep. -/
def Value.holdable : (depth : Nat) → Value → Bool
  | _, .malformed => false
  | _, .int n => Decimal.hasDouble ⟨n < 0, n.natAbs, 0⟩
  | _, .real d => d.hasDouble
  | depth, .arr items => depth != 0 && holdableItems (depth - 1) items
  | depth, .obj members => depth != 0 && holdableMembers (depth - 1) members
  | _, _ => true

def holdableItems : (depth : Nat) → List Value → Bool
  | _, [] => true
  | depth, item :: items => item.holdable depth && holdableItems depth items

def holdableMembers : (depth : Nat) → List (String × Value) → Bool
  | _, [] => true
  | depth, (_, value) :: members => value.holdable depth && holdableMembers depth members

end

namespace Value

theorem holdable_int {n : Int} (h : n.natAbs < UInt64.size) (depth : Nat) :
    (int n).holdable depth = true := Decimal.hasDouble_whole h _

theorem holdable_arr (depth : Nat) (items : List Value) :
    (arr items).holdable (depth + 1) = items.all (·.holdable depth) := by
  have each (items) : holdableItems depth items = items.all (·.holdable depth) := by
    induction items with
    | nil => rfl
    | cons item items ih => simp [holdableItems, ih]
  simp [holdable, each]

theorem holdable_obj (depth : Nat) (members : List (String × Value)) :
    (obj members).holdable (depth + 1) = members.all (·.2.holdable depth) := by
  have each (members) : holdableMembers depth members = members.all (·.2.holdable depth) := by
    induction members with
    | nil => rfl
    | cons member members ih => simp [holdableMembers, ih]
  simp [holdable, each]

end Value

end Roshambo.Json
