import Roshambo.Json.Value

/-!
# Typed values

How a type is written as a JSON value and read from one. `Lawful` types read back what was written;
the base types and the lists and options of lawful types are lawful.
-/
namespace Roshambo.Json

class Codec (α : Type) where
  encode : α → Value
  decode? : Value → Option α

export Codec (encode decode?)

/-- Reading a written value gives it back. -/
class Lawful (α : Type) [Codec α] : Prop where
  decode?_encode (a : α) : decode? (encode a) = some a

export Lawful (decode?_encode)

attribute [simp] decode?_encode

instance : Codec Value := ⟨id, some⟩

instance : Codec Bool where
  encode := .bool
  decode?
    | .bool b => some b
    | _ => none

instance : Lawful Bool := ⟨fun _ => rfl⟩

instance : Codec String where
  encode := .str
  decode?
    | .str s => some s
    | _ => none

instance : Lawful String := ⟨fun _ => rfl⟩

instance : Codec UInt32 where
  encode n := .int n.toNat
  decode?
    | .int n => if 0 ≤ n ∧ n.toNat < UInt32.size then some (UInt32.ofNat n.toNat) else none
    | _ => none

instance : Lawful UInt32 where
  decode?_encode n := by
    simp only [encode, decode?]
    rw [if_pos ⟨Int.natCast_nonneg _, n.toNat_lt_size⟩]
    simp

instance : Codec UInt64 where
  encode n := .int n.toNat
  decode?
    | .int n => if 0 ≤ n ∧ n.toNat < UInt64.size then some (UInt64.ofNat n.toNat) else none
    | _ => none

instance : Lawful UInt64 where
  decode?_encode n := by
    simp only [encode, decode?]
    rw [if_pos ⟨Int.natCast_nonneg _, n.toNat_lt_size⟩]
    simp

instance : Codec Int64 where
  encode n := .int n.toInt
  decode?
    | .int n => if Int64.minValue.toInt ≤ n ∧ n ≤ Int64.maxValue.toInt then some (Int64.ofInt n) else none
    | _ => none

instance : Lawful Int64 where
  decode?_encode n := by
    simp only [encode, decode?]
    rw [if_pos ⟨n.minValue_le_toInt, n.toInt_le⟩]
    simp

instance {α : Type} [Codec α] : Codec (Option α) where
  encode
    | some a => encode a
    | none => .null
  decode?
    | .null => some none
    | v => (decode? v).map some

instance {α : Type} [Codec α] : Codec (List α) where
  encode as := .arr (as.map encode)
  decode?
    | .arr items => items.mapM decode?
    | _ => none

instance {α : Type} [Codec α] [Lawful α] : Lawful (List α) where
  decode?_encode as := by
    simp only [encode, decode?]
    induction as with
    | nil => rfl
    | cons a as ih => simp [List.mapM_cons, ih, decode?_encode]

/-- No value of the type is written as null. -/
class NeverNull (α : Type) [Codec α] : Prop where
  encode_ne_null (a : α) : encode a ≠ .null

instance : NeverNull Bool := ⟨fun _ => nofun⟩
instance : NeverNull String := ⟨fun _ => nofun⟩
instance : NeverNull UInt32 := ⟨fun _ => nofun⟩
instance : NeverNull UInt64 := ⟨fun _ => nofun⟩
instance : NeverNull Int64 := ⟨fun _ => nofun⟩

theorem decode?_option_of_ne_null {α : Type} [Codec α] {v : Value} (h : v ≠ .null) :
    (decode? v : Option (Option α)) = (decode? v).map some := by
  cases v <;> first | exact absurd rfl h | rfl

instance {α : Type} [Codec α] [Lawful α] [NeverNull α] : Lawful (Option α) where
  decode?_encode
    | none => rfl
    | some a => by
      show decode? (encode a) = _
      rw [decode?_option_of_ne_null (NeverNull.encode_ne_null a), decode?_encode]
      rfl

end Roshambo.Json
