import Roshambo.Round.Table

/-!
# Guaranteed cards that fit

Normalizing a setup cuts the guaranteed cards of a hand until they fit it, scissors first, then
paper, then rock. The cut is measured by a sum that stops at the largest word. Guarantees that a
word can sum fit afterwards, and cutting them again changes nothing; what lies beyond the largest
word escapes the cut and is there to be cut the next time.
-/
namespace Roshambo

namespace HandSetup

variable {h : HandSetup}

/-- A word can sum the guarantees. -/
def Summable (h : HandSetup) : Prop := h.guaranteedSum < UInt32.size

instance (h : HandSetup) : Decidable h.Summable :=
  inferInstanceAs (Decidable (h.guaranteedSum < UInt32.size))

/-- `n` is the hand `h` with its guarantees cut to its size. -/
structure Fitted (h n : HandSetup) : Prop where
  size : n.size.toNat = max 1 h.size.toNat
  /-- What a word cannot sum is left over. -/
  sum : n.guaranteedSum =
    min h.guaranteedSum n.size.toNat + (h.guaranteedSum - (UInt32.size - 1))
  fits_iff : n.guaranteedSum = min h.guaranteedSum n.size.toNat ↔ h.Summable
  shrinks : ∀ choice, n.guaranteed choice ≤ h.guaranteed choice
  /-- Paper gives up cards only when scissors has none left. -/
  paper : n.paper < h.paper → n.scissors = 0
  rock : n.rock < h.rock → n.scissors = 0 ∧ n.paper = 0
  /-- Nothing more is cut the next time. -/
  again_iff : n.normalized = n ↔ h.Summable ∨ n.size.toNat = UInt32.size - 1

theorem toNat_size_normalized (h : HandSetup) : h.normalized.size.toNat = max 1 h.size.toNat := by
  show (if h.size = 0 then 1 else h.size).toNat = _
  split
  · rename_i none
    rw [none]
    rfl
  · rename_i some
    have : h.size.toNat ≠ 0 := fun zero => some (UInt32.toNat_inj.1 zero)
    omega

/-- A hand of at least one card is left as it is just when its guarantees show no excess. -/
theorem normalized_eq_self_iff (sized : 1 ≤ h.size.toNat) :
    h.normalized = h ↔ min h.guaranteedSum (UInt32.size - 1) ≤ h.size.toNat := by
  have size : h.normalized.size.toNat = h.size.toNat := by
    rw [toNat_size_normalized]
    exact Nat.max_eq_right sized
  obtain ⟨scissors, paper, rock⟩ := h.toNat_normalized
  rw [size] at scissors paper rock
  constructor
  · intro same
    have sum := h.guaranteedSum_normalized
    have word := h.size.toNat_lt
    rw [same] at sum
    simp only [UInt32.size] at sum ⊢
    omega
  · intro none
    rw [Nat.sub_eq_zero_of_le none] at scissors paper rock
    simp only [Nat.zero_sub, Nat.sub_zero] at scissors paper rock
    calc h.normalized
      _ = ⟨h.normalized.size, h.normalized.rock, h.normalized.paper, h.normalized.scissors⟩ := rfl
      _ = h := by
        rw [UInt32.toNat_inj.1 size, UInt32.toNat_inj.1 rock, UInt32.toNat_inj.1 paper,
          UInt32.toNat_inj.1 scissors]

/-- No guarantee grows, and one is cut only when those before it are used up. -/
theorem normalized_in_order (h : HandSetup) :
    (∀ choice, h.normalized.guaranteed choice ≤ h.guaranteed choice) ∧
      (h.normalized.paper < h.paper → h.normalized.scissors = 0) ∧
      (h.normalized.rock < h.rock → h.normalized.scissors = 0 ∧ h.normalized.paper = 0) := by
  obtain ⟨scissors, paper, rock⟩ := h.toNat_normalized
  generalize min h.guaranteedSum (UInt32.size - 1) - h.normalized.size.toNat = excess
    at scissors paper rock
  have zero : ∀ n : UInt32, n.toNat = 0 → n = 0 := fun _ none => UInt32.toNat_inj.1 none
  refine ⟨fun choice => ?_, fun less => ?_, fun less => ?_⟩
  · rw [UInt32.le_iff_toNat_le]
    cases choice
    · exact rock ▸ Nat.sub_le _ _
    · exact paper ▸ Nat.sub_le _ _
    · exact scissors ▸ Nat.sub_le _ _
  · rw [UInt32.lt_iff_toNat_lt] at less
    have beyond : h.scissors.toNat < excess := by omega
    exact zero _ (by omega)
  · rw [UInt32.lt_iff_toNat_lt] at less
    have beyond : h.scissors.toNat + h.paper.toNat < excess := by omega
    exact ⟨zero _ (by omega), zero _ (by omega)⟩

theorem fitted_normalized (h : HandSetup) : h.Fitted h.normalized := by
  have size := h.toNat_size_normalized
  have sum := h.guaranteedSum_normalized
  have word := h.normalized.size.toNat_lt
  have sized : 1 ≤ h.normalized.size.toNat := by omega
  obtain ⟨shrinks, paper, rock⟩ := h.normalized_in_order
  refine ⟨size, sum, ?_, shrinks, paper, rock, ?_⟩
  · unfold Summable
    simp only [UInt32.size] at sum ⊢
    omega
  · unfold Summable
    rw [normalized_eq_self_iff sized]
    simp only [UInt32.size] at sum word ⊢
    omega

end HandSetup

namespace RoundSetup

/-- Normalizing twice is normalizing once for the setup if it is for both of its hands. -/
theorem normalized_normalized_iff (c : RoundSetup) :
    c.normalized.normalized = c.normalized ↔
      ∀ side, (c.normalized.hand side).normalized = c.normalized.hand side := by
  have turns : (if c.normalized.turns = 0 then 1 else c.normalized.turns) = c.normalized.turns := by
    by_cases none : c.turns = 0 <;> simp [normalized, none]
  constructor
  · intro same side
    cases side
    · exact congrArg RoundSetup.player same
    · exact congrArg RoundSetup.opponent same
  · intro same
    have player := same .player
    have opponent := same .opponent
    calc c.normalized.normalized
      _ = { c.normalized with
            turns := if c.normalized.turns = 0 then 1 else c.normalized.turns
            player := c.normalized.player.normalized
            opponent := c.normalized.opponent.normalized } := rfl
      _ = c.normalized := by
        rw [turns, show c.normalized.player.normalized = c.normalized.player from player,
          show c.normalized.opponent.normalized = c.normalized.opponent from opponent]

/-- Both hands of a setup are cut to their sizes, as far as words can sum their guarantees. Whoever
lays a table may normalize the setup before or leave it to the table, unless something is left over
in a hand that is not the largest. -/
theorem hands_fitted (c : RoundSetup) (seed : UInt64) :
    (∀ side, (c.hand side).Fitted (c.normalized.hand side)) ∧
      (Table.ofSeed c.normalized seed = Table.ofSeed c seed ↔
        ∀ side, (c.hand side).Summable ∨
          (c.normalized.hand side).size.toNat = UInt32.size - 1) := by
  have fitted : ∀ side, (c.hand side).Fitted (c.normalized.hand side) := by
    intro side
    cases side
    · exact c.player.fitted_normalized
    · exact c.opponent.fitted_normalized
  refine ⟨fitted, ?_⟩
  have laid : Table.ofSeed c.normalized seed = Table.ofSeed c seed ↔
      c.normalized.normalized = c.normalized :=
    ⟨congrArg Table.setup, fun same => by simp only [Table.ofSeed, same]⟩
  rw [laid, normalized_normalized_iff]
  exact forall_congr' fun side => (fitted side).again_iff

end RoundSetup

/-- One rock, one scissors and the largest word of papers do not fit two cards: four are left, and
the next cut takes two of them. -/
theorem HandSetup.guarantees_left_over :
    let h : HandSetup := ⟨2, 1, 4294967295, 1⟩
    h.normalized = ⟨2, 1, 3, 0⟩ ∧
      h.normalized.guaranteedSum ≠ min h.guaranteedSum h.normalized.size.toNat ∧
      h.normalized.normalized = ⟨2, 1, 1, 0⟩ := by
  decide

end Roshambo
