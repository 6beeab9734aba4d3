import Roshambo.Card

/-!
# Automatic play

The card that automatic play chooses: what beats the choice that the opponent holds most of, as far
as it is in hand. `bestCounter_eq_none_iff` says that it finds a card in every hand that has one.
-/
namespace Roshambo

/-- The choices by how many the opponent holds, most first, ties in the usual order. -/
def targets (opponent : CardCounts) : List Choice :=
  Choice.all.mergeSort fun a b => opponent.get b ≤ opponent.get a

/-- Beats what the opponent holds most of; falls back to the first card. -/
def bestCounter (hand : List Choice) (opponent : CardCounts) : Option Choice :=
  match ((targets opponent).map Choice.counter).find? (hand.contains ·) with
  | some choice => some choice
  | none => hand.head?

theorem bestCounter_eq_none_iff (hand : List Choice) (opponent : CardCounts) :
    bestCounter hand opponent = none ↔ hand = [] := by
  unfold bestCounter
  constructor
  · intro h
    split at h
    · simp at h
    · simpa using h
  · rintro rfl
    have h : ∀ choices : List Choice, choices.find? (([] : List Choice).contains ·) = none :=
      fun choices => List.find?_eq_none.2 (by simp)
    rw [h]
    rfl

end Roshambo
