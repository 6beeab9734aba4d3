import Roshambo.Proofs.Round.Invariant

/-!
# Refused calls

A turn or a reroll that is refused leaves the game as it was, and which refusal it is can be read
off the game before the call. That the opponent is out of cards is never one of them: while a round
is active both hands hold a card, whatever the setup.
-/
namespace Roshambo

namespace Table

/-- Counters are exact for hands that a word can count. -/
theorem get_counts_eq_zero_iff {t : Table} {side : Side} (small : (t.hand side).length < UInt32.size)
    (choice : Choice) : (t.counts side).get choice = 0 ↔ choice ∉ t.hand side := by
  have counted : ((t.counts side).get choice).toNat = (t.hand side).count choice :=
    CardCounts.toNat_get_ofHand small choice
  rw [← List.count_eq_zero, ← counted, ← UInt32.toNat_inj]
  rfl

end Table

namespace Game

variable {config : RoundSetup} {g : Game}

/-- The hands of a game that moves lead to are small enough for its counters. -/
theorem Sound.length_lt (h : g.Sound config) (side : Side) :
    (g.table.hand side).length < UInt32.size := by
  have bound := h.hands side
  have size := (config.normalized.hand side).size.toNat_lt
  simp only [handLimit, UInt32.size] at bound size ⊢
  omega

/-- How a turn answers, told from the game before it. -/
structure PlayAnswers (g : Game) (choice : Choice) : Prop where
  refused : ∀ refusal, (g.play choice).1 = .error refusal → (g.play choice).2 = g
  notActive : (g.play choice).1 = .error .notActive ↔ g.stage ≠ .active
  cardNotHeld : ∀ other, (g.play choice).1 = .error (.cardNotHeld other) ↔
    other = choice ∧ g.stage = .active ∧ choice ∉ g.table.player
  ok : (∃ record, (g.play choice).1 = .ok record) ↔ g.stage = .active ∧ choice ∈ g.table.player
  opponentHolds : (g.play choice).1 ≠ .error .opponentOutOfCards

/-- How a reroll answers, told from the game before it. -/
structure RerollAnswers (config : RoundSetup) (g : Game) : Prop where
  refused : ∀ refusal, g.reroll.1 = .error refusal → g.reroll.2 = g
  notActive : g.reroll.1 = .error .notActive ↔ g.stage ≠ .active
  tooLate : g.reroll.1 = .error .rerollTooLate ↔ g.stage = .active ∧ g.played ≠ []
  usedUp : g.reroll.1 = .error .rerollsUsedUp ↔
    g.stage = .active ∧ g.played = [] ∧ config.maxRerolls ≤ g.table.rerolls
  ok : (∃ reports, g.reroll.1 = .ok reports) ↔
    g.stage = .active ∧ g.played = [] ∧ g.table.rerolls < config.maxRerolls

theorem Sound.playAnswers (h : g.Sound config) (choice : Choice) : g.PlayAnswers choice := by
  have counted := Table.get_counts_eq_zero_iff (h.length_lt .player) choice
  simp only [Table.hand] at counted
  rcases play_cases choice h.queue with ⟨idle, eq⟩ | ⟨active, none, eq⟩ | ⟨active, _, empty, _⟩ |
    ⟨active, some, record, g', eq, _⟩
  · constructor <;> simp [eq, idle]
  · have missing := counted.1 none
    constructor <;> simp [eq, active, missing, eq_comm]
  · exact absurd empty (h.stocked active .opponent)
  · have held : choice ∈ g.table.player := Decidable.not_not.1 (mt counted.2 some)
    constructor <;> simp [eq, active, held]

theorem Sound.rerollAnswers (h : g.Sound config) : g.RerollAnswers config := by
  have counted := g.table.rerollsLeft_ne_zero_iff
  rw [h.setup] at counted
  rcases reroll_cases h.queue with ⟨idle, eq⟩ | ⟨active, late, eq⟩ | ⟨active, fresh, none, eq⟩ |
    ⟨active, fresh, some, reports, g', eq, _⟩
  · constructor <;> simp [eq, idle]
  · constructor <;> simp [eq, active, late]
  · have used : config.maxRerolls ≤ g.table.rerolls :=
      UInt32.not_lt.1 (mt counted.2 (not_not_intro none))
    constructor <;> simp [eq, active, fresh, used, UInt32.not_lt]
  · have left : g.table.rerolls < config.maxRerolls := counted.1 some
    constructor <;> simp [eq, active, fresh, left, UInt32.not_le]

/-- In every game that moves can lead to, refused calls change nothing, and the opponent never runs
out of cards within a round. -/
theorem answers_run (config : RoundSetup) (seed : UInt64) (moves : List Move) :
    (∀ choice, ((ofSeed config seed).run moves).PlayAnswers choice) ∧
      ((ofSeed config seed).run moves).RerollAnswers config :=
  have sound := sound_run config seed moves
  ⟨sound.playAnswers, sound.rerollAnswers⟩

end Game
end Roshambo
