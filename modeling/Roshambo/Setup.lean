import Roshambo.Card

/-!
# Setup of a round

How many turns and rerolls a round has, what each hand starts with and what an outcome is worth.
A setup is normalized before play: at least one turn, at least one card, and guaranteed cards
cut back when there are more than the hand can hold. `guaranteedSum_normalized` gives the sum of the
guarantees that remain.
-/
namespace Roshambo

/-- Starting composition of one hand: its size, and how many cards of each choice it surely has. -/
structure HandSetup where
  size : UInt32
  rock : UInt32
  paper : UInt32
  scissors : UInt32
  deriving DecidableEq

namespace HandSetup

def standard : HandSetup := ⟨6, 1, 1, 1⟩

def guaranteed (h : HandSetup) : Choice → UInt32
  | .rock => h.rock
  | .paper => h.paper
  | .scissors => h.scissors

/-- All guarantees together, without bound. -/
def guaranteedSum (h : HandSetup) : Nat :=
  h.rock.toNat + h.paper.toNat + h.scissors.toNat

/-- All guarantees together, or the largest word when they exceed it. -/
def boundedSum (h : HandSetup) : UInt32 :=
  UInt32.ofNat (min h.guaranteedSum (UInt32.size - 1))

/-- How many guaranteed cards there are beyond the size of the hand. -/
def excess (h : HandSetup) : UInt32 :=
  if h.size ≤ h.boundedSum then h.boundedSum - h.size else 0

/-- A guarantee gives up as many cards as it can; returned are what is left of the guarantee
and of the excess. -/
def cut (guarantee excess : UInt32) : UInt32 × UInt32 :=
  if guarantee ≤ excess then (0, excess - guarantee) else (guarantee - excess, 0)

theorem toNat_cut (guarantee excess : UInt32) :
    (cut guarantee excess).1.toNat = guarantee.toNat - excess.toNat ∧
      (cut guarantee excess).2.toNat = excess.toNat - guarantee.toNat := by
  unfold cut
  split
  · rename_i h
    have hle := UInt32.le_iff_toNat_le.1 h
    exact ⟨by show 0 = _; omega, UInt32.toNat_sub_of_le _ _ h⟩
  · rename_i h
    have hlt : excess.toNat < guarantee.toNat := by
      rw [UInt32.le_iff_toNat_le] at h; omega
    have hle := UInt32.le_iff_toNat_le.2 (Nat.le_of_lt hlt)
    exact ⟨UInt32.toNat_sub_of_le _ _ hle, by show 0 = _; omega⟩

/-- A hand has at least one card; guarantees beyond its size are cut from scissors first, then
from paper, then from rock. -/
def normalized (h : HandSetup) : HandSetup :=
  let sized := { h with size := if h.size = 0 then 1 else h.size }
  let (scissors, excess) := cut h.scissors sized.excess
  let (paper, excess) := cut h.paper excess
  let (rock, _) := cut h.rock excess
  ⟨sized.size, rock, paper, scissors⟩

theorem toNat_boundedSum (h : HandSetup) :
    h.boundedSum.toNat = min h.guaranteedSum (UInt32.size - 1) :=
  UInt32.toNat_ofNat_of_lt (by simp only [UInt32.size]; omega)

theorem toNat_excess (h : HandSetup) :
    h.excess.toNat = min h.guaranteedSum (UInt32.size - 1) - h.size.toNat := by
  rw [excess, ← toNat_boundedSum]
  split
  · rename_i more
    exact UInt32.toNat_sub_of_le _ _ more
  · rename_i under
    rw [UInt32.le_iff_toNat_le] at under
    show 0 = _
    omega

/-- What is left of each guarantee: it gives up what the ones cut before it could not. -/
theorem toNat_normalized (h : HandSetup) :
    let excess := min h.guaranteedSum (UInt32.size - 1) - h.normalized.size.toNat
    h.normalized.scissors.toNat = h.scissors.toNat - excess ∧
      h.normalized.paper.toNat = h.paper.toNat - (excess - h.scissors.toNat) ∧
      h.normalized.rock.toNat = h.rock.toNat - (excess - h.scissors.toNat - h.paper.toNat) := by
  let sized := { h with size := h.normalized.size }
  have total : sized.excess.toNat =
      min h.guaranteedSum (UInt32.size - 1) - h.normalized.size.toNat := sized.toNat_excess
  obtain ⟨scissors, left⟩ := toNat_cut h.scissors sized.excess
  obtain ⟨paper, left'⟩ := toNat_cut h.paper (cut h.scissors sized.excess).2
  obtain ⟨rock, -⟩ := toNat_cut h.rock (cut h.paper (cut h.scissors sized.excess).2).2
  rw [left', left, total] at rock
  rw [left, total] at paper
  rw [total] at scissors
  exact ⟨scissors, paper, rock⟩

/-- The guarantees are cut to the size of the hand, as far as a word can sum them: what lies beyond
the largest word is left over. -/
theorem guaranteedSum_normalized (h : HandSetup) :
    h.normalized.guaranteedSum =
      min h.guaranteedSum h.normalized.size.toNat + (h.guaranteedSum - (UInt32.size - 1)) := by
  obtain ⟨scissors, paper, rock⟩ := h.toNat_normalized
  have word := h.normalized.size.toNat_lt
  simp only [guaranteedSum, UInt32.size] at scissors paper rock ⊢
  omega

end HandSetup

/-- Points for each outcome before any rule touches them. -/
structure Scoring where
  win : Int64
  draw : Int64
  loss : Int64
  deriving DecidableEq

namespace Scoring

def standard : Scoring := ⟨5, 3, 0⟩

def base (s : Scoring) : Outcome → Int64
  | .win => s.win
  | .draw => s.draw
  | .loss => s.loss

end Scoring

structure RoundSetup where
  turns : UInt32
  maxRerolls : UInt32
  player : HandSetup
  opponent : HandSetup
  scores : Scoring
  deriving DecidableEq

namespace RoundSetup

/-- Five turns, two rerolls, six cards a side with one of each choice. -/
def standard : RoundSetup := ⟨5, 2, .standard, .standard, .standard⟩

def hand (c : RoundSetup) : Side → HandSetup
  | .player => c.player
  | .opponent => c.opponent

def normalized (c : RoundSetup) : RoundSetup :=
  { c with
    turns := if c.turns = 0 then 1 else c.turns
    player := c.player.normalized
    opponent := c.opponent.normalized }

end RoundSetup

end Roshambo
