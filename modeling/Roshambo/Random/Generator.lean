import Roshambo.Card
import Roshambo.Random.KeyStream

/-!
# The generator

A generator is a seed and a position in the stream of words that the seed stands for. Drawing
takes words and moves the position on, so equal generators give equal draws. `index_lt` bounds the
index that a draw gives.
-/
namespace Roshambo

structure Generator where
  seed : UInt64
  position : Nat := 0
  deriving DecidableEq

namespace Generator

open Roshambo.Random

def next32 (g : Generator) : UInt32 × Generator :=
  (streamWord g.seed g.position, { g with position := g.position + 1 })

/-- Two words of the stream, the lower half first. -/
def next64 (g : Generator) : UInt64 × Generator :=
  let (low, g) := g.next32
  let (high, g) := g.next32
  ((high.toUInt64 <<< 32) ||| low.toUInt64, g)

/-- A number below `n` by remainder. -/
def below (g : Generator) (n : Nat) : Nat × Generator :=
  let (word, g) := g.next64
  (word.toNat % n, g)

theorem below_lt (g : Generator) {n : Nat} (h : 0 < n) : (g.below n).1 < n :=
  Nat.mod_lt _ h

def card (g : Generator) : Choice × Generator :=
  let (word, g) := g.next64
  (Choice.ofIndex word, g)

/-- The largest low half that keeps the indices below `n` equally likely. -/
def acceptZone (n : Nat) : Nat := (n <<< (31 - n.log2)) - 1

/-- Draws words until one falls into the zone, at most `attempts` of them before the last. -/
def indexWithin (n : Nat) : (attempts : Nat) → Generator → Nat × Generator
  | 0, g =>
    let (word, g) := g.next32
    (word.toNat * n / UInt32.size, g)
  | attempts + 1, g =>
    let (word, g) := g.next32
    let product := word.toNat * n
    if product % UInt32.size ≤ acceptZone n then (product / UInt32.size, g)
    else indexWithin n attempts g

/-- A number below `n`, every one equally likely. The bound on the attempts is the period of the
stream: a search that passes it would never end. -/
def index (g : Generator) (n : Nat) : Nat × Generator :=
  indexWithin n streamPeriod g

theorem product_div_lt (word : UInt32) {n : Nat} (h : 0 < n) : word.toNat * n / UInt32.size < n := by
  rw [Nat.div_lt_iff_lt_mul (by decide), Nat.mul_comm]
  exact Nat.mul_lt_mul_of_pos_left word.toNat_lt h

theorem indexWithin_lt {n : Nat} (h : 0 < n) (attempts : Nat) (g : Generator) :
    (indexWithin n attempts g).1 < n := by
  induction attempts generalizing g with
  | zero => exact product_div_lt _ h
  | succ attempts ih =>
    simp only [indexWithin]
    split
    · exact product_div_lt _ h
    · exact ih _

theorem index_lt (g : Generator) {n : Nat} (h : 0 < n) : (g.index n).1 < n :=
  indexWithin_lt h _ g

end Generator

end Roshambo
