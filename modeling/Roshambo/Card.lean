import Roshambo.Text.Keyword

/-!
# Cards and outcomes

The three choices, which beats which, the outcome of a turn for the player, and how many cards of
each choice a hand holds. `eq_counter_of_beats` says that only one choice beats a given one.
-/
namespace Roshambo

inductive Choice where
  | rock
  | paper
  | scissors
  deriving DecidableEq

inductive Outcome where
  | win
  | draw
  | loss
  deriving DecidableEq

inductive Side where
  | player
  | opponent
  deriving DecidableEq

namespace Choice

/-- Every choice, in the order that breaks ties. -/
def all : List Choice := [rock, paper, scissors]

theorem mem_all (c : Choice) : c ∈ all := by
  cases c <;> decide

def name : Choice → String
  | rock => "Rock"
  | paper => "Paper"
  | scissors => "Scissors"

/-- The letter that stands for a card in a printed hand. -/
def letter : Choice → Char
  | rock => 'R'
  | paper => 'P'
  | scissors => 'S'

def ofLetter? : Char → Option Choice
  | 'R' => some rock
  | 'P' => some paper
  | 'S' => some scissors
  | _ => none

@[simp] theorem ofLetter?_letter (c : Choice) : ofLetter? c.letter = some c := by
  cases c <;> rfl

def keywords : List (String × Choice) :=
  [("rock", rock), ("r", rock), ("paper", paper), ("p", paper), ("scissors", scissors),
    ("s", scissors)]

def ofKeyword? (s : String) : Option Choice := Text.lookupKeyword keywords s

/-- Numbers name the choices in turn, round and round. -/
def ofIndex (n : UInt64) : Choice :=
  match n.toNat % 3 with
  | 0 => rock
  | 1 => paper
  | _ => scissors

def beats : Choice → Choice → Bool
  | rock, scissors => true
  | paper, rock => true
  | scissors, paper => true
  | _, _ => false

/-- The choice that beats this one. -/
def counter : Choice → Choice
  | rock => paper
  | paper => scissors
  | scissors => rock

theorem eq_counter_of_beats {a b : Choice} (h : a.beats b = true) : a = b.counter := by
  cases a <;> cases b <;> simp_all [beats, counter]

end Choice

namespace Outcome

def name : Outcome → String
  | win => "Win"
  | draw => "Draw"
  | loss => "Loss"

def ofLetter? : Char → Option Outcome
  | 'W' => some win
  | 'D' => some draw
  | 'L' => some loss
  | _ => none

def keywords : List (String × Outcome) :=
  [("win", win), ("draw", draw), ("loss", loss), ("lose", loss)]

def ofKeyword? (s : String) : Option Outcome := Text.lookupKeyword keywords s

end Outcome

def Side.name : Side → String
  | .player => "Player"
  | .opponent => "Opponent"

/-- The outcome of a turn from the player's point of view. -/
def judge (player opponent : Choice) : Outcome :=
  if player = opponent then .draw
  else if player.beats opponent then .win
  else .loss

/-- Cards of each choice in one hand. -/
structure CardCounts where
  rock : UInt32
  paper : UInt32
  scissors : UInt32
  deriving DecidableEq

namespace CardCounts

def get (counts : CardCounts) : Choice → UInt32
  | .rock => counts.rock
  | .paper => counts.paper
  | .scissors => counts.scissors

def ofHand (hand : List Choice) : CardCounts where
  rock := UInt32.ofNat (hand.count .rock)
  paper := UInt32.ofNat (hand.count .paper)
  scissors := UInt32.ofNat (hand.count .scissors)

theorem get_ofHand (hand : List Choice) (c : Choice) :
    (ofHand hand).get c = UInt32.ofNat (hand.count c) := by
  cases c <;> rfl

/-- The count is exact for every hand that a word can measure. -/
theorem toNat_get_ofHand {hand : List Choice} (h : hand.length < UInt32.size) (c : Choice) :
    ((ofHand hand).get c).toNat = hand.count c := by
  rw [get_ofHand, UInt32.toNat_ofNat', Nat.mod_eq_of_lt]
  exact Nat.lt_of_le_of_lt List.count_le_length h

/-- For instance R2P0S1. -/
def text (counts : CardCounts) : String :=
  s!"R{counts.rock.toNat}P{counts.paper.toNat}S{counts.scissors.toNat}"

end CardCounts

end Roshambo
