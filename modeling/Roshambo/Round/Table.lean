import Roshambo.Number.Saturating
import Roshambo.Pass.Host
import Roshambo.Random.Shuffle
import Roshambo.Setup

/-!
# The table

Both hands, the turn counter, the plan and the running score of a round. Everything random comes
from the table's generator, so a seed replays a round as long as the same calls are made.
`length_dealHand` and `length_replaceAt` say what dealing and replacing do to the size of a hand.
-/
namespace Roshambo

/-- Rules cannot make a hand larger than this. -/
def handLimit : Nat := 64

/-- `count` cards from the generator. -/
def drawCards : (count : Nat) → Generator → List Choice × Generator
  | 0, g => ([], g)
  | count + 1, g =>
    let (card, g) := g.card
    let (cards, g) := drawCards count g
    (card :: cards, g)

/-- The guaranteed cards in the order rock, paper, scissors, as many as fit. -/
def HandSetup.sureCards (setup : HandSetup) : List Choice :=
  (Choice.all.flatMap fun c =>
    List.replicate (min (setup.guaranteed c).toNat setup.size.toNat) c).take setup.size.toNat

/-- Guaranteed cards first, random cards up to the size, then a shuffle. -/
def dealHand (g : Generator) (setup : HandSetup) : List Choice × Generator :=
  let sure := setup.sureCards
  let (cards, g) := drawCards (setup.size.toNat - sure.length) g
  g.shuffle (sure ++ cards)

theorem length_drawCards (count : Nat) (g : Generator) :
    (drawCards count g).1.length = count := by
  induction count generalizing g with
  | zero => rfl
  | succ count ih => simp only [drawCards, ih, List.length_cons]

theorem length_sureCards_le (setup : HandSetup) :
    setup.sureCards.length ≤ setup.size.toNat := by
  unfold HandSetup.sureCards
  exact List.length_take_le _ _

theorem length_dealHand (g : Generator) (setup : HandSetup) :
    (dealHand g setup).1.length = setup.size.toNat := by
  have := length_sureCards_le setup
  simp only [dealHand, Generator.shuffle_length, List.length_append, length_drawCards]
  omega

structure Table where
  setup : RoundSetup
  random : Generator
  player : List Choice := []
  opponent : List Choice := []
  /-- How far rules have moved the plan away from the configured number of turns. -/
  planOffset : Int64 := 0
  turn : UInt32 := 1
  total : Int64 := 0
  rerolls : UInt32 := 0
  shown : List String := []
  deriving DecidableEq

namespace Table

/-- A table before the first deal. -/
def ofSeed (setup : RoundSetup) (seed : UInt64) : Table where
  setup := setup.normalized
  random := { seed := seed }

def hand (t : Table) : Side → List Choice
  | .player => t.player
  | .opponent => t.opponent

def setHand (t : Table) (side : Side) (hand : List Choice) : Table :=
  match side with
  | .player => { t with player := hand }
  | .opponent => { t with opponent := hand }

def counts (t : Table) (side : Side) : CardCounts := .ofHand (t.hand side)

/-- Fresh hands for a new round, the opponent's dealt first. -/
def deal (t : Table) : Table :=
  let (opponent, g) := dealHand t.random t.setup.opponent
  let (player, g) := dealHand g t.setup.player
  { setup := t.setup, random := g, player := player, opponent := opponent }

def redealPlayer (t : Table) : Table :=
  let (player, g) := dealHand t.random t.setup.player
  { t with player := player, random := g, rerolls := t.rerolls + 1 }

/-- The configured turns moved by the offset, at least one and at most what a word holds. -/
def plan (t : Table) : UInt32 :=
  Saturating.positiveWord
    (Saturating.add (Int64.ofNat t.setup.turns.toNat) t.planOffset).toInt

def nextTurn (t : Table) : Table := { t with turn := t.turn + 1 }

def addScore (t : Table) (delta : Int64) : Table :=
  { t with total := Saturating.add t.total delta }

def rerollsLeft (t : Table) : UInt32 :=
  if t.rerolls ≤ t.setup.maxRerolls then t.setup.maxRerolls - t.rerolls else 0

theorem rerollsLeft_ne_zero_iff (t : Table) :
    t.rerollsLeft ≠ 0 ↔ t.rerolls < t.setup.maxRerolls := by
  unfold rerollsLeft
  split
  · rename_i within
    rw [ne_eq, ← UInt32.toNat_inj, UInt32.toNat_sub_of_le _ _ within, UInt32.lt_iff_toNat_lt]
    simp only [UInt32.toNat_zero]
    omega
  · rename_i beyond
    have order : ¬ t.rerolls < t.setup.maxRerolls := fun less => beyond (UInt32.le_of_lt less)
    simp [order]

/-- The limit is a word, so while a reroll is left the counter moves on exactly. -/
theorem toNat_rerolls_of_left {t : Table} (left : t.rerollsLeft ≠ 0) :
    (t.rerolls + 1).toNat = t.rerolls.toNat + 1 := by
  have less := UInt32.lt_iff_toNat_lt.1 (t.rerollsLeft_ne_zero_iff.1 left)
  have word := t.setup.maxRerolls.toNat_lt
  rw [UInt32.toNat_add, UInt32.toNat_one, Nat.mod_eq_of_lt (by omega)]

/-- Takes the first player card of the choice. -/
def discard (t : Table) (choice : Choice) : Option Choice × Table :=
  if t.player.contains choice then (some choice, { t with player := t.player.erase choice })
  else (none, t)

/-- Takes an opponent card, the first one or a random one. -/
def drawCard (t : Table) (fromFront : Bool) : Option Choice × Table :=
  match t.opponent with
  | [] => (none, t)
  | first :: rest =>
    if fromFront then (some first, { t with opponent := rest })
    else
      let (index, g) := t.random.below t.opponent.length
      (t.opponent[index]?, { t with opponent := t.opponent.eraseIdx index, random := g })

/-- The lines shown since the last call. -/
def takeLines (t : Table) : List String × Table := (t.shown, { t with shown := [] })

/-! ## What rules may do -/

def firstCard (t : Table) (side : Side) : Option Choice := (t.hand side).head?

/-- The card as many places behind the front as turns are left, or the last card if there are
fewer cards. -/
def lastCard (t : Table) (side : Side) : Option Choice :=
  let hand := t.hand side
  hand[min (t.plan.toNat - t.turn.toNat) (hand.length - 1)]?

/-- The hand with the cards at these places turned into the choice. -/
def replaceAt (hand : List Choice) (places : List Nat) (choice : Choice) : List Choice :=
  places.foldl (fun hand place => hand.set place choice) hand

theorem length_replaceAt (hand : List Choice) (places : List Nat) (choice : Choice) :
    (replaceAt hand places choice).length = hand.length := by
  induction places generalizing hand with
  | nil => rfl
  | cons place places ih => exact (ih _).trans List.length_set

/-- The places of a hand whose card is not the choice. -/
def placesOfOthers (hand : List Choice) (choice : Choice) : List Nat :=
  (List.range hand.length).filter fun place => hand[place]? != some choice

/-- Turns up to `count` opponent cards that differ from the choice into it. -/
def replaceOthers (t : Table) (choice : Choice) (count : UInt32) : UInt32 × Table :=
  let (picks, g) := t.random.sample (placesOfOthers t.opponent choice) count.toNat
  (UInt32.ofNat picks.length,
    { t with opponent := replaceAt t.opponent picks choice, random := g })

/-- Turns up to `count` opponent cards into the choice, whatever they were, and counts those that
changed. -/
def replaceRandomly (t : Table) (choice : Choice) (count : UInt32) : UInt32 × Table :=
  let (picks, g) := t.random.sample (List.range t.opponent.length) count.toNat
  (UInt32.ofNat (picks.countP fun place => t.opponent[place]? != some choice),
    { t with opponent := replaceAt t.opponent picks choice, random := g })

/-- How many of the wanted cards the hand still has room for. -/
def roomFor (t : Table) (side : Side) (wanted : UInt32) : Nat :=
  min wanted.toNat (handLimit - (t.hand side).length)

def addCards (t : Table) (side : Side) (choice : Choice) (count : UInt32) : UInt32 × Table :=
  let room := t.roomFor side count
  (UInt32.ofNat room, t.setHand side (t.hand side ++ List.replicate room choice))

def addRandomCards (t : Table) (side : Side) (count : UInt32) : UInt32 × Table :=
  let room := t.roomFor side count
  let (cards, g) := drawCards room t.random
  (UInt32.ofNat room, { t.setHand side (t.hand side ++ cards) with random := g })

def movePlan (t : Table) (delta : Int64) : UInt32 × Table :=
  let t := { t with planOffset := Saturating.add t.planOffset delta }
  (t.plan, t)

def showInfo (t : Table) (text : String) : Table := { t with shown := t.shown ++ [text] }

/-- A table offers everything that a host can. -/
def host : Host Table where
  countOf t side choice := some ((t.counts side).get choice)
  firstCard := firstCard
  lastCard := lastCard
  replaceOthers t choice count := (t.replaceOthers choice count).map some id
  replaceRandomly t choice count := (t.replaceRandomly choice count).map some id
  addCards t side choice count := (t.addCards side choice count).map some id
  addRandomCards t side count := (t.addRandomCards side count).map some id
  movePlan t delta := (t.movePlan delta).map some id
  showInfo := showInfo
  total := total
  rerolls := rerolls

end Table

end Roshambo
