import Roshambo.Proofs.Round.Accounts
import Roshambo.Proofs.Round.LastTurn
import Roshambo.Proofs.Round.Refusals
import Roshambo.Proofs.Round.Watched

/-!
# Exact arithmetic

Counters are words and places are list indices, and nothing checks them where they are used. Yet in
a game that requests lead to, no counter is full when it is counted up, no number is cut when it
becomes a word, and no place lies outside its hand, at any point of any pass.
-/
namespace Roshambo

/-! ## Checked words -/

/-- Counts a word up; nothing if it is the largest one. -/
def countUp? (n : UInt32) : Option UInt32 :=
  if n.toNat + 1 < UInt32.size then some (n + 1) else none

/-- The integer as a word; nothing if it is none. -/
def word? (n : Int) : Option UInt32 :=
  if 0 ≤ n ∧ n < UInt32.size then some (UInt32.ofNat n.toNat) else none

theorem countUp?_eq_some {n : UInt32} (room : n.toNat + 1 < UInt32.size) :
    countUp? n = some (n + 1) :=
  if_pos room

theorem word?_natCast {n : Nat} (small : n < UInt32.size) : word? n = some (UInt32.ofNat n) := by
  rw [word?, if_pos ⟨Int.natCast_nonneg n, Int.ofNat_lt.2 small⟩, Int.toNat_natCast]

theorem toNat_min (a b : UInt32) : (min a b).toNat = min a.toNat b.toNat := by
  have unfolded : min a b = if a ≤ b then a else b := rfl
  by_cases order : a ≤ b
  · rw [unfolded, if_pos order, Nat.min_eq_left (UInt32.le_iff_toNat_le.1 order)]
  · have less := UInt32.lt_iff_toNat_lt.1 (UInt32.not_le.1 order)
    rw [unfolded, if_neg order, Nat.min_eq_right (Nat.le_of_lt less)]

namespace CardCounts

/-- Counts one more card; nothing if its counter is full. -/
def add? (counts : CardCounts) : Choice → Option CardCounts
  | .rock => (countUp? counts.rock).map fun n => { counts with rock := n }
  | .paper => (countUp? counts.paper).map fun n => { counts with paper := n }
  | .scissors => (countUp? counts.scissors).map fun n => { counts with scissors := n }

/-- Counts the cards of a hand one by one; nothing if a counter is full when its card comes. -/
def tally? (hand : List Choice) : Option CardCounts := hand.foldlM add? ⟨0, 0, 0⟩

theorem add?_ofHand {hand : List Choice} (room : hand.length + 1 < UInt32.size) (card : Choice) :
    (ofHand hand).add? card = some (ofHand (hand ++ [card])) := by
  have counted : ∀ c, countUp? (UInt32.ofNat (hand.count c)) =
      some (UInt32.ofNat (hand.count c + 1)) := by
    intro c
    have small : hand.count c + 1 < UInt32.size :=
      Nat.lt_of_le_of_lt (Nat.succ_le_succ List.count_le_length) room
    have exactly : (UInt32.ofNat (hand.count c)).toNat = hand.count c :=
      UInt32.toNat_ofNat_of_lt' (Nat.lt_of_succ_lt small)
    rw [countUp?_eq_some (exactly.symm ▸ small), UInt32.ofNat_add]
    rfl
  cases card <;> simp [add?, ofHand, counted]

theorem tally?_eq {hand : List Choice} (small : hand.length < UInt32.size) :
    tally? hand = some (ofHand hand) := by
  have rest : ∀ before after : List Choice, (before ++ after).length < UInt32.size →
      after.foldlM add? (ofHand before) = some (ofHand (before ++ after)) := by
    intro before after
    induction after generalizing before with
    | nil => simp
    | cons card after ih =>
      intro small
      have room : before.length + 1 < UInt32.size := by
        rw [List.length_append, List.length_cons] at small
        omega
      rw [List.foldlM_cons, add?_ofHand room]
      have later := ih (before ++ [card]) (by simpa using small)
      rw [List.append_assoc, List.singleton_append] at later
      exact later
  exact rest [] hand small

end CardCounts

/-! ## Exact tables -/

namespace Table

/-- Neither hand is larger than the limit for rules and the deal allow. -/
def Small (config : RoundSetup) (t : Table) : Prop :=
  ∀ side, (t.hand side).length ≤ max handLimit (config.normalized.hand side).size.toNat

/-- What is counted, cut to words and looked up on a table comes out right. -/
structure Exact (t : Table) : Prop where
  counts : ∀ side, CardCounts.tally? (t.hand side) = some (t.counts side)
  plan : word? (max 1 (min (UInt32.size - 1)
    (Saturating.add (Int64.ofNat t.setup.turns.toNat) t.planOffset).toInt)) = some t.plan
  /-- The room of a hand is a word, and the lesser of it and what is wanted is what is added. -/
  room : ∀ side wanted, ∃ room, word? (handLimit - (t.hand side).length : Nat) = some room ∧
    (min wanted room).toNat = t.roomFor side wanted
  /-- The places at which cards are replaced lie inside the hand, and they are counted in a word. -/
  others : ∀ choice (count : UInt32),
    let picks := (t.random.sample (placesOfOthers t.opponent choice) count.toNat).1
    (∀ place ∈ picks, place < t.opponent.length) ∧
      word? picks.length = some (t.replaceOthers choice count).1
  anywhere : ∀ choice (count : UInt32),
    let picks := (t.random.sample (List.range t.opponent.length) count.toNat).1
    (∀ place ∈ picks, place < t.opponent.length) ∧
      word? (picks.countP fun place => t.opponent[place]? != some choice) =
        some (t.replaceRandomly choice count).1
  last : ∀ side, t.hand side ≠ [] → (t.lastCard side).isSome = true

variable {config : RoundSetup} {t t' : Table}

theorem Small.of_grows (h : t.Small config) (grown : t.Grows t') : t'.Small config := by
  intro side
  have before := h side
  have after := grown.bounded side
  omega

theorem word?_plan (t : Table) : word? (max 1 (min (UInt32.size - 1)
    (Saturating.add (Int64.ofNat t.setup.turns.toNat) t.planOffset).toInt)) = some t.plan := by
  generalize offset : (Saturating.add (Int64.ofNat t.setup.turns.toNat) t.planOffset).toInt = n
  have same : max 1 (min ((UInt32.size : Int) - 1) n) =
      ((min (max n.toNat 1) (UInt32.size - 1) : Nat) : Int) := by
    simp only [UInt32.size]
    omega
  rw [same, word?_natCast (by simp only [UInt32.size]; omega), plan, offset]
  rfl

theorem Small.exact (h : t.Small config) (countable : config.Countable) : t.Exact where
  counts side := by
    have limit := countable.handLimit_lt side
    exact CardCounts.tally?_eq (Nat.lt_of_le_of_lt (h side) (by omega))
  plan := t.word?_plan
  room side wanted := by
    have small : handLimit - (t.hand side).length < UInt32.size :=
      Nat.lt_of_le_of_lt (Nat.sub_le _ _) (by decide)
    refine ⟨_, word?_natCast small, ?_⟩
    have exactly := UInt32.toNat_ofNat_of_lt' small
    rw [toNat_min, exactly, roomFor]
  others choice count := by
    refine ⟨fun place mem => ?_, word?_natCast (Nat.lt_of_le_of_lt ?_ count.toNat_lt)⟩
    · have found := Generator.mem_of_mem_sample mem
      exact List.mem_range.1 (List.mem_filter.1 found).1
    · rw [Generator.sample_length]
      exact Nat.min_le_left _ _
  anywhere choice count := by
    refine ⟨fun place mem => List.mem_range.1 (Generator.mem_of_mem_sample mem),
      word?_natCast (Nat.lt_of_le_of_lt ?_ count.toNat_lt)⟩
    refine Nat.le_trans List.countP_le_length ?_
    rw [Generator.sample_length]
    exact Nat.min_le_left _ _
  last side held := by
    have positive := List.length_pos_iff.2 held
    rw [lastCard, List.getElem?_eq_getElem (by omega)]
    rfl

/-! ### Deals and draws keep hands small -/

theorem Small.of_le (h : t.Small config)
    (le : ∀ side, (t'.hand side).length ≤ (t.hand side).length) : t'.Small config :=
  fun side => Nat.le_trans (le side) (h side)

theorem small_deal (setup : t.setup = config.normalized) : t.deal.Small config := by
  intro side
  rw [length_deal, setup]
  exact Nat.le_max_right _ _

theorem Small.redealPlayer (h : t.Small config) (setup : t.setup = config.normalized) :
    t.redealPlayer.Small config := by
  intro side
  cases side with
  | player =>
    show t.redealPlayer.player.length ≤ _
    rw [length_redealPlayer, setup]
    exact Nat.le_max_right _ _
  | opponent => exact h .opponent

theorem Small.discard (h : t.Small config) (choice : Choice) :
    (t.discard choice).2.Small config := by
  refine h.of_le fun side => ?_
  unfold Table.discard
  split
  · cases side with
    | player => exact List.length_erase_le
    | opponent => exact Nat.le_refl _
  · exact Nat.le_refl _

theorem Small.drawCard (h : t.Small config) (fromFront : Bool) :
    (t.drawCard fromFront).2.Small config := by
  refine h.of_le fun side => ?_
  unfold Table.drawCard
  split
  · exact Nat.le_refl _
  · rename_i first rest hand
    split
    · cases side with
      | player => exact Nat.le_refl _
      | opponent => simp [Table.hand, hand]
    · cases side with
      | player => exact Nat.le_refl _
      | opponent => exact List.length_eraseIdx_le _ _

end Table

/-! ## The passes of a move -/

namespace Game

open Referee (PassRun)

/-- The pass that prepares a dealt round. -/
def preparingRun (g : Game) (again : Bool) : PassRun :=
  ⟨g.referee, .prepareRound again, g.betweenTurns, g.table⟩

/-- The game that the pass leaves. -/
def left (g : Game) (run : PassRun) : Game :=
  { g with referee := run.result.referee, table := run.result.host }

def openingRun (g : Game) : PassRun := ⟨g.referee, .openTurn, g.openingContext, g.table⟩

def settlingRun (g : Game) (choice opponent : Choice) : PassRun :=
  ⟨g.referee, .settleTurn, g.settlingContext choice opponent, g.table⟩

def closingRun (g : Game) : PassRun := ⟨g.referee, .closeRound, g.afterTurns, g.table⟩

/-- The passes of a turn. -/
def turnRuns (g : Game) (choice : Choice) : List PassRun :=
  match g.beginTurn.2.exchange choice with
  -- A turn without a drawn card is not settled; no game that requests lead to gets here.
  | (none, _) => [g.openingRun]
  | (some opponent, paired) =>
    let settled := (paired.settleTurn choice opponent).2
    [g.openingRun, paired.settlingRun choice opponent] ++
      if settled.isOver then [settled.closingRun] else []

/-- The passes that a move has the referee run, in their order. -/
def passRuns (g : Game) : Move → List PassRun
  | .toggle rule =>
    if g.stage = .active then
      [⟨(g.referee.toggle rule).2, .recheckRules, g.betweenTurns, g.table⟩]
    else []
  | .start =>
    let dealt : Game :=
      { table := g.table.deal, referee := g.referee, stage := .active, events := g.events }
    let prepared := dealt.left (dealt.preparingRun false)
    [dealt.preparingRun false,
      ⟨prepared.referee, .openRound true, prepared.betweenTurns, prepared.table⟩]
  | .reroll =>
    if g.stage ≠ .active ∨ g.played ≠ [] ∨ g.table.rerollsLeft = 0 then []
    else
      let dealt : Game := { g with table := g.table.redealPlayer }
      let prepared := dealt.left (dealt.preparingRun true)
      [dealt.preparingRun true,
        ⟨prepared.referee.openGate, .recheckRules, prepared.betweenTurns, prepared.table⟩]
  | .play choice =>
    if g.stage ≠ .active ∨ (g.table.counts .player).get choice = 0 then []
    else if g.table.opponent.isEmpty then [g.closingRun]
    else g.turnRuns choice
  | _ => []

variable {config : RoundSetup} {g : Game}

/-- The passes are those of a move: it answered with their reports, and the table that it left is
that of the last one, turn and score apart. -/
structure RanBy (g : Game) (runs : List PassRun) (reports : List PassReport) (g' : Game) :
    Prop where
  reports : reports = runs.map fun run => run.result.report
  table : ∃ turn total, g'.table =
    { runs.getLast?.elim g.table (fun run => run.result.host) with turn := turn, total := total }

theorem ranBy_nil {g g' : Game} (same : g'.table = g.table) : g.RanBy [] [] g' :=
  ⟨rfl, g.table.turn, g.table.total, same⟩

theorem ranBy_pair {g g' : Game} {first second : PassRun} (left : g'.table = second.result.host) :
    g.RanBy [first, second] [first.result.report, second.result.report] g' :=
  ⟨rfl, g'.table.turn, g'.table.total, left ▸ rfl⟩

theorem ranBy_toggle (g : Game) (rule : Rule) :
    g.RanBy (g.passRuns (.toggle rule)) (g.toggle rule).1.2.toList (g.toggle rule).2 := by
  simp only [passRuns, toggle]
  split
  · exact ⟨rfl, _, _, rfl⟩
  · exact ranBy_nil rfl

theorem ranBy_start (g : Game) : g.RanBy (g.passRuns .start) g.start.1 g.start.2 := by
  simp only [start, passRuns, runPhase, collect, emit, Referee.takeEvents]
  refine ranBy_pair ?_
  simp only [PassRun.result, Referee.enter, Game.left, preparingRun]

theorem Sound.ranBy_reroll (h : g.Sound config) :
    g.RanBy (g.passRuns .reroll) (g.reportsOf .reroll) g.reroll.2 := by
  simp only [reportsOf, passRuns]
  rcases reroll_cases h.queue with ⟨idle, eq⟩ | ⟨_, late, eq⟩ | ⟨_, _, none, eq⟩ |
    ⟨active, fresh, some, -⟩
  · rw [eq, if_pos (.inl idle)]
    exact ranBy_nil rfl
  · rw [eq, if_pos (.inr (.inl late))]
    exact ranBy_nil rfl
  · rw [eq, if_pos (.inr (.inr none))]
    exact ranBy_nil rfl
  · rw [if_neg (by simp [active, fresh, some]), reroll, if_neg (fun h => h active),
      if_neg (by simp [fresh]), if_neg some]
    simp only [runPhase, collect, emit, Referee.takeEvents]
    refine ranBy_pair ?_
    simp only [PassRun.result, Referee.enter, Game.left, preparingRun]
    rfl

theorem Course.ranBy {choice : Choice} {record : TurnRecord} {g' paired : Game}
    (course : g.Course choice record g' paired) :
    g.RanBy (g.turnRuns choice) record.reports g' := by
  obtain ⟨settlement, settled, settles, closing⟩ := course.closing
  have second : settlement = (paired.settleTurn choice record.opponent).1 := by rw [settles]
  have third : settled = (paired.settleTurn choice record.opponent).2 := by rw [settles]
  rw [turnRuns, course.drawn]
  simp only [settles]
  rcases closing with ⟨goesOn, rfl, -, reports⟩ | ⟨ends, rfl, -, reports⟩
  · rw [reports, goesOn, second]
    exact ⟨rfl, _, _, by rw [third]; rfl⟩
  · rw [reports, ends, second]
    exact ⟨rfl, _, _, rfl⟩

theorem Sound.ranBy_play (h : g.Sound config) (choice : Choice) :
    g.RanBy (g.passRuns (.play choice)) (g.reportsOf (.play choice)) (g.play choice).2 := by
  simp only [reportsOf, passRuns]
  rcases play_cases choice h.queue with ⟨idle, eq⟩ | ⟨_, none, eq⟩ | ⟨active, _, empty, _⟩ |
    ⟨active, held, record, g', eq, _⟩
  · rw [eq, if_pos (.inl idle)]
    exact ranBy_nil rfl
  · rw [eq, if_pos (.inr none)]
    exact ranBy_nil rfl
  · exact absurd empty (h.stocked active .opponent)
  · have stocked : ¬ g.table.opponent.isEmpty = true := by
      simpa [Table.hand] using h.stocked active .opponent
    obtain ⟨paired, course⟩ := course_of_play eq
    rw [eq, if_neg (by simp [active, held]), if_neg stocked]
    exact course.ranBy

theorem Sound.ranBy_passRuns (h : g.Sound config) (move : Move) :
    g.RanBy (g.passRuns move) (g.reportsOf move) (g.after move) := by
  cases move with
  | enable rule => exact ranBy_nil rfl
  | clear => exact ranBy_nil rfl
  | toggle rule => exact ranBy_toggle g rule
  | start => exact ranBy_start g
  | reroll => exact h.ranBy_reroll
  | play choice => exact h.ranBy_play choice

/-! ### Their tables -/

theorem forall_run_singleton {run : PassRun} (h : run.table.Small config) :
    ∀ r ∈ [run], r.table.Small config := by
  intro r mem
  rw [List.mem_singleton.1 mem]
  exact h

theorem small_turnRuns (h : g.table.Small config) (choice : Choice) :
    ∀ run ∈ g.turnRuns choice, run.table.Small config := by
  have begun : g.beginTurn.2.table.Small config :=
    (h.of_grows g.openingRun.grows_result).of_le fun side => by cases side <;> exact Nat.le_refl _
  have drawn : (g.beginTurn.2.exchange choice).2.table.Small config :=
    (begun.discard choice).drawCard _
  unfold turnRuns
  generalize g.beginTurn.2.exchange choice = exchanged at drawn
  obtain ⟨_ | opponent, paired⟩ := exchanged
  · exact forall_run_singleton h
  · have settled : (paired.settleTurn choice opponent).2.table.Small config :=
      (drawn.of_grows (paired.settlingRun choice opponent).grows_result).of_le fun side => by
        cases side <;> exact Nat.le_refl _
    rw [List.forall_mem_append, List.forall_mem_cons, List.forall_mem_singleton]
    refine ⟨⟨h, drawn⟩, ?_⟩
    split
    · exact forall_run_singleton settled
    · exact List.forall_mem_nil _

/-- The passes after a deal meet the hands that were dealt, or these hands grown. -/
theorem small_dealRuns {dealt : Game} {again : Bool} {run : PassRun}
    (h : dealt.table.Small config)
    (follows : run.table = (dealt.preparingRun again).result.host) :
    ∀ r ∈ [dealt.preparingRun again, run], r.table.Small config := by
  have prepared : run.table.Small config := by
    rw [follows]
    exact h.of_grows (dealt.preparingRun again).grows_result
  exact List.forall_mem_cons.2 ⟨h, List.forall_mem_singleton.2 prepared⟩

theorem small_passRuns (h : g.table.Small config) (setup : g.table.setup = config.normalized)
    (move : Move) : ∀ run ∈ g.passRuns move, run.table.Small config := by
  cases move with
  | enable rule => exact List.forall_mem_nil _
  | clear => exact List.forall_mem_nil _
  | toggle rule =>
    simp only [passRuns]
    split
    · exact forall_run_singleton h
    · exact List.forall_mem_nil _
  | start => exact small_dealRuns (Table.small_deal setup) rfl
  | reroll =>
    simp only [passRuns]
    split
    · exact List.forall_mem_nil _
    · exact small_dealRuns (h.redealPlayer setup) rfl
  | play choice =>
    simp only [passRuns]
    split
    · exact List.forall_mem_nil _
    · split
      · exact forall_run_singleton h
      · exact small_turnRuns h choice

/-! ## The whole game -/

/-- Nothing goes wrong in a move: every table of every pass is exact, counters are not full when
they are counted up, and cards are drawn from a hand that has some. -/
structure Unfailing (g : Game) (move : Move) : Prop where
  ran : g.RanBy (g.passRuns move) (g.reportsOf move) (g.after move)
  tables : ∀ run ∈ g.passRuns move, ∀ t ∈ run.tables, t.Exact
  before : g.table.Exact
  after : (g.after move).table.Exact
  turn : ∀ choice record, move = .play choice → (g.play choice).1 = .ok record →
    countUp? g.table.turn = some (g.after move).table.turn
  rerolls : ∀ reports, move = .reroll → g.reroll.1 = .ok reports →
    countUp? g.table.rerolls = some (g.after move).table.rerolls
  drawn : ∀ choice, move = .play choice → g.stage = .active →
    (g.table.counts .player).get choice ≠ 0 →
      0 < (g.beginTurn.2.table.discard choice).2.opponent.length
  played : word? (g.after move).played.length = some (g.after move).summary.turnsPlayed

theorem Sound.small (h : g.Sound config) : g.table.Small config :=
  fun side => Nat.le_trans (Nat.le_add_right _ _) (h.hands side)

theorem OnSchedule.countUp?_turn (h : g.OnSchedule config) (countable : config.Countable)
    (active : g.stage = .active) : countUp? g.table.turn = some (g.table.turn + 1) := by
  refine countUp?_eq_some ?_
  rw [← h.toNat_next countable active]
  exact UInt32.toNat_lt _

/-- The reroll limit is a word, so a counter below it has room. -/
theorem countUp?_rerolls (left : g.table.rerollsLeft ≠ 0) :
    countUp? g.table.rerolls = some (g.table.rerolls + 1) := by
  have below := UInt32.lt_iff_toNat_lt.1 (g.table.rerollsLeft_ne_zero_iff.1 left)
  exact countUp?_eq_some (Nat.lt_of_le_of_lt below (UInt32.toNat_lt _))

/-- Neither what a turn begins with nor the played card takes a card from the opponent. -/
theorem opponent_discard_beginTurn (g : Game) (choice : Choice) :
    (g.beginTurn.2.table.discard choice).2.opponent = g.table.opponent := by
  obtain ⟨lines, total, ref, begun, -⟩ := g.beginTurn_frame
  rw [begun, Table.discard]
  split <;> rfl

theorem Sound.length_played_lt (h : g.Sound config) : g.played.length < UInt32.size := by
  have hands := h.hands .player
  have limit : max handLimit (config.normalized.hand .player).size.toNat < UInt32.size :=
    Nat.max_lt.2 ⟨by decide, UInt32.toNat_lt _⟩
  omega

/-- In a game that requests lead to nothing goes wrong, whatever the rules and their parameters. -/
theorem unfailing_served (config : RoundSetup) (countable : config.Countable) (seed : UInt64)
    (requests : List Request) (move : Move) :
    ((ofSeed config seed).served requests).Unfailing move := by
  have reached := (@Reached.ofSeed config seed).served requests
  generalize (ofSeed config seed).served requests = g at reached
  have sound := reached.sound
  have next := (reached.after move).sound
  refine ⟨sound.ranBy_passRuns move, ?_, sound.small.exact countable, next.small.exact countable,
    ?_, ?_, ?_, word?_natCast next.length_played_lt⟩
  · -- A pass only lets hands grow, and never beyond the limit.
    intro run mem t met
    have start := small_passRuns sound.small sound.setup move run mem
    exact (start.of_grows (run.grows_tables t met)).exact countable
  · rintro choice record rfl accepted
    obtain ⟨active, -, taken⟩ := sound.taken_of_play (Prod.ext accepted rfl)
    rw [reached.onSchedule.countUp?_turn countable active, ← taken.turn]
    rfl
  · rintro reports rfl accepted
    show countUp? g.table.rerolls = some g.reroll.2.table.rerolls
    rcases reroll_cases sound.queue with ⟨_, eq⟩ | ⟨_, _, eq⟩ | ⟨_, _, _, eq⟩ |
      ⟨_, _, left, _, g', eq, rerolled⟩
    · rw [eq] at accepted
      cases accepted
    · rw [eq] at accepted
      cases accepted
    · rw [eq] at accepted
      cases accepted
    · rw [eq, countUp?_rerolls left, rerolled.rerolls]
  · rintro choice rfl active -
    rw [opponent_discard_beginTurn]
    exact List.length_pos_iff.2 (sound.stocked active .opponent)

theorem unfailing_served_standard :
    RoundSetup.standard.Countable ∧
      ((ofSeed .standard 7).served [.make .start, .make .reroll]).Unfailing (.play .rock) :=
  ⟨RoundSetup.countable_standard,
    unfailing_served .standard RoundSetup.countable_standard 7 [.make .start, .make .reroll]
      (.play .rock)⟩

end Game

end Roshambo
