import Roshambo.Proofs.Round.Plan

/-!
# The board

What a player keeps up from the events alone: the names of the active rules, the plan, the rerolls
left, the cards in hand, the size of the opponent's hand, the score and the stage. `Board.note` says
what each event does to it. A pass by itself does nothing, and the two passes of a deal at most move
the plan, by an event that tells where to.
-/
namespace Roshambo

namespace CardCounts

/-- All cards of the hand. -/
def size (counts : CardCounts) : Nat :=
  counts.rock.toNat + counts.paper.toNat + counts.scissors.toNat

/-- One card of the choice less. -/
def less (counts : CardCounts) : Choice → CardCounts
  | .rock => { counts with rock := counts.rock - 1 }
  | .paper => { counts with paper := counts.paper - 1 }
  | .scissors => { counts with scissors := counts.scissors - 1 }

theorem length_eq_counts (hand : List Choice) :
    hand.length = hand.count .rock + hand.count .paper + hand.count .scissors := by
  induction hand with
  | nil => rfl
  | cons card hand ih => cases card <;> simp [ih] <;> omega

/-- The counters of a hand that a word can measure add up to its size. -/
theorem size_ofHand {hand : List Choice} (small : hand.length < UInt32.size) :
    (ofHand hand).size = hand.length := by
  rw [length_eq_counts hand, ← toNat_get_ofHand small .rock, ← toNat_get_ofHand small .paper,
    ← toNat_get_ofHand small .scissors]
  rfl

theorem ofHand_erase {hand : List Choice} {choice : Choice} (held : choice ∈ hand) :
    ofHand (hand.erase choice) = (ofHand hand).less choice := by
  have one : UInt32.ofNat (hand.count choice - 1) = UInt32.ofNat (hand.count choice) - 1 :=
    UInt32.ofNat_sub (List.count_pos_iff.2 held)
  cases choice <;> simp [ofHand, less, one]

end CardCounts

structure Board where
  /-- In the order of their activation. -/
  rules : List String := []
  plan : UInt32
  rerollsLeft : UInt32
  player : CardCounts := .ofHand []
  /-- The size of the opponent's hand. -/
  opponent : Nat := 0
  total : Int64 := 0
  stage : Stage := .idle
  deriving DecidableEq

namespace Board

/-- The board before the first round. -/
def initial (config : RoundSetup) : Board where
  plan := (Table.ofSeed config 0).plan
  rerollsLeft := config.maxRerolls

/-- The board after an event. -/
def note (b : Board) : Event → Board
  | .ruleToggled name true => { b with rules := b.rules ++ [name] }
  | .ruleToggled name false => { b with rules := b.rules.filter (· != name) }
  | .rulesCleared => { b with rules := [] }
  | .roundStarted player opponent turns rerolls =>
    { rules := b.rules, plan := turns, rerollsLeft := rerolls, player := player
      opponent := opponent.size, total := 0, stage := .active }
  | .handRerolled player left => { b with player := player, rerollsLeft := left }
  | .turnsAdjusted _ planned _ => { b with plan := planned }
  | .turnResolved _ player _ _ _ total =>
    { b with player := b.player.less player, opponent := b.opponent - 1, total := total }
  | .roundFinished total _ _ _ => { b with total := total, stage := .finished }
  | _ => b

/-- The board after events, one after another. -/
def replay (b : Board) (events : List Event) : Board := events.foldl note b

theorem replay_append (b : Board) (first second : List Event) :
    b.replay (first ++ second) = (b.replay first).replay second :=
  List.foldl_append

/-- Nothing that a pass emits shows on the board. -/
theorem replay_of_emits {σ : Type} {setting : PassSetting σ} {news : List Event}
    (emits : ∀ event ∈ news, setting.Emits event) (b : Board) : b.replay news = b := by
  induction news with
  | nil => rfl
  | cons event news ih =>
    have same : b.note event = b := by
      have emitted := emits event List.mem_cons_self
      cases event <;> first | rfl | exact absurd emitted id
    show (b.note event).replay news = b
    rw [same]
    exact ih fun other mem => emits other (List.mem_cons_of_mem event mem)

end Board

/-- What of a game shows on the board. -/
def Game.board (g : Game) : Board where
  rules := g.referee.active.names
  plan := g.table.plan
  rerollsLeft := g.table.rerollsLeft
  player := g.table.counts .player
  opponent := g.table.opponent.length
  total := g.table.total
  stage := g.stage

/-! ## Deals -/

/-- Replayed, the events move no more than the plan, and from that of one table to that of the
other. -/
def Table.Replans (t t' : Table) (news : List Event) : Prop :=
  ∀ b : Board, ∃ plan, b.replay news = { b with plan := plan } ∧ (b.plan = t.plan → plan = t'.plan)

namespace Table.Replans

variable {t t' t'' : Table} {first second news : List Event}

theorem of_same (same : t'.plan = t.plan) (still : ∀ b : Board, b.replay news = b) :
    t.Replans t' news :=
  fun b => ⟨b.plan, still b, fun plan => plan.trans same.symm⟩

theorem append (h : t.Replans t' first) (h' : t'.Replans t'' second) :
    t.Replans t'' (first ++ second) := by
  intro b
  obtain ⟨plan, eq, plans⟩ := h b
  obtain ⟨plan', eq', plans'⟩ := h' { b with plan := plan }
  refine ⟨plan', ?_, fun same => plans' (plans same)⟩
  rw [Board.replay_append, eq, eq']

end Table.Replans

namespace Referee

variable (ref : Referee) (ctx : Context) (t : Table)

theorem plan_evaluate (pass : Pass) (handsOpen : Bool) :
    (ref.evaluate ⟨Table.host, pass, handsOpen⟩ ctx t).host.plan = t.plan := by
  unfold Table.plan
  rw [planOffset_evaluate, (ref.grows_evaluate pass handsOpen ctx t).setup]

/-- A pass leaves the board alone. -/
theorem replans_evaluate (pass : Pass) (handsOpen : Bool)
    (blind : handsOpen = true → pass.applies .revealNextOpponentCard = false) :
    ∃ news, (ref.evaluate ⟨Table.host, pass, handsOpen⟩ ctx t).referee.events =
        ref.events ++ news ∧
      t.Replans (ref.evaluate ⟨Table.host, pass, handsOpen⟩ ctx t).host news := by
  obtain ⟨news, added, told⟩ := ref.news_evaluate ⟨Table.host, pass, handsOpen⟩ blind ctx t
  exact ⟨news, added, .of_same (ref.plan_evaluate ctx t pass handsOpen)
    (Board.replay_of_emits told.emits)⟩

/-- A change of the plan is announced with the new plan. -/
theorem replans_settlePlan (again : Bool) (r : PassResult Table) :
    ∃ news, (settlePlan Table.host again r).referee.events = r.referee.events ++ news ∧
      r.host.Replans (settlePlan Table.host again r).host news := by
  by_cases due : r.referee.tally.due = 0
  · rw [settlePlan, if_pos due]
    exact ⟨[], by simp, .of_same rfl fun _ => rfl⟩
  · rw [settlePlan, if_neg due]
    exact ⟨_, rfl, fun b => ⟨_, rfl, fun _ => rfl⟩⟩

theorem replans_prepareRound (again : Bool) :
    ∃ news, (ref.prepareRound Table.host again ctx t).referee.events = ref.events ++ news ∧
      t.Replans (ref.prepareRound Table.host again ctx t).host news := by
  obtain ⟨news, added, replans⟩ := (ref.preparing again).replans_evaluate ctx t (.prepare again)
    (!again) (by cases again <;> decide)
  obtain ⟨more, added', replans'⟩ :=
    replans_settlePlan again (ref.unsettled Table.host ctx t again)
  refine ⟨news ++ more, added'.trans ?_, replans.append replans'⟩
  rw [unsettled, added, List.append_assoc]
  rfl

theorem replans_openRound (initial : Bool) :
    ∃ news, (ref.openRound Table.host initial ctx t).referee.events = ref.events ++ news ∧
      t.Replans (ref.openRound Table.host initial ctx t).host news := by
  cases initial with
  | true =>
    exact replans_evaluate { ref with draw := {}, gate := .closed } ctx t (.roundStart true) true
      (by decide)
  | false =>
    exact replans_evaluate ref ctx t (.roundStart false) ref.gate.isOpen fun _ => by decide

/-- Without effects that add cards, a pass turns cards of the opponent at most. -/
theorem length_opponent_evaluate {pass : Pass} (handsOpen : Bool)
    (cards : .addCardsToOpponentHand ∉ pass.effectKinds)
    (random : .addRandomCardsToOpponentHand ∉ pass.effectKinds) :
    (ref.evaluate ⟨Table.host, pass, handsOpen⟩ ctx t).host.opponent.length =
      t.opponent.length := by
  refine ref.host_evaluate _ ctx t (R := fun state => state.opponent.length = t.opponent.length)
    rfl ?_ (fun _ _ same => same)
  rintro - effect state applies same
  have kind := List.contains_iff_mem.1 applies
  cases effect with
  | replaceOpponentCards choice count =>
    cases choice <;> exact (Table.length_replaceAt _ _ _).trans same
  | addCards side choice count =>
    cases side with
    | player => exact same
    | opponent => exact absurd kind cards
  | addRandomCards side count =>
    cases side with
    | player => exact same
    | opponent => exact absurd kind random
  | _ => exact same

namespace DealPasses

variable {ref : Referee} {again : Bool} {t : Table} {first second : PassResult Table}

/-- Of the two passes that follow a deal, the board shows what becomes of the plan. -/
theorem replans (h : ref.DealPasses again t first second) (queue : ref.events = []) :
    t.Replans second.host second.referee.events := by
  obtain ⟨ctx, -, -, -, prepared⟩ := h.prepared
  obtain ⟨gate, ctx', -, opened⟩ := h.opened
  obtain ⟨news, added, replans⟩ := ref.replans_prepareRound ctx t again
  obtain ⟨more, added', replans'⟩ :=
    replans_openRound { first.referee with gate := gate } ctx' first.host (!again)
  rw [prepared] at added replans
  rw [opened] at added' replans'
  rw [added', added, queue]
  exact replans.append replans'

/-- After a reroll rules may turn the opponent's cards, and add none. -/
theorem length_opponent (h : ref.DealPasses true t first second) :
    second.host.opponent.length = t.opponent.length := by
  obtain ⟨ctx, -, -, -, prepared⟩ := h.prepared
  obtain ⟨gate, ctx', -, opened⟩ := h.opened
  have kept : second.host.opponent.length = first.host.opponent.length := by
    rw [← opened]
    exact length_opponent_evaluate _ ctx' first.host _ (by decide) (by decide)
  rw [kept, ← prepared]
  exact (congrArg List.length (hand_settlePlan true _ .opponent)).trans
    (length_opponent_evaluate _ ctx t _ (by decide) (by decide))

end DealPasses

end Referee

end Roshambo
