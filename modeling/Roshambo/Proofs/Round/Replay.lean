import Roshambo.Proofs.Round.Board
import Roshambo.Proofs.Round.Course

/-!
# Replaying the log

Every call logs what it changes of the board, once and in an order in which it can be noted down:
rules that come and go as they are switched, a deal by the hands and the plan that its passes leave,
a turn after its two passes and the end of the round last. So the events of a game, taken whenever
the caller likes and put one after another, rebuild the board after every call.
-/
namespace Roshambo

namespace ActiveRules

theorem names_append (rules : List Rule) (rule : Rule) :
    names ⟨rules ++ [rule]⟩ = names ⟨rules⟩ ++ [rule.name] :=
  List.map_append

theorem names_filter (rules : List Rule) (name : String) :
    names ⟨rules.filter (·.name != name)⟩ = (names ⟨rules⟩).filter (· != name) := by
  simp only [names, List.filter_map]
  rfl

end ActiveRules

namespace Referee

/-- Replayed, what the referee has heard since changes no more of a board than its rules. -/
def Retells (ref ref' : Referee) : Prop :=
  ∃ news, ref'.events = ref.events ++ news ∧
    ∀ b : Board, b.rules = ref.active.names → b.replay news = { b with rules := ref'.active.names }

variable (ref : Referee) (rule : Rule)

theorem Retells.trans {ref₁ ref₂ ref₃ : Referee} (h : ref₁.Retells ref₂) (h' : ref₂.Retells ref₃) :
    ref₁.Retells ref₃ := by
  obtain ⟨news, added, told⟩ := h
  obtain ⟨more, added', told'⟩ := h'
  refine ⟨news ++ more, by rw [added', added, List.append_assoc], fun b rules => ?_⟩
  rw [Board.replay_append, told b rules, told' { b with rules := ref₂.active.names } rfl]

/-- One event that tells the new rules. -/
theorem retells_emit {active : ActiveRules} {event : Event}
    (told : ∀ b : Board, b.rules = ref.active.names →
      b.note event = { b with rules := active.names }) :
    ref.Retells ({ ref with active := active }.emit event) :=
  ⟨[event], rfl, told⟩

/-- A rule that is switched on stands behind the others. -/
theorem retells_append : ref.Retells ({ ref with
    active := ⟨ref.active.rules ++ [rule]⟩ }.emit (.ruleToggled rule.name true)) := by
  refine ref.retells_emit fun b rules => ?_
  rw [ActiveRules.names_append]
  exact congrArg (fun names => { b with rules := names ++ [rule.name] }) rules

theorem retells_filter (name : String) : ref.Retells ({ ref with
    active := ⟨ref.active.rules.filter (·.name != name)⟩ }.emit (.ruleToggled name false)) := by
  refine ref.retells_emit fun b rules => ?_
  rw [ActiveRules.names_filter]
  exact congrArg (fun names => { b with rules := names.filter (· != name) }) rules

theorem retells_enable : ref.Retells (ref.enable rule).2 := by
  cases present : ref.active.contains rule.name with
  | true =>
    have same : (ref.enable rule).2 = ref := by
      simp only [enable, ActiveRules.enable, present, if_true]
    rw [same]
    exact ⟨[], (List.append_nil _).symm, fun b rules => by rw [← rules]; rfl⟩
  | false =>
    have added : (ref.enable rule).2 = { ref with
        active := ⟨ref.active.rules ++ [rule]⟩ }.emit (.ruleToggled rule.name true) := by
      simp only [enable, ActiveRules.enable, present, Bool.false_eq_true, if_false]
    rw [added]
    exact ref.retells_append rule

theorem retells_toggle : ref.Retells (ref.toggle rule).2 := by
  cases present : ref.active.contains rule.name with
  | true =>
    have removed : (ref.toggle rule).2 = { ref with
        active := ⟨ref.active.rules.filter (·.name != rule.name)⟩ }.emit
          (.ruleToggled rule.name false) := by
      simp only [toggle, ActiveRules.toggle, ActiveRules.disable, present]
      rfl
    rw [removed]
    exact ref.retells_filter rule.name
  | false =>
    have added : (ref.toggle rule).2 = { ref with
        active := ⟨ref.active.rules ++ [rule]⟩ }.emit (.ruleToggled rule.name true) := by
      simp only [toggle, ActiveRules.toggle, ActiveRules.disable, present,
        ActiveRules.filter_of_not_contains present]
      rfl
    rw [added]
    exact ref.retells_append rule

theorem retells_clear : ref.Retells ref.clear :=
  ref.retells_emit fun _ _ => rfl

theorem retells_recheckRules {σ : Type} (host : Host σ) (ctx : Context) (state : σ) :
    ref.Retells (ref.recheckRules host ctx state).referee := by
  obtain ⟨news, added, told⟩ := ref.news_evaluate ⟨host, .roundStart false, ref.gate.isOpen⟩
    (fun _ => rfl) ctx state
  rw [recheckRules_eq]
  refine ⟨news, added, fun b rules => ?_⟩
  rw [Board.replay_of_emits told.emits]
  exact congrArg (fun names => { b with rules := names }) rules

/-- What a pass adds to the events does not show on the board. -/
theorem Hears.unseen {σ : Type} {ref ref' : Referee} {setting : PassSetting σ}
    {front : Option Choice} (hears : ref.Hears setting front ref') :
    ∃ news, ref'.events = ref.events ++ news ∧ ∀ b : Board, b.replay news = b := by
  obtain ⟨news, added, told⟩ := hears.news
  exact ⟨news, added, Board.replay_of_emits told.emits⟩

end Referee

namespace Game

/-- What the second game has logged since the first takes the board of the one to that of the
other. -/
def Logged (g g' : Game) : Prop :=
  ∃ news, g'.events = g.events ++ news ∧ g.board.replay news = g'.board

variable {config : RoundSetup} {g g' : Game}

theorem Logged.refl (g : Game) : g.Logged g := ⟨[], (List.append_nil _).symm, rfl⟩

theorem Logged.trans {g'' : Game} (h : g.Logged g') (h' : g'.Logged g'') : g.Logged g'' := by
  obtain ⟨news, added, board⟩ := h
  obtain ⟨more, added', board'⟩ := h'
  refine ⟨news ++ more, by rw [added', added, List.append_assoc], ?_⟩
  rw [Board.replay_append, board, board']

/-! ## Rules and deals -/

theorem logged_collect {ref : Referee} {table : Table} (queue : g.referee.events = [])
    (retells : g.referee.Retells ref) (shows : ∃ lines, table = { g.table with shown := lines }) :
    g.Logged { g with table := table, referee := ref : Game }.collect := by
  obtain ⟨news, added, told⟩ := retells
  obtain ⟨lines, rfl⟩ := shows
  refine ⟨news, ?_, told g.board rfl⟩
  show g.events ++ ref.events = _
  rw [added, queue, List.nil_append]

theorem logged_toggle (rule : Rule) (queue : g.referee.events = [])
    (closed : g.referee.gate = .closed) : g.Logged (g.toggle rule).2 := by
  have retells := g.referee.retells_toggle rule
  by_cases active : g.stage = .active
  · simp only [toggle, if_pos active]
    have shut : (g.referee.toggle rule).2.gate = .closed :=
      (g.referee.learns_toggle rule).gate.trans closed
    exact logged_collect queue (retells.trans (Referee.retells_recheckRules _ _ _ _))
      (Referee.recheckRules_host_closed _ _ shut _)
  · simp only [toggle, if_neg active]
    exact logged_collect queue retells ⟨_, rfl⟩

theorem Sound.logged_start (sound : g.Sound config) : g.Logged g.start.2 := by
  have small := (sound.of_started (started_start sound.queue)).length_lt .opponent
  obtain ⟨first, second, passes, eq⟩ := g.start_eq
  rw [eq] at small ⊢
  have size : (second.host.counts .opponent).size = second.host.opponent.length :=
    CardCounts.size_ofHand small
  have total : second.host.total = 0 := passes.grows.total
  -- Whatever the passes say of the plan, the start of the round is logged after them.
  obtain ⟨plan, noted, -⟩ := passes.replans sound.queue g.board
  refine ⟨second.referee.events ++ [_], List.append_assoc _ _ _, ?_⟩
  rw [Board.replay_append, noted]
  simp only [board, Board.replay, List.foldl_cons, List.foldl_nil, Board.note, passes.active, size,
    total]

theorem logged_reroll (queue : g.referee.events = []) (active : g.stage = .active)
    (fresh : g.played = []) (left : g.table.rerollsLeft ≠ 0) : g.Logged g.reroll.2 := by
  obtain ⟨first, second, passes, eq⟩ := reroll_eq active fresh left
  have grown := passes.grows
  have player : second.host.counts .player = g.table.redealPlayer.counts .player :=
    congrArg CardCounts.ofHand passes.player
  have rerolls : second.host.rerollsLeft = g.table.redealPlayer.rerollsLeft := by
    unfold Table.rerollsLeft
    rw [grown.rerolls, grown.setup]
  have total : second.host.total = g.table.total := grown.total
  have opponent : second.host.opponent.length = g.table.opponent.length := passes.length_opponent
  -- The new hand is logged before the passes, and they leave it as it was dealt.
  obtain ⟨plan, noted, plans⟩ := passes.replans queue
    (g.board.note (.handRerolled (g.table.redealPlayer.counts .player)
      g.table.redealPlayer.rerollsLeft))
  rw [eq]
  refine ⟨[_] ++ second.referee.events, List.append_assoc _ _ _, ?_⟩
  refine noted.trans ?_
  simp only [board, Board.note, passes.active, player, rerolls, total, opponent, plans rfl]

/-! ## Turns -/

theorem logged_finish (queue : g.referee.events = []) : g.Logged g.finish.2 := by
  obtain ⟨lines, total, adjustment, ref, finished, hears⟩ := g.finish_frame
  obtain ⟨news, added, unseen⟩ := hears.unseen
  rw [queue, List.nil_append] at added
  rw [finished]
  refine ⟨ref.events ++ [_], List.append_assoc _ _ _, ?_⟩
  rw [added, Board.replay_append, unseen]
  simp only [board, hears.active]
  rfl

/-- The two passes of a turn say nothing of it; the event of its resolution says it all. -/
theorem logged_settled {choice : Choice} (queue : g.referee.events = [])
    (held : choice ∈ g.table.player) (stocked : g.table.opponent ≠ []) :
    ∃ card paired, g.beginTurn.2.exchange choice = (some card, paired) ∧
      (paired.settleTurn choice card).2.referee.events = [] ∧
      g.Logged (paired.settleTurn choice card).2 := by
  obtain ⟨lines, total, ref, begun, hears⟩ := g.beginTurn_frame
  obtain ⟨opening, added, unseen⟩ := hears.unseen
  rw [queue, List.nil_append] at added
  obtain ⟨card, place, random, exchanged, found, -⟩ := exchange_frame
    (g := { g with table := { g.table with shown := lines, total := total }, referee := ref })
    held stocked
  rw [begun]
  refine ⟨card, _, exchanged, ?_⟩
  obtain ⟨lines', total', delta, ref', settled, hears'⟩ := settleTurn_frame
    { g with
      table := { g.table with
        shown := lines, total := total
        player := g.table.player.erase choice
        opponent := g.table.opponent.eraseIdx place, random := random }
      referee := { ref with draw := ref.draw.next.2 } } choice card
  obtain ⟨settling, added', unseen'⟩ := hears'.unseen
  rw [settled]
  refine ⟨rfl, ref'.events ++ [_], List.append_assoc _ _ _, ?_⟩
  have inside : place < g.table.opponent.length := (List.getElem?_eq_some_iff.1 found).1
  have active : ref'.active = g.referee.active := hears'.active.trans hears.active
  have player : CardCounts.ofHand (g.table.player.erase choice) =
      (CardCounts.ofHand g.table.player).less choice := CardCounts.ofHand_erase held
  have opponent : (g.table.opponent.eraseIdx place).length = g.table.opponent.length - 1 :=
    List.length_eraseIdx_of_lt inside
  rw [added', added, Board.replay_append, Board.replay_append, unseen, unseen']
  simp only [board, Table.counts, Table.hand, active, player, opponent]
  rfl

theorem Sound.logged_play (sound : g.Sound config) (choice : Choice) :
    g.Logged (g.play choice).2 := by
  rcases play_cases choice sound.queue with ⟨_, eq⟩ | ⟨_, _, eq⟩ | ⟨active, _, empty, _⟩ |
    ⟨active, held, record, g', eq, _⟩
  · rw [eq]
    exact .refl g
  · rw [eq]
    exact .refl g
  · exact absurd empty (sound.stocked active .opponent)
  · obtain ⟨paired, course⟩ := course_of_play eq
    obtain ⟨card, paired', drawn, empty, logged⟩ := logged_settled sound.queue
      (Table.mem_of_counts_ne_zero held) (sound.stocked active .opponent)
    obtain ⟨same, rfl⟩ := Prod.mk.inj (course.drawn.symm.trans drawn)
    obtain rfl := Option.some.inj same
    obtain ⟨settlement, settled, settles, closing⟩ := course.closing
    rw [settles] at empty logged
    rw [eq]
    rcases closing with ⟨-, rfl, -, -⟩ | ⟨-, rfl, -, -⟩
    · exact logged
    · exact logged.trans (logged_finish empty)

/-! ## Runs -/

/-- Every move logs what it does to the board. -/
theorem Sound.logged_after (sound : g.Sound config) (move : Move) : g.Logged (g.after move) := by
  cases move with
  | enable rule => exact logged_collect sound.queue (g.referee.retells_enable rule) ⟨_, rfl⟩
  | toggle rule => exact logged_toggle rule sound.queue sound.gate
  | clear => exact logged_collect sound.queue g.referee.retells_clear ⟨_, rfl⟩
  | start => exact sound.logged_start
  | reroll =>
    show g.Logged g.reroll.2
    rcases reroll_refused_or sound.queue with ⟨refusal, eq⟩ | ⟨active, fresh, left⟩
    · rw [eq]
      exact .refl g
    · exact logged_reroll sound.queue active fresh left
  | play choice => exact sound.logged_play choice

theorem Reached.logged_served (reached : Reached config g) (requests : List Request) :
    ∃ news, g.log requests = g.events ++ news ∧
      g.board.replay news = (g.served requests).board := by
  induction requests generalizing g with
  | nil => exact ⟨[], (List.append_nil _).symm, rfl⟩
  | cons request requests ih =>
    obtain ⟨news, logged, board⟩ := ih (reached.serve request)
    rw [log_cons, logged, served_cons, ← board]
    cases request with
    | make move =>
      obtain ⟨first, added, board'⟩ := reached.sound.logged_after move
      refine ⟨first ++ news, ?_, ?_⟩
      · show (g.after move).events ++ news = _
        rw [added, List.append_assoc]
      · rw [Board.replay_append, board']
        rfl
    | takeEvents => exact ⟨news, rfl, rfl⟩
    | takeLines => exact ⟨news, rfl, rfl⟩

theorem board_ofSeed (config : RoundSetup) (seed : UInt64) :
    (ofSeed config seed).board = Board.initial config := by
  have left : (ofSeed config seed).table.rerollsLeft = config.maxRerolls := by
    show (if 0 ≤ config.maxRerolls then config.maxRerolls - 0 else 0) = config.maxRerolls
    rw [if_pos UInt32.zero_le, UInt32.sub_zero]
  simp only [board, left]
  rfl

/-- Whatever is asked of a new game, its events rebuild the board from the one before the first
round, no matter when they are taken. -/
theorem replay_log (config : RoundSetup) (seed : UInt64) (requests : List Request) :
    (Board.initial config).replay ((ofSeed config seed).log requests) =
      ((ofSeed config seed).served requests).board := by
  have reached : Reached config (ofSeed config seed) := .ofSeed seed
  obtain ⟨news, logged, board⟩ := reached.logged_served requests
  rw [logged, ← board, board_ofSeed]
  rfl

end Game

end Roshambo
