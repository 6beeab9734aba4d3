import Roshambo.Proofs.Round.Invariant

/-!
# Reveals come true

A card revealed at turn start is the one drawn in that turn. A card revealed at settlement stays in
front of the opponent's hand, and the draw order holds the next draw to the front, until a turn
takes it or the round is over: nothing that can happen in between touches the hand or the switches.
-/
namespace Roshambo

namespace Log

/-- No card is revealed and then another one drawn in its place. A card revealed at turn start is
the next that the log resolves. A settlement comes before its own turn is resolved in the log, so a
card revealed there is the next but one, if the round goes on that far. -/
def RevealsKept (log : List Event) : Prop :=
  ∀ before rule card after, log = before ++ .cardRevealed rule card :: after →
    (lastPhase before = some .turnStart ∧ (drawnCards after).head? = some card) ∨
      (lastPhase before = some .turnSettlement ∧
        ∀ next, (drawnCards after)[1]? = some next → next = card)

end Log

namespace Game

/-- The state of a reveal, told from the log before and after it and from the game that has come
of it. -/
inductive Told (g : Game) (before : List Event) (card : Choice) (after : List Event) : Prop where
  | atStart (phase : Log.lastPhase before = some .turnStart)
      (next : (Log.drawnCards after).head? = some card)
  | drawn (phase : Log.lastPhase before = some .turnSettlement)
      (next : (Log.drawnCards after)[1]? = some card)
  | ended (phase : Log.lastPhase before = some .turnSettlement)
      (last : (Log.drawnCards after).length = 1) (started : after.any Event.startsRound = true)
  | pending (phase : Log.lastPhase before = some .turnSettlement)
      (last : (Log.drawnCards after).length = 1) (round : after.any Event.startsRound = false)
      (played : g.played ≠ []) (front : g.table.opponent.head? = some card)
      (held : g.referee.draw.always = true ∨ g.referee.draw.once = true)

variable {g g' : Game} {before after news : List Event} {card : Choice}

/-- Quiet news keep a reveal as it is, unless it is pending and its round is over. -/
theorem Told.append_quiet (h : g.Told before card after) (quiet : Log.Quiet news)
    (same : news.any Event.startsRound = false → g.played ≠ [] →
      g'.played = g.played ∧ g'.table.opponent = g.table.opponent ∧
        g'.referee.draw = g.referee.draw) :
    g'.Told before card (after ++ news) := by
  have cards : Log.drawnCards (after ++ news) = Log.drawnCards after := by
    rw [Log.drawnCards_append, quiet.drawnCards_eq, ite_self, List.append_nil]
  cases h with
  | atStart phase next => exact .atStart phase (cards ▸ next)
  | drawn phase next => exact .drawn phase (cards ▸ next)
  | ended phase last started => exact .ended phase (cards ▸ last) (by simp [started])
  | pending phase last round played front held =>
    cases starts : news.any Event.startsRound with
    | true => exact .ended phase (cards ▸ last) (by simp [starts])
    | false =>
      obtain ⟨samePlayed, sameHand, sameDraw⟩ := same starts played
      refine .pending phase (cards ▸ last) (by simp [round, starts]) ?_ ?_ ?_
      · exact samePlayed ▸ played
      · exact sameHand ▸ front
      · exact sameDraw ▸ held

/-- A pending reveal is drawn when the next turn of the round is taken. -/
theorem Told.append_turn {choice drawn : Choice} (h : g.Told before card after)
    (taken : g.Settled choice drawn g') (cards : Log.drawnCards news = [drawn]) :
    g'.Told before card (after ++ news) := by
  cases h with
  | atStart phase next =>
    refine .atStart phase ?_
    rw [Log.drawnCards_append, List.head?_append, next]
    rfl
  | drawn phase next =>
    refine .drawn phase ?_
    obtain ⟨inside, eq⟩ := List.getElem?_eq_some_iff.1 next
    rw [Log.drawnCards_append, List.getElem?_append_left inside, next]
  | ended phase last started =>
    refine .ended phase ?_ (by simp [started])
    rw [Log.drawnCards_append, started, if_pos rfl, List.append_nil, last]
  | pending phase last round played front held =>
    refine .drawn phase ?_
    rw [Log.drawnCards_append, round, cards, List.getElem?_append_right (Nat.le_of_eq last), last,
      ← front, taken.front held]
    rfl

/-- Every reveal in the log has come true or still can. -/
def Reveals (g : Game) : Prop := Log.AtReveals g.Told g.events

theorem Reveals.of_quiet (h : g.Reveals) (log : g'.events = g.events ++ news)
    (quiet : Log.Quiet news)
    (same : news.any Event.startsRound = false → g.played ≠ [] →
      g'.played = g.played ∧ g'.table.opponent = g.table.opponent ∧
        g'.referee.draw = g.referee.draw) : g'.Reveals := by
  rw [Reveals, log]
  exact (h.mono fun _ _ _ told => told.append_quiet quiet same).append quiet.atReveals

theorem Reveals.of_settled {choice drawn : Choice} (h : g.Reveals)
    (taken : g.Settled choice drawn g') : g'.Reveals := by
  obtain ⟨opening, settling, closing, delta, total, log, events⟩ := taken.log
  have last : ∀ rest, Log.WithinTurn rest → Log.drawnCards (rest ++ .turnResolved g.table.turn
      choice drawn (judge choice drawn) delta total :: closing) = [drawn] := by
    intro rest within
    rw [within.drawnCards_append, Log.drawnCards_turnResolved events.closes]
  have played : g'.played ≠ [] := by simp [taken.played]
  rw [Reveals, log]
  refine .append (h.mono fun _ _ _ told => ?_)
    (.append (.append ?_ ?_) (.cons rfl events.silent.atReveals))
  · exact told.append_turn taken (last _ (events.opens.append events.settles))
  · intro before rule card after eq
    obtain ⟨phase, rfl⟩ := events.shown before rule card after eq
    have within := events.opens.atReveals before rule card after eq
    refine .atStart (Log.lastPhase_append_of_some _ phase) ?_
    rw [last _ (within.append events.settles)]
    rfl
  · intro before rule card after eq
    obtain ⟨phase, front, once⟩ := events.shownNext before rule card after eq
    have within := events.settles.atReveals before rule card after eq
    have inPhase := Log.lastPhase_append_of_some (g.events ++ opening) phase
    rw [List.append_assoc] at inPhase
    refine .pending inPhase ?_ ?_ played front (.inr once)
    · rw [last _ within]
      rfl
    · rw [List.any_append, within.any_startsRound, List.any_cons, events.closes.any_startsRound]
      rfl

theorem Reveals.of_step {move : Move} (h : g.Reveals) (step : g.Step move g') : g'.Reveals := by
  cases step with
  | refused => exact h
  | rules _ same =>
    obtain ⟨news, log, quiet, _⟩ := same.log
    obtain ⟨lines, table⟩ := same.table
    exact h.of_quiet log quiet fun _ _ => ⟨same.played, by rw [table], same.draw⟩
  | start started =>
    obtain ⟨news, log, quiet, starts⟩ := started.log
    exact h.of_quiet log quiet fun none => absurd (none.symm.trans starts) Bool.false_ne_true
  | reroll _ fresh _ rerolled =>
    obtain ⟨news, log, quiet⟩ := rerolled.log
    exact h.of_quiet log quiet fun _ played => absurd fresh played
  | play _ _ taken => exact h.of_settled taken.toSettled

theorem reveals_run (config : RoundSetup) (seed : UInt64) (moves : List Move) :
    ((ofSeed config seed).run moves).Reveals :=
  step_induction (Log.Quiet.atReveals (by simp [ofSeed, Log.Quiet]))
    (fun _ _ _ _ h step => h.of_step step) moves

/-- Whatever is done to a game, no card is drawn in place of one that was revealed. -/
theorem revealsKept_run (config : RoundSetup) (seed : UInt64) (moves : List Move) :
    Log.RevealsKept ((ofSeed config seed).run moves).events := by
  intro before rule card after eq
  cases reveals_run config seed moves before rule card after eq with
  | atStart phase next => exact .inl ⟨phase, next⟩
  | drawn phase next =>
    refine .inr ⟨phase, fun other found => ?_⟩
    exact Option.some.inj (found.symm.trans next)
  | ended phase last => exact .inr ⟨phase, fun other found => by simp [last] at found⟩
  | pending phase last => exact .inr ⟨phase, fun other found => by simp [last] at found⟩

/-- In a round of two turns the paper revealed when the first is settled is the card that beats
rock in the second. -/
theorem revealsKept_run_two_turns :
    let hand : HandSetup := ⟨1, 1, 0, 0⟩
    let rule : Rule :=
      { name := "Foresight"
        tags := [.timing .roundPrepare, .timing .turnStart, .timing .turnSettlement,
          .effect { effect := .addCards .player .rock 1 },
          .effect { effect := .addCards .opponent .paper 1 },
          .effect { effect := .revealNextOpponentCard }] }
    let g := (ofSeed ⟨2, 0, hand, hand, .standard⟩ 0).run
      [.enable rule, .start, .play .rock, .play .rock]
    g.events.filterMap Event.revealed? = [.rock, .paper, .paper] ∧ g.outcomes = [.draw, .loss] ∧
      Log.RevealsKept g.events := by
  refine ⟨by decide, by decide, ?_⟩
  exact revealsKept_run _ 0 _

end Game
end Roshambo
