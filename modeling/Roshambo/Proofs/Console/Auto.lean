import Roshambo.Proofs.Console.Bookkeeping

/-!
# Automatic runs

While a round is active the strategy finds a card, and the game accepts it. Every turn takes one
card from the player's hand, so the round is finished before the turns run out that automatic play
allows itself. An automatic run therefore plays all its rounds to their ends.
-/
namespace Roshambo

theorem mem_of_bestCounter {hand : List Choice} {opponent : CardCounts} {choice : Choice}
    (chosen : bestCounter hand opponent = some choice) : choice ∈ hand := by
  unfold bestCounter at chosen
  split at chosen
  · rename_i found
    cases chosen
    simpa using List.find?_some found
  · exact List.mem_of_mem_head? chosen

namespace Game

/-- The card that automatic play would play. -/
def autoChoice (g : Game) : Option Choice :=
  bestCounter g.table.player (g.table.counts .opponent)

/-- The move is one of automatic play: a round is started when none is active, else the card of its
choice is played, and it is not refused. -/
inductive AutoMove (g : Game) : Move → Prop where
  | start (resting : g.stage ≠ .active) : AutoMove g .start
  | play {choice : Choice} {record : TurnRecord} (active : g.stage = .active)
      (chosen : g.autoChoice = some choice) (accepted : (g.play choice).1 = .ok record) :
      AutoMove g (.play choice)

variable {config : RoundSetup} {g : Game}

theorem AutoMove.inTurn {move : Move} (h : g.AutoMove move) : g.InTurn move := by
  cases h with
  | start resting => exact iff_of_true rfl resting
  | play active => exact iff_of_false (by simp) (not_not_intro active)

/-- The strategy finds a card that is accepted as long as the round is active. -/
theorem Sound.exists_autoMove (h : g.Sound config) (active : g.stage = .active) :
    ∃ choice record, g.autoChoice = some choice ∧ choice ∈ g.table.player ∧
      (g.play choice).1 = .ok record := by
  have found : g.autoChoice ≠ none := fun none =>
    h.stocked active .player ((bestCounter_eq_none_iff _ _).1 none)
  obtain ⟨choice, chosen⟩ := Option.ne_none_iff_exists'.1 found
  have held := mem_of_bestCounter chosen
  obtain ⟨record, accepted⟩ := (h.playAnswers choice).ok.2 ⟨active, held⟩
  exact ⟨choice, record, chosen, held, accepted⟩

end Game

namespace Console

open Game (starts)

/-- The run did not fail, made moves of automatic play only, started so many rounds and left none
of them active. -/
def AutoPlays (c : Console) (rounds : Nat) (result : Except Refusal Unit × Console) : Prop :=
  result.1 = .ok () ∧ result.2.game.stage ≠ .active ∧
    ∃ requests, c.Session Game.AutoMove requests result.2 ∧ starts requests = rounds

variable {config : RoundSetup} {c c' : Console}

theorem autoPlays_of_resting (resting : c.game.stage ≠ .active) : c.AutoPlays 0 (.ok (), c) :=
  ⟨rfl, resting, [], (Prints.refl c).session, rfl⟩

theorem AutoPlays.after {requests : List Request} {rounds : Nat}
    {result : Except Refusal Unit × Console} (h : c'.AutoPlays rounds result)
    (session : c.Session Game.AutoMove requests c') :
    c.AutoPlays (starts requests + rounds) result := by
  obtain ⟨ok, resting, later, rest, started⟩ := h
  exact ⟨ok, resting, requests ++ later, session.trans rest, by rw [Game.starts_append, started]⟩

/-- As many turns as there are cards in hand bring the round to its end. -/
theorem autoPlays_playTurns {turns : Nat} (reached : Game.Reached config c.game)
    (enough : c.game.table.player.length ≤ turns) : c.AutoPlays 0 (c.playTurns turns) := by
  induction turns generalizing c with
  | zero =>
    refine autoPlays_of_resting fun active => ?_
    exact reached.sound.stocked active .player (List.length_eq_zero_iff.1 (Nat.le_zero.1 enough))
  | succ turns ih =>
    by_cases active : c.game.stage = .active
    · obtain ⟨choice, record, chosen, held, accepted⟩ := reached.sound.exists_autoMove active
      obtain ⟨requests, command⟩ :=
        (does_play reached.sound choice).command (Game.AutoMove.play active chosen accepted)
      have next : c.playTurns (turns + 1) = (c.play choice).playTurns turns := by
        simp only [Game.autoChoice] at chosen
        simp only [playTurns, active, chosen, play, accepted, ne_eq, not_true_eq_false, if_false]
      have fewer : (c.play choice).game.table.player.length + 1 = c.game.table.player.length := by
        obtain ⟨-, -, taken⟩ := reached.sound.taken_of_play (Prod.ext accepted rfl)
        obtain ⟨lines, events, left⟩ := command.left
        rw [left]
        exact taken.length_hand held .player
      have noStart : starts requests = 0 := by
        rw [command.starts]
        simp [starts]
      have rest := (ih (command.reached reached) (by omega)).after command.toSession
      rw [noStart] at rest
      rw [next]
      exact rest
    · have stopped : c.playTurns (turns + 1) = (.ok (), c) := by
        simp only [playTurns, if_pos active]
      rw [stopped]
      exact autoPlays_of_resting active

theorem autoPlays_autoRound (reached : Game.Reached config c.game)
    (resting : c.game.stage ≠ .active) (room : c.round.toNat + 1 < UInt32.size) :
    c.AutoPlays 1 c.autoRound := by
  obtain ⟨requests, command⟩ :=
    (does_start reached.sound room).command (Game.AutoMove.start resting)
  have turns : c.autoRound = c.start.playTurns c.start.game.table.player.length := rfl
  have round := autoPlays_playTurns (command.reached reached) (Nat.le_refl _)
  have whole := round.after command.toSession
  rw [command.starts] at whole
  rw [turns]
  exact whole

theorem autoPlays_autoRounds {rounds : Nat} (reached : Game.Reached config c.game)
    (resting : c.game.stage ≠ .active) (room : c.round.toNat + rounds < UInt32.size) :
    c.AutoPlays rounds (c.autoRounds rounds) := by
  induction rounds generalizing c with
  | zero => exact autoPlays_of_resting resting
  | succ rounds ih =>
    have first := autoPlays_autoRound reached resting (by omega)
    unfold autoRounds
    generalize c.autoRound = result at first
    obtain ⟨answer, c'⟩ := result
    obtain ⟨rfl, resting', requests, session, started⟩ := first
    have count : c'.round.toNat = c.round.toNat + starts requests := session.round
    have rest := (ih (c := c') (session.reached reached) resting'
      (by omega)).after session
    rw [started, Nat.add_comm] at rest
    exact rest

/-- The requests of an automatic run over so many rounds, and what it prints last. -/
structure AutoRun (c : Console) (rounds : UInt32) (requests : List Request) (c' : Console) :
    Prop where
  game : c'.game = c.game.served requests
  moves : c.game.Along Game.AutoMove requests
  /-- The strategy finds a card whenever a round is active. -/
  chooses : ∀ before after, requests = before ++ after → (c.game.served before).stage = .active →
    (c.game.served before).autoChoice ≠ none
  started : starts requests = rounds.toNat
  finished : (c.game.scorecards requests).length = rounds.toNat
  rested : c'.game.stage ≠ .active
  total : Saturating.Fits (c.game.scored requests) →
    c'.printed.back? = some (totalLine rounds.toNat (c.game.scored requests))

/-- Automatic play completes all its rounds, whatever the setup and the rules are. -/
theorem autoRun_completes (options : Options) (setup : RoundSetup) (rules : List Rule)
    (rounds : UInt32) :
    ((options.console setup rules).autoRun rounds).1 = .ok () ∧
      ∃ requests, (options.console setup rules).AutoRun rounds requests
        ((options.console setup rules).autoRun rounds).2 := by
  have fresh := fresh_console options setup rules
  have resting : (options.console setup rules).game.stage ≠ .active := by
    simp [fresh.idle]
  have room : (options.console setup rules).round.toNat + rounds.toNat < UInt32.size := by
    rw [fresh.round]
    exact (Nat.zero_add _).symm ▸ rounds.toNat_lt
  have played := autoPlays_autoRounds fresh.reached resting room
  unfold autoRun
  generalize (options.console setup rules).autoRounds rounds.toNat = result at played
  obtain ⟨answer, c'⟩ := result
  obtain ⟨rfl, rested, requests, session, started⟩ := played
  refine ⟨rfl, requests, session.game, session.along, ?_, started, ?_, rested, fun fits => ?_⟩
  · rintro before after - active none
    have player := (fresh.reached.served before).sound.stocked active .player
    exact player ((bestCounter_eq_none_iff _ _).1 none)
  · have inTurn := session.along.mono fun _ _ auto => auto.inTurn
    have balance := fresh.reached.starts_add_inPlay inTurn
    rw [← session.game] at balance
    simp only [Game.inPlay, resting, rested, if_false, started] at balance
    omega
  · rw [← started]
    exact session.printed_close fresh fits

end Console
end Roshambo
