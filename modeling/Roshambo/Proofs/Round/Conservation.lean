import Mathlib.Data.List.Perm.Basic
import Roshambo.Proofs.Round.Course
import Roshambo.Proofs.Round.Invariant

/-!
# Conservation of cards

From a deal to the next one cards only go from the hands to the table: a turn takes one card out of
each, rules that would turn or add cards come too late, and a refused call touches nothing. So what
is still held and what was played are together the hands that were dealt.
-/
namespace Roshambo.Game

/-- Where the cards that were dealt are after the turns with these records. -/
structure Conserved (dealt g : Game) (records : List TurnRecord) : Prop where
  player : (g.table.player ++ g.played).Perm dealt.table.player
  opponent : (g.table.opponent ++ records.map (·.opponent)).Perm dealt.table.opponent
  played : g.played = records.map (·.player)
  outcomes : g.outcomes = records.map fun record => judge record.player record.opponent

/-- A card that leaves a hand joins those that left it before. -/
theorem perm_of_moved {rest hand gone : List Choice} {card : Choice}
    (moved : (card :: rest).Perm hand) : (rest ++ (gone ++ [card])).Perm (hand ++ gone) := by
  rw [← List.append_assoc]
  exact (List.perm_append_singleton card (rest ++ gone)).trans (moved.append_right gone)

variable {config : RoundSetup} {dealt g g' : Game} {records : List TurnRecord}

theorem Conserved.of_sameRound (h : dealt.Conserved g records) (same : g.SameRound g') :
    dealt.Conserved g' records := by
  obtain ⟨lines, table⟩ := same.table
  refine ⟨?_, ?_, ?_, ?_⟩
  · rw [table, same.played]
    exact h.player
  · rw [table]
    exact h.opponent
  · rw [same.played]
    exact h.played
  · rw [same.outcomes]
    exact h.outcomes

theorem Conserved.of_settled {record : TurnRecord} (h : dealt.Conserved g records)
    (held : record.player ∈ g.table.player)
    (settled : g.Settled record.player record.opponent g') :
    dealt.Conserved g' (records ++ [record]) := by
  obtain ⟨place, found, left⟩ := settled.drawn
  obtain ⟨inside, drawn⟩ := List.getElem?_eq_some_iff.1 found
  refine ⟨?_, ?_, ?_, ?_⟩
  · rw [settled.player, settled.played]
    exact (perm_of_moved (List.perm_cons_erase held).symm).trans h.player
  · have moved : (record.opponent :: g.table.opponent.eraseIdx place).Perm g.table.opponent := by
      rw [← drawn]
      exact List.getElem_cons_eraseIdx_perm inside
    rw [left, List.map_append]
    exact (perm_of_moved moved).trans h.opponent
  · rw [settled.played, h.played, List.map_append]
    rfl
  · rw [settled.outcomes, h.outcomes, List.map_append]
    rfl

/-- An answer without a record adds none. -/
theorem Conserved.unplayed (h : dealt.Conserved g records) {answer : Answer}
    (none : answer.record? = none) : dealt.Conserved g (records ++ answer.record?.toList) := by
  rw [none, Option.toList_none, List.append_nil]
  exact h

/-- A move that deals no cards loses none. -/
theorem Conserved.after (h : dealt.Conserved g records) (sound : g.Sound config) (move : Move)
    (keeps : (g.answerTo move).deals = false) :
    dealt.Conserved (g.after move) (records ++ (g.answerTo move).record?.toList) := by
  cases move with
  | enable rule => exact (h.of_sameRound (sameRound_enable rule sound.queue)).unplayed rfl
  | toggle rule =>
    exact (h.of_sameRound (sameRound_toggle rule sound.queue sound.gate)).unplayed rfl
  | clear => exact (h.of_sameRound (sameRound_clear sound.queue)).unplayed rfl
  | start => cases keeps
  | reroll =>
    simp only [Game.after, answerTo] at keeps ⊢
    rcases reroll_refused_or sound.queue with ⟨refusal, eq⟩ | ⟨active, fresh, left⟩
    · rw [eq]
      exact h.unplayed rfl
    · obtain ⟨reports, g', eq, -⟩ := rerolled_reroll sound.queue active fresh left
      rw [eq] at keeps
      cases keeps
  | play choice =>
    simp only [Game.after, answerTo]
    rcases play_cases choice sound.queue with ⟨_, eq⟩ | ⟨_, _, eq⟩ | ⟨active, _, empty, _⟩ |
      ⟨active, held, record, g', eq, taken⟩
    · rw [eq]
      exact h.unplayed rfl
    · rw [eq]
      exact h.unplayed rfl
    · exact absurd empty (sound.stocked active .opponent)
    · obtain rfl := player_of_play eq
      rw [eq]
      exact h.of_settled (Table.mem_of_counts_ne_zero held) taken.toSettled

theorem Conserved.takeEvents (h : dealt.Conserved g records) :
    dealt.Conserved g.takeEvents.2 records :=
  ⟨h.player, h.opponent, h.played, h.outcomes⟩

theorem Conserved.takeLines (h : dealt.Conserved g records) :
    dealt.Conserved g.takeLines.2 records :=
  ⟨h.player, h.opponent, h.played, h.outcomes⟩

/-- Requests that deal no cards lose none. -/
theorem Conserved.served (h : dealt.Conserved g records) (reached : Reached config g)
    (requests : List Request) (keep : ∀ answer ∈ g.answers requests, answer.deals = false) :
    dealt.Conserved (g.served requests)
      (records ++ (g.answers requests).filterMap Answer.record?) := by
  induction requests generalizing g records with
  | nil =>
    rw [answers_nil, List.filterMap_nil, List.append_nil]
    exact h
  | cons request requests ih =>
    rw [answers_cons, List.forall_mem_append] at keep
    rw [answers_cons, List.filterMap_append, ← List.append_assoc, served_cons]
    refine ih ?_ (reached.serve request) keep.2
    cases request with
    | make move =>
      have kept := h.after reached.sound move (keep.1 _ (List.mem_singleton_self _))
      have record : [g.answerTo move].filterMap Answer.record? =
          (g.answerTo move).record?.toList := by
        cases answer : (g.answerTo move).record? <;> simp [answer]
      exact record ▸ kept
    | takeEvents => exact (List.append_nil records).symm ▸ h.takeEvents
    | takeLines => exact (List.append_nil records).symm ▸ h.takeLines

/-- Nothing of a new hand has been played. -/
theorem fresh_of_deals (sound : g.Sound config) {move : Move}
    (deals : (g.answerTo move).deals = true) :
    (g.after move).played = [] ∧ (g.after move).outcomes = [] := by
  cases move with
  | start =>
    have started := started_start sound.queue
    exact ⟨started.played, started.outcomes⟩
  | reroll =>
    simp only [Game.after, answerTo] at deals ⊢
    rcases reroll_refused_or sound.queue with ⟨refusal, eq⟩ | ⟨active, fresh, left⟩
    · rw [eq] at deals
      cases deals
    · obtain ⟨reports, g', eq, rerolled⟩ := rerolled_reroll sound.queue active fresh left
      have histories := sound.histories
      rw [fresh] at histories
      rw [eq]
      exact ⟨rerolled.played.trans fresh,
        rerolled.outcomes.trans (List.eq_nil_of_length_eq_zero histories.symm)⟩
  | enable _ => cases deals
  | toggle _ => cases deals
  | clear => cases deals
  | play choice =>
    simp only [answerTo] at deals
    cases deals

/-- From a start or a reroll that is not refused until the next one, whatever is asked of the game
in between, every card that was dealt is still held or was played. -/
theorem conserved_since_deal (reached : Reached config g) (move : Move)
    (deals : (g.answerTo move).deals = true) (later : List Request)
    (keep : ∀ answer ∈ (g.after move).answers later, answer.deals = false) :
    (g.after move).Conserved ((g.after move).served later)
      (((g.after move).answers later).filterMap Answer.record?) := by
  obtain ⟨played, outcomes⟩ := fresh_of_deals reached.sound deals
  have base : (g.after move).Conserved (g.after move) [] := by
    refine ⟨?_, ?_, played, outcomes⟩
    · rw [played, List.append_nil]
    · rw [List.map_nil, List.append_nil]
  exact base.served (reached.after move) later keep

/-- A rule that would turn cards comes after the reroll, and a second reroll too late. -/
theorem conserved_since_deal_two_turns :
    let landslide : Rule := { name := "Landslide", tags :=
      [.timing .roundStart, .effect ⟨.replaceOpponentCards .rock 2, {}⟩] }
    let config : RoundSetup := ⟨3, 2, ⟨4, 1, 1, 1⟩, ⟨4, 0, 1, 1⟩, .standard⟩
    let g := (ofSeed config 5).run [.start]
    let later : List Request := [.make (.toggle landslide), .make (.play .rock), .takeEvents,
      .make .reroll, .takeLines, .make (.play .paper)]
    (g.answerTo .reroll).deals = true ∧
      (∀ answer ∈ (g.after .reroll).answers later, answer.deals = false) ∧
      (((g.after .reroll).answers later).filterMap Answer.record?).length = 2 ∧
      (g.after .reroll).Conserved ((g.after .reroll).served later)
        (((g.after .reroll).answers later).filterMap Answer.record?) := by
  intro landslide config g later
  have reached : Reached config g := (Reached.ofSeed 5).run _
  have deals : (g.answerTo .reroll).deals = true := by decide +kernel
  have keep : ∀ answer ∈ (g.after .reroll).answers later, answer.deals = false := by
    decide +kernel
  exact ⟨deals, keep, by decide +kernel, conserved_since_deal reached .reroll deals later keep⟩

end Roshambo.Game
