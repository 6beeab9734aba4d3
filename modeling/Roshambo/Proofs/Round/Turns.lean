import Roshambo.Proofs.Round.Deals

/-!
# A turn of the round

A turn that is not refused runs its two passes with closed hands, so what leaves the hands is the
player's card and the opponent's, and nothing else. A reveal before the draw comes true in this
turn, one after it is kept by the draw order for the next.
-/
namespace Roshambo

theorem Table.mem_of_counts_ne_zero {t : Table} {choice : Choice}
    (h : (t.counts .player).get choice ≠ 0) : choice ∈ t.player := by
  refine List.count_pos_iff.1 (Nat.pos_of_ne_zero fun none => h ?_)
  rw [Table.counts, CardCounts.get_ofHand, Table.hand, none]
  rfl

/-- A card that is drawn was in the hand, in front if the draw is from there. -/
theorem Table.drawCard_eq {t : Table} (stocked : t.opponent ≠ []) (fromFront : Bool) :
    ∃ card place random,
      t.drawCard fromFront =
        (some card, { t with opponent := t.opponent.eraseIdx place, random := random }) ∧
      t.opponent[place]? = some card ∧ (fromFront = true → place = 0) := by
  unfold drawCard
  split
  · contradiction
  · rename_i first rest hand
    split
    · exact ⟨first, 0, t.random, by simp [hand], by simp [hand], fun _ => rfl⟩
    · rename_i anywhere
      have inside : (t.random.below t.opponent.length).1 < t.opponent.length :=
        t.random.below_lt (List.length_pos_iff.2 stocked)
      have found := List.getElem?_eq_getElem inside
      refine ⟨_, _, (t.random.below t.opponent.length).2, ?_, found,
        fun front => absurd front anywhere⟩
      rw [← found]

namespace Game

/-! ## The parts of a turn -/

/-- A pass with closed hands changes the lines on the table and what the referee heard. -/
theorem evaluate_closed (ref : Referee) (pass : Pass) (ctx : Context) (t : Table) :
    ∃ r lines, ref.evaluate ⟨Table.host, pass, false⟩ ctx t = r ∧
      r.host = { t with shown := lines } ∧
      ref.Hears ⟨Table.host, pass, false⟩ t.opponent.head? r.referee := by
  obtain ⟨lines, left⟩ := ref.host_evaluate_closed pass ctx t
  exact ⟨_, lines, rfl, left, ref.hears_evaluate ⟨Table.host, pass, false⟩
    (fun isOpen => absurd isOpen Bool.false_ne_true) ctx t⟩

theorem beginTurn_frame (g : Game) :
    ∃ lines total ref,
      g.beginTurn.2 =
        { g with table := { g.table with shown := lines, total := total }, referee := ref } ∧
      g.referee.Hears ⟨Table.host, .turnStart, false⟩ g.table.opponent.head? ref := by
  obtain ⟨r, lines, ran, left, hears⟩ :=
    evaluate_closed g.referee .turnStart (g.duringTurn g.table.turn) g.table
  have eq : g.beginTurn.2 =
      { g with table := r.host.addScore r.report.delta, referee := r.referee } := by
    subst ran
    rfl
  refine ⟨lines, Saturating.add g.table.total r.report.delta, r.referee, ?_, hears⟩
  rw [eq, left]
  rfl

theorem exchange_frame {g : Game} {choice : Choice} (held : choice ∈ g.table.player)
    (stocked : g.table.opponent ≠ []) :
    ∃ card place random,
      g.exchange choice = (some card, { g with
        table := { g.table with
          player := g.table.player.erase choice
          opponent := g.table.opponent.eraseIdx place
          random := random }
        referee := { g.referee with draw := g.referee.draw.next.2 } }) ∧
      g.table.opponent[place]? = some card ∧ (g.referee.draw.next.1 = true → place = 0) := by
  have discarded : (g.table.discard choice).2 =
      { g.table with player := g.table.player.erase choice } := by
    simp [Table.discard, held]
  obtain ⟨card, place, random, drawn, found, front⟩ := Table.drawCard_eq
    (t := { g.table with player := g.table.player.erase choice }) stocked g.referee.draw.next.1
  refine ⟨card, place, random, ?_, found, front⟩
  simp only [exchange, Referee.decideDraw, discarded, drawn]

theorem settleTurn_frame (g : Game) (choice opponent : Choice) :
    ∃ lines total delta ref,
      (g.settleTurn choice opponent).2 =
        { g with
          table := { g.table with shown := lines, total := total, turn := g.table.turn + 1 }
          referee := { ref with events := [] }
          played := g.played ++ [choice]
          outcomes := g.outcomes ++ [judge choice opponent]
          events := g.events ++ ref.events ++ [.turnResolved g.table.turn choice opponent
            (judge choice opponent) delta total] } ∧
      g.referee.Hears ⟨Table.host, .settlement, false⟩ g.table.opponent.head? ref := by
  let entered : Game :=
    { g with played := g.played ++ [choice], outcomes := g.outcomes ++ [judge choice opponent] }
  obtain ⟨r, lines, ran, left, hears⟩ := evaluate_closed g.referee .settlement
    { entered.duringTurn g.table.turn with
      choice := some choice
      outcome := some (judge choice opponent)
      delta := g.table.setup.scores.base (judge choice opponent) } g.table
  let settled : Game :=
    { entered with table := r.host.addScore r.report.delta, referee := r.referee }
  have eq : (g.settleTurn choice opponent).2 =
      let logged := settled.collect.emit (.turnResolved g.table.turn choice opponent
        (judge choice opponent) r.report.delta settled.table.total)
      { logged with table := logged.table.nextTurn } := by
    subst ran
    rfl
  refine ⟨lines, Saturating.add g.table.total r.report.delta, r.report.delta, r.referee, ?_, hears⟩
  simp only [eq, settled, left]
  rfl

theorem finish_frame (g : Game) :
    ∃ lines total adjustment ref,
      g.finish.2 =
        { g with
          table := { g.table with shown := lines, total := total }
          referee := { ref with events := [] }
          stage := .finished
          adjustment := adjustment
          events := g.events ++ ref.events ++ [.roundFinished total adjustment
            (UInt32.ofNat g.played.length) g.table.plan] } ∧
      g.referee.Hears ⟨Table.host, .roundEnd, false⟩ g.table.opponent.head? ref := by
  obtain ⟨r, lines, ran, left, hears⟩ :=
    evaluate_closed g.referee .roundEnd g.afterTurns g.table
  let scored : Game :=
    { g with
      table := r.host.addScore r.report.delta
      referee := r.referee
      stage := .finished
      adjustment := r.report.delta }
  have eq : g.finish.2 = scored.collect.emit (.roundFinished scored.table.total r.report.delta
      (UInt32.ofNat g.played.length) scored.table.plan) := by
    subst ran
    rfl
  refine ⟨lines, Saturating.add g.table.total r.report.delta, r.report.delta, r.referee, ?_, hears⟩
  simp only [eq, scored, left]
  rfl

/-! ## The whole turn -/

/-- The events of a turn in three parts: its first pass, its settlement, and what the log holds
after the turn is resolved. -/
structure TurnEvents (drawn kept : Choice → Prop) (opening settling closing : List Event) : Prop where
  opens : Log.WithinTurn opening
  settles : Log.WithinTurn settling
  closes : Log.WithinTurn closing
  shown : Log.RevealsIn .turnStart drawn opening
  shownNext : Log.RevealsIn .turnSettlement kept settling
  silent : Log.Quiet closing

/-- What a turn leaves in which the opponent draws `card` against `choice`, whether or not the
round ends with it. -/
structure Settled (g : Game) (choice card : Choice) (g' : Game) : Prop where
  setup : g'.table.setup = g.table.setup
  planOffset : g'.table.planOffset = g.table.planOffset
  turn : g'.table.turn = g.table.turn + 1
  rerolls : g'.table.rerolls = g.table.rerolls
  player : g'.table.player = g.table.player.erase choice
  drawn : ∃ place,
    g.table.opponent[place]? = some card ∧ g'.table.opponent = g.table.opponent.eraseIdx place
  front : g.referee.draw.always = true ∨ g.referee.draw.once = true →
    g.table.opponent.head? = some card
  played : g'.played = g.played ++ [choice]
  outcomes : g'.outcomes = g.outcomes ++ [judge choice card]
  active : g'.referee.active = g.referee.active
  tally : g'.referee.tally = g.referee.tally
  gate : g'.referee.gate = g.referee.gate
  queue : g'.referee.events = []
  log : ∃ opening settling closing delta total,
    g'.events = g.events ++ (opening ++ settling ++
      .turnResolved g.table.turn choice card (judge choice card) delta total :: closing) ∧
    TurnEvents (fun shown => shown = card)
      (fun shown => g'.table.opponent.head? = some shown ∧ g'.referee.draw.once = true)
      opening settling closing

/-- The parts of a turn, put together. -/
theorem exists_settled {g : Game} {choice : Choice} (queue : g.referee.events = [])
    (held : choice ∈ g.table.player) (stocked : g.table.opponent ≠ []) :
    ∃ card g₂, g.beginTurn.2.exchange choice = (some card, g₂) ∧
      (g₂.settleTurn choice card).2.stage = g.stage ∧
      (g₂.settleTurn choice card).2.adjustment = g.adjustment ∧
      g.Settled choice card (g₂.settleTurn choice card).2 := by
  obtain ⟨lines, total, ref, begun, hears⟩ := g.beginTurn_frame
  obtain ⟨opening, added, told⟩ := hears.news
  have always := hears.always (fun h => by cases h)
  rw [begun]
  obtain ⟨card, place, random, exchanged, found, front⟩ := exchange_frame
    (g := { g with table := { g.table with shown := lines, total := total }, referee := ref })
    held stocked
  have inFront : ref.draw.always = true ∨ ref.draw.once = true →
      g.table.opponent.head? = some card := by
    intro pending
    have place_eq : place = 0 := front (by rw [DrawOrder.next_fst]; simpa using pending)
    rw [List.head?_eq_getElem?, ← place_eq]
    exact found
  refine ⟨card, _, exchanged, ?_⟩
  obtain ⟨lines', total', delta, ref', settled, hears'⟩ := settleTurn_frame
    { g with
      table := { g.table with
        shown := lines, total := total
        player := g.table.player.erase choice
        opponent := g.table.opponent.eraseIdx place, random := random }
      referee := { ref with draw := ref.draw.next.2 } } choice card
  obtain ⟨settling, added', told'⟩ := hears'.news
  rw [settled]
  refine ⟨rfl, rfl, rfl, rfl, rfl, rfl, rfl, ⟨place, found, rfl⟩, ?_, rfl, rfl,
    hears'.active.trans hears.active, (hears'.tally (by decide)).trans (hears.tally (by decide)),
    hears'.gate.trans hears.gate, rfl, opening, settling, [], delta, total', ?_,
    told.withinTurn, told'.withinTurn, by simp [Log.WithinTurn], ?_, told'.revealsIn,
    by simp [Log.Quiet]⟩
  · rintro (pending | pending)
    · exact inFront (.inl (always.trans pending))
    · exact inFront (.inr (hears.once pending))
  · have heard : ref'.events = opening ++ settling := by
      rw [added', ← List.nil_append opening, ← queue, ← added]
    rw [← heard, ← List.append_assoc]
  · refine told.revealsIn.mono ?_
    rintro shown ⟨isFront, once⟩
    exact Option.some.inj (isFront.symm.trans (inFront (.inr once)))

/-- The end of the round adds to the log and takes nothing back. -/
theorem Settled.finish {g g' : Game} {choice card : Choice} (h : g.Settled choice card g') :
    g.Settled choice card g'.finish.2 := by
  obtain ⟨lines, total, adjustment, ref, finished, hears⟩ := g'.finish_frame
  obtain ⟨news, added, told⟩ := hears.news
  obtain ⟨opening, settling, closing, delta, total', eq, events⟩ := h.log
  rw [finished]
  refine ⟨h.setup, h.planOffset, h.turn, h.rerolls, h.player, h.drawn, h.front, h.played,
    h.outcomes, hears.active.trans h.active, (hears.tally (by decide)).trans h.tally,
    hears.gate.trans h.gate, rfl, opening, settling,
    closing ++ (ref.events ++ [.roundFinished total adjustment
      (UInt32.ofNat g'.played.length) g'.table.plan]), delta, total', ?_, events.opens,
    events.settles, ?_, events.shown,
    events.shownNext.mono fun card revealed => ⟨revealed.1, hears.once revealed.2⟩, ?_⟩
  · simp [eq]
  · rw [added, h.queue, List.nil_append]
    exact events.closes.append (told.withinTurn.append
      (by simp [Log.WithinTurn, Event.drawn?, Event.startsRound]))
  · rw [added, h.queue, List.nil_append]
    exact events.silent.append ((told.quiet rfl).append (by simp [Log.Quiet, Event.revealed?, Event.drawn?]))

/-- A turn that was not refused. -/
structure TurnTaken (g : Game) (choice card : Choice) (g' : Game) : Prop
    extends g.Settled choice card g' where
  stage : g'.stage = if g'.isOver then .finished else .active
  adjustment : g'.stage = .active → g'.adjustment = g.adjustment

theorem isOver_finish (g : Game) : g.finish.2.isOver = g.isOver := by
  obtain ⟨lines, total, adjustment, ref, finished, -⟩ := g.finish_frame
  rw [finished]
  rfl

theorem stage_finish (g : Game) : g.finish.2.stage = .finished := rfl

theorem turnTaken_play {g : Game} {choice : Choice} (queue : g.referee.events = [])
    (active : g.stage = .active) (held : (g.table.counts .player).get choice ≠ 0)
    (stocked : g.table.opponent ≠ []) :
    ∃ record g', g.play choice = (.ok record, g') ∧ g.TurnTaken choice record.opponent g' := by
  obtain ⟨card, g₂, exchanged, stage, adjustment, settled⟩ :=
    exists_settled queue (Table.mem_of_counts_ne_zero held) stocked
  rw [play, if_neg (fun h => h active), if_neg held, if_neg (by simpa using stocked)]
  simp only [exchanged]
  cases ended : (g₂.settleTurn choice card).2.isOver with
  | true =>
    refine ⟨_, _, rfl, settled.finish, ?_, fun h => absurd h (by simp [stage_finish])⟩
    rw [isOver_finish, ended]
    rfl
  | false =>
    refine ⟨_, _, rfl, settled, ?_, fun _ => adjustment⟩
    rw [stage, active, ended]
    rfl

/-- A turn is refused for one of three reasons, which are looked at in this order. -/
theorem play_cases {g : Game} (choice : Choice) (queue : g.referee.events = []) :
    (g.stage ≠ .active ∧ g.play choice = (.error .notActive, g)) ∨
    (g.stage = .active ∧ (g.table.counts .player).get choice = 0 ∧
      g.play choice = (.error (.cardNotHeld choice), g)) ∨
    (g.stage = .active ∧ (g.table.counts .player).get choice ≠ 0 ∧ g.table.opponent = [] ∧
      g.play choice = (.error .opponentOutOfCards, g.finish.2)) ∨
    (g.stage = .active ∧ (g.table.counts .player).get choice ≠ 0 ∧
      ∃ record g', g.play choice = (.ok record, g') ∧ g.TurnTaken choice record.opponent g') := by
  by_cases active : g.stage = .active
  · by_cases held : (g.table.counts .player).get choice = 0
    · refine .inr (.inl ⟨active, held, ?_⟩)
      rw [play, if_neg (fun h => h active), if_pos held]
    · by_cases stocked : g.table.opponent = []
      · refine .inr (.inr (.inl ⟨active, held, stocked, ?_⟩))
        rw [play, if_neg (fun h => h active), if_neg held, if_pos (by simp [stocked])]
      · exact .inr (.inr (.inr ⟨active, held, turnTaken_play queue active held stocked⟩))
  · refine .inl ⟨active, ?_⟩
    rw [play, if_pos active]

end Game

end Roshambo
