import Roshambo.Proofs.Pass.Front
import Roshambo.Proofs.Round.Blindness
import Roshambo.Proofs.Round.LastTurn

/-!
# Rounds drawn from the front

Whether the opponent plays its hand from the front is settled when the round opens, and the log of
the start tells. Rerolls, toggles and turns leave it at that. In such a round the opponent's cards
are known from the last deal on, so a look at the first and the last card before a turn comes true.
-/
namespace Roshambo

open Event (setsFront)

namespace Referee

theorem setsFront_settlePlan {σ : Type} (host : Host σ) (again : Bool) (r : PassResult σ) :
    (settlePlan host again r).referee.events.any setsFront = r.referee.events.any setsFront := by
  simp only [settlePlan]
  split
  · rfl
  · split
    · simp [emit, setsFront]
    · rfl

namespace DealPasses

variable {ref : Referee} {t : Table} {first second : PassResult Table}

/-- The passes of a start leave the draw order that their events tell of. -/
theorem told (passes : ref.DealPasses false t first second) (queue : ref.events = []) :
    second.referee.draw.always = second.referee.events.any setsFront := by
  obtain ⟨ctx, -, -, -, prepared⟩ := passes.prepared
  obtain ⟨gate, ctx', -, opened⟩ := passes.opened
  let fresh : Referee := { ref with tally := PlanTally.start {} }
  have silent : (fresh.evaluate ⟨Table.host, .prepare false, true⟩ ctx t).referee.events.any
      setsFront = false := by
    obtain ⟨news, added, told⟩ :=
      fresh.news_evaluate ⟨Table.host, .prepare false, true⟩ (fun _ => rfl) ctx t
    have only : fresh.events ++ news = news := by rw [show fresh.events = [] from queue]; rfl
    rw [added, only, List.any_eq_false]
    intro event mem sets
    have emits := told.emits event mem
    cases event with
    | frontDrawSet _ => cases emits
    | _ => cases sets
  have unlogged : first.referee.events.any setsFront = false := by
    rw [← prepared]
    exact (setsFront_settlePlan Table.host false _).trans silent
  rw [← opened]
  exact always_evaluate_told { first.referee with draw := {}, gate := .closed } _ ctx' first.host
    unlogged.symm

theorem always (passes : ref.DealPasses true t first second) :
    second.referee.draw.always = ref.draw.always := by
  obtain ⟨ctx, -, -, -, prepared⟩ := passes.prepared
  obtain ⟨gate, ctx', -, opened⟩ := passes.opened
  have kept : first.referee.draw.always = ref.draw.always := by
    obtain ⟨_, _, _, _, _, settled⟩ := settlePlan_eq Table.host true
      ({ ref with tally := ref.tally.start }.evaluate ⟨Table.host, .prepare true, false⟩ ctx t)
    rw [← prepared]
    refine (congrArg (·.referee.draw.always) settled).trans ?_
    exact always_evaluate { ref with tally := ref.tally.start } _ ctx t nofun
  rw [← opened]
  exact (always_evaluate { first.referee with gate := gate }
    ⟨Table.host, .roundStart false, gate.isOpen⟩ ctx' first.host nofun).trans kept

end DealPasses

end Referee

namespace Game

variable {config : RoundSetup} {g g' paired : Game} {choice : Choice} {record : TurnRecord}

theorem always_beginTurn (g : Game) :
    g.beginTurn.2.referee.draw.always = g.referee.draw.always :=
  g.referee.always_evaluate ⟨Table.host, .turnStart, false⟩ _ _ nofun

theorem always_exchange (g : Game) (choice : Choice) :
    (g.exchange choice).2.referee.draw.always = g.referee.draw.always := by
  show g.referee.draw.next.2.always = g.referee.draw.always
  unfold DrawOrder.next
  split <;> rfl

theorem always_settleTurn (g : Game) (choice opponent : Choice) :
    (g.settleTurn choice opponent).2.referee.draw.always = g.referee.draw.always :=
  g.referee.always_evaluate ⟨Table.host, .settlement, false⟩ _ _ nofun

theorem always_finish (g : Game) : g.finish.2.referee.draw.always = g.referee.draw.always :=
  g.referee.always_evaluate ⟨Table.host, .roundEnd, false⟩ _ _ nofun

theorem Course.always (course : g.Course choice record g' paired) :
    g'.referee.draw.always = g.referee.draw.always := by
  have before : paired.referee.draw.always = g.referee.draw.always := by
    rw [course.paired_eq, always_exchange, always_beginTurn]
  obtain ⟨settlement, settled, eq, closing⟩ := course.closing
  have kept := paired.always_settleTurn choice record.opponent
  rw [eq] at kept
  rcases closing with ⟨-, rfl, -, -⟩ | ⟨-, rfl, -, -⟩
  · exact kept.trans before
  · exact settled.always_finish.trans (kept.trans before)

/-- Only a start settles from where a round is drawn. -/
theorem Sound.always_after (sound : g.Sound config) {move : Move} (goesOn : move ≠ .start) :
    (g.after move).referee.draw.always = g.referee.draw.always := by
  cases move with
  | enable rule => exact congrArg (·.always) (sameRound_enable rule sound.queue).draw
  | toggle rule => exact congrArg (·.always) (sameRound_toggle rule sound.queue sound.gate).draw
  | clear => exact congrArg (·.always) (sameRound_clear sound.queue).draw
  | start => exact absurd rfl goesOn
  | reroll =>
    show g.reroll.2.referee.draw.always = g.referee.draw.always
    rcases reroll_refused_or sound.queue with ⟨refusal, eq⟩ | ⟨active, fresh, left⟩
    · rw [eq]
    · obtain ⟨first, second, passes, eq⟩ := reroll_eq active fresh left
      rw [eq]
      exact passes.always
  | play choice =>
    show (g.play choice).2.referee.draw.always = g.referee.draw.always
    rcases play_cases choice sound.queue with ⟨_, eq⟩ | ⟨_, _, eq⟩ | ⟨active, _, empty, _⟩ |
      ⟨_, _, record, g', eq, _⟩
    · rw [eq]
    · rw [eq]
    · exact absurd empty (sound.stocked active .opponent)
    · obtain ⟨paired, course⟩ := course_of_play eq
      rw [eq]
      exact course.always

theorem Sound.always_serve (sound : g.Sound config) {request : Request}
    (within : request ≠ .make .start) :
    (g.serve request).referee.draw.always = g.referee.draw.always := by
  cases request with
  | make move => exact sound.always_after fun start => within (congrArg Request.make start)
  | takeEvents => rfl
  | takeLines => rfl

theorem exchange_front (always : g.referee.draw.always = true) {card : Choice}
    (drawn : g.exchange choice = (some card, g')) :
    g.table.opponent = card :: g'.table.opponent := by
  have hand : (g.table.discard choice).2.opponent = g.table.opponent :=
    congrArg Prod.fst (g.table.stock_discard choice)
  have front : g.referee.draw.next.1 = true := by rw [DrawOrder.next_fst, always, Bool.true_or]
  have taken : (g.table.discard choice).2.drawCard g.referee.draw.next.1 =
      ((g.exchange choice).1, (g.exchange choice).2.table) := rfl
  rw [drawn, front, Table.drawCard, hand] at taken
  cases stock : g.table.opponent with
  | nil => simp [stock] at taken
  | cons first rest =>
    simp only [stock, if_true, Prod.mk.injEq, Option.some.injEq] at taken
    rw [← taken.1, ← taken.2]

theorem Course.fromFront (course : g.Course choice record g' paired)
    (always : g.referee.draw.always = true) :
    g.table.opponent = record.opponent :: g'.table.opponent := by
  have begun : g.beginTurn.2.table.opponent = g.table.opponent :=
    congrArg Prod.fst g.stock_beginTurn
  have settled : g'.table.opponent = paired.table.opponent := congrArg Prod.fst course.stock
  rw [settled, ← begun]
  exact exchange_front (g.always_beginTurn.trans always) course.drawn

/-- The records of the turns among the requests. -/
def recordsFor (g : Game) (requests : List Request) : List TurnRecord :=
  (g.answers requests).filterMap Answer.record?

/-- The opponent's hand as the last deal among the requests left it, and this hand if there is no
deal among them. -/
def dealtTo (hand : List Choice) (g : Game) : List Request → List Choice
  | [] => hand
  | request :: requests =>
    let next := g.serve request
    next.dealtTo (if (g.answer? request).any Answer.deals then next.table.opponent else hand)
      requests

theorem recordsFor_append (g : Game) (first second : List Request) :
    g.recordsFor (first ++ second) = g.recordsFor first ++ (g.served first).recordsFor second := by
  rw [recordsFor, answers_append, List.filterMap_append]
  rfl

theorem dealtTo_append (hand : List Choice) (g : Game) (first second : List Request) :
    g.dealtTo hand (first ++ second) = (g.served first).dealtTo (g.dealtTo hand first) second := by
  induction first generalizing hand g with
  | nil => rfl
  | cons request first ih => exact ih _ _

/-- What a request can do to a round that goes on. -/
inductive GoesOn (g : Game) (request : Request) : Prop where
  | still (unplayed : g.recordsFor [request] = [])
      (undealt : ∀ hand, g.dealtTo hand [request] = hand)
      (opponent : (g.serve request).table.opponent = g.table.opponent)
      (plan : (g.serve request).table.plan = g.table.plan)
      (played : (g.serve request).played = g.played) : GoesOn g request
  | reroll (unplayed : g.recordsFor [request] = [])
      (dealt : ∀ hand, g.dealtTo hand [request] = (g.serve request).table.opponent)
      (fresh : g.played = []) (played : (g.serve request).played = []) : GoesOn g request
  | turn (choice : Choice) (record : TurnRecord)
      (taken : g.play choice = (.ok record, g.serve request))
      (recorded : g.recordsFor [request] = [record])
      (undealt : ∀ hand, g.dealtTo hand [request] = hand) : GoesOn g request

theorem GoesOn.of_quiet {move : Move} (unplayed : (g.answerTo move).record? = none)
    (undealt : (g.answerTo move).deals = false)
    (opponent : (g.after move).table.opponent = g.table.opponent)
    (plan : (g.after move).table.plan = g.table.plan)
    (played : (g.after move).played = g.played) : g.GoesOn (.make move) := by
  refine .still ?_ (fun hand => ?_) opponent plan played
  · simp [recordsFor, answer?, unplayed]
  · simp [dealtTo, answer?, undealt]

theorem GoesOn.of_sameRound {move : Move} (same : g.SameRound (g.after move))
    (unplayed : (g.answerTo move).record? = none) (undealt : (g.answerTo move).deals = false) :
    g.GoesOn (.make move) := by
  obtain ⟨lines, table⟩ := same.table
  exact of_quiet unplayed undealt (by rw [table]) same.plan_eq same.played

theorem GoesOn.of_refused {move : Move} (same : g.after move = g)
    (unplayed : (g.answerTo move).record? = none) (undealt : (g.answerTo move).deals = false) :
    g.GoesOn (.make move) :=
  of_quiet unplayed undealt (by rw [same]) (by rw [same]) (by rw [same])

theorem Sound.goesOn (sound : g.Sound config) {request : Request}
    (within : request ≠ .make .start) : g.GoesOn request := by
  cases request with
  | takeEvents => exact .still rfl (fun _ => rfl) rfl rfl rfl
  | takeLines => exact .still rfl (fun _ => rfl) rfl rfl rfl
  | make move =>
    cases move with
    | enable rule => exact .of_sameRound (sameRound_enable rule sound.queue) rfl rfl
    | toggle rule => exact .of_sameRound (sameRound_toggle rule sound.queue sound.gate) rfl rfl
    | clear => exact .of_sameRound (sameRound_clear sound.queue) rfl rfl
    | start => exact absurd rfl within
    | reroll =>
      rcases reroll_refused_or sound.queue with ⟨refusal, eq⟩ | ⟨active, fresh, left⟩
      · have answer : g.answerTo .reroll = .rerolled (.error refusal) := by simp [answerTo, eq]
        exact .of_refused (congrArg Prod.snd eq) (by rw [answer]; rfl) (by rw [answer]; rfl)
      · obtain ⟨reports, g', eq, rerolled⟩ := rerolled_reroll sound.queue active fresh left
        have answer : g.answerTo .reroll = .rerolled (.ok reports) := by simp [answerTo, eq]
        have served : g.serve (.make .reroll) = g' := congrArg Prod.snd eq
        refine .reroll ?_ (fun hand => ?_) fresh ?_
        · simp [recordsFor, answer?, answer, Answer.record?]
        · simp [dealtTo, answer?, answer, Answer.deals]
        · rw [served]
          exact rerolled.played.trans fresh
    | play choice =>
      rcases play_cases choice sound.queue with ⟨_, eq⟩ | ⟨_, _, eq⟩ | ⟨active, _, empty, _⟩ |
        ⟨_, _, record, g', eq, _⟩
      · have answer : g.answerTo (.play choice) = .played (.error .notActive) := by
          simp [answerTo, eq]
        exact .of_refused (congrArg Prod.snd eq) (by rw [answer]; rfl) (by rw [answer]; rfl)
      · have answer : g.answerTo (.play choice) = .played (.error (.cardNotHeld choice)) := by
          simp [answerTo, eq]
        exact .of_refused (congrArg Prod.snd eq) (by rw [answer]; rfl) (by rw [answer]; rfl)
      · exact absurd empty (sound.stocked active .opponent)
      · have answer : g.answerTo (.play choice) = .played (.ok record) := by simp [answerTo, eq]
        have served : g.serve (.make (.play choice)) = g' := congrArg Prod.snd eq
        refine .turn choice record (by rw [eq, served]) ?_ (fun hand => ?_)
        · simp [recordsFor, answer?, answer, Answer.record?]
        · simp [dealtTo, answer?, answer, Answer.deals]

/-- The turns with these records took the first cards of the hand, in order, and the opponent holds
the others. -/
structure InOrder (hand : List Choice) (turns : List TurnRecord) (g : Game) : Prop where
  cards : turns.map (·.opponent) ++ g.table.opponent = hand
  count : turns.length = g.played.length
  numbered : ∀ i record, turns[i]? = some record → record.turn.toNat = i + 1

namespace InOrder

variable {hand : List Choice} {turns : List TurnRecord}

/-- A new hand is in order before its first card is drawn. -/
theorem of_fresh (fresh : g.played = []) : InOrder g.table.opponent [] g where
  cards := rfl
  count := by rw [fresh]; rfl
  numbered := nofun

theorem of_play (h : InOrder hand turns g) (reached : Reached config g)
    (always : g.referee.draw.always = true) (played : g.play choice = (.ok record, g')) :
    InOrder hand (turns ++ [record]) g' := by
  obtain ⟨active, -, taken⟩ := reached.sound.taken_of_play played
  obtain ⟨paired, course⟩ := course_of_play played
  have turn := reached.onSchedule.turn active
  refine ⟨?_, ?_, fun i other found => ?_⟩
  · rw [← h.cards, course.fromFront always, List.map_append, List.append_assoc]
    rfl
  · rw [taken.played, List.length_append, List.length_append, h.count]
    rfl
  · rcases Nat.lt_trichotomy i turns.length with before | rfl | after
    · rw [List.getElem?_append_left before] at found
      exact h.numbered i other found
    · rw [List.getElem?_concat_length] at found
      rw [← Option.some.inj found, turn_of_play played, turn, h.count]
    · rw [List.getElem?_eq_none (by simp; omega)] at found
      cases found

theorem serve (h : InOrder hand turns g) (reached : Reached config g)
    (always : g.referee.draw.always = true) {request : Request}
    (within : request ≠ .make .start) :
    InOrder (g.dealtTo hand [request]) (turns ++ g.recordsFor [request]) (g.serve request) := by
  cases reached.sound.goesOn within with
  | still unplayed undealt opponent _ played =>
    rw [unplayed, undealt, List.append_nil]
    exact ⟨opponent ▸ h.cards, h.count.trans (congrArg List.length played).symm, h.numbered⟩
  | reroll unplayed dealt fresh played =>
    have none : turns = [] := List.eq_nil_of_length_eq_zero (by rw [h.count, fresh]; rfl)
    rw [unplayed, dealt, none]
    exact of_fresh played
  | turn choice record taken recorded undealt =>
    rw [recorded, undealt]
    exact h.of_play reached always taken

/-- Over a whole round the order is kept, from one deal to the next. -/
theorem served {later : List Request} (h : InOrder hand turns g) (reached : Reached config g)
    (always : g.referee.draw.always = true) (within : .make .start ∉ later) :
    InOrder (g.dealtTo hand later) (turns ++ g.recordsFor later) (g.served later) := by
  induction later generalizing hand turns g with
  | nil => exact (List.append_nil turns).symm ▸ h
  | cons request later ih =>
    rw [List.mem_cons, not_or] at within
    have other := Ne.symm within.1
    have next := ih (h.serve reached always other) (reached.serve request)
      ((reached.sound.always_serve other).trans always) within.2
    rw [List.append_assoc] at next
    rw [show request :: later = [request] ++ later from rfl, recordsFor_append, dealtTo_append,
      served_append]
    exact next

end InOrder

/-! ## What a look at the hand tells -/

namespace InOrder

variable {hand : List Choice} {turns : List TurnRecord}

end InOrder

end Game

end Roshambo
