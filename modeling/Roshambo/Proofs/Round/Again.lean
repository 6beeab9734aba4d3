import Roshambo.Proofs.Pass.Ledger
import Roshambo.Proofs.Round.Growth

/-!
# Passes entered again

A pass that begins nothing anew and finds the hands closed may be entered again at once: it comes to
the same report, and leaves the referee and the table as they were, apart from the events and the
lines. What the first pass did to the draw order and to the plan is nothing that the rules of the
second look at, and a plan that was moved once is not moved again (`repeats_enter`).
-/
namespace Roshambo

namespace Table

/-- The table with lines shown before its own, and with the plan moved. -/
def after (lines : List String) (delta : Int64) (t : Table) : Table :=
  { t with shown := lines ++ t.shown, planOffset := Saturating.add t.planOffset delta }

theorem exists_after (t : Table) :
    ∃ (bare : Table) (lines : List String), bare.shown = [] ∧ t = bare.after lines 0 :=
  ⟨{ t with shown := [] }, t.shown, rfl, by
    simp only [after, List.append_nil, Saturating.add_zero]⟩

/-- The rules look at the plan only where the last card is revealed. -/
theorem mapsIn_after (lines : List String) {delta : Int64} {pass : Pass} (handsOpen : Bool)
    (unread : pass.applies .revealOpponentFirstAndLast = true → delta = 0) :
    Table.host.MapsIn pass handsOpen (after lines delta) Table.host where
  countOf _ := rfl
  firstCard _ := rfl
  lastCard reveals t := by
    rw [unread reveals]
    simp only [host, after, Saturating.add_zero]
    rfl
  replaceOthers _ _ _ _ := rfl
  replaceRandomly _ _ _ _ := rfl
  addCards _ _ side _ _ := by cases side <;> rfl
  addRandomCards _ _ side _ := by cases side <;> rfl
  showInfo t text := by simp only [host, after, showInfo, List.append_assoc]

end Table

namespace Referee

/-- The entry begins nothing anew, and its pass finds the hands closed. -/
inductive Entry.Repeatable (ref : Referee) : Entry → Prop where
  | prepareRound : Repeatable ref (prepareRound true)
  | openRound (closed : ref.gate = .closed) : Repeatable ref (openRound false)
  | recheckRules (closed : ref.gate = .closed) : Repeatable ref recheckRules
  | openTurn : Repeatable ref openTurn
  | settleTurn : Repeatable ref settleTurn
  | closeRound : Repeatable ref closeRound

/-- The second result comes to nothing new: to the lines and the news of the first, which `ref` came
to on the table `t`, once more. -/
structure PassResult.Repeats (ref : Referee) (t : Table) (first second : PassResult Table) :
    Prop where
  report : second.report = first.report
  table : ∃ lines, first.host.shown = t.shown ++ lines ∧
    second.host = { first.host with shown := first.host.shown ++ lines }
  referee : ∃ news, ref.events ++ news <+: first.referee.events ∧
    second.referee = { first.referee with events := first.referee.events ++ news }

variable (ref : Referee) (ctx : Context) (t : Table)

/-- A pass with closed hands, run again on the table that it left, perhaps with the plan moved. -/
theorem evaluate_table_again (ref' : Referee) {pass : Pass} (delta : Int64)
    (unread : pass.applies .revealOpponentFirstAndLast = true → delta = 0)
    (active : ref'.active = ref.active) (asked : ref'.tally.asked = ref.tally.asked)
    (draw : ref'.draw = (ref.evaluate ⟨Table.host, pass, false⟩ ctx t).referee.draw) :
    let first := ref.evaluate ⟨Table.host, pass, false⟩ ctx t
    ∃ news lines, first.referee.events = ref.events ++ news ∧
      first.host.shown = t.shown ++ lines ∧
      ref'.evaluate ⟨Table.host, pass, false⟩ ctx (first.host.after [] delta) =
        { first with
          host := { first.host.after [] delta with shown := first.host.shown ++ lines }
          referee := { ref' with
            tally := { ref'.tally with asked := first.referee.tally.asked }
            events := ref'.events ++ news } } := by
  -- Both passes run on the bare table, each with the lines before it that it finds.
  obtain ⟨bare, lines, none, rfl⟩ := t.exists_after
  intro first
  obtain ⟨shown, kept⟩ := ref.host_evaluate_closed pass ctx (bare.after lines 0)
  obtain ⟨news, left, told, ended, again⟩ := ref.evaluate_again ref'
    (Table.mapsIn_after lines false fun _ => rfl) (Table.mapsIn_after shown false unread) ctx bare
    active asked draw
  have found : first.host.after [] delta = bare.after shown delta := by
    rw [show first.host = _ from kept]
    simp only [Table.after, none, List.append_nil, List.nil_append, Saturating.add_zero]
  have both : shown = lines ++ left.shown := congrArg Table.shown (kept.symm.trans ended)
  have done : left.after shown delta =
      { first.host.after [] delta with shown := first.host.shown ++ left.shown } := by
    rw [show first.host = _ from ended, both]
    simp only [Table.after, Saturating.add_zero]
  refine ⟨news, left.shown, told, ?_, ?_⟩
  · rw [show first.host = _ from kept, both]
    simp only [Table.after, none, List.append_nil]
  · rw [← done, found]
    exact again

/-- Without the effect that asks for planned turns, a pass may simply run again. -/
theorem repeats_evaluate {pass : Pass} (unplanned : .modifyPlannedTurnsDelta ∉ pass.effectKinds) :
    let first := ref.evaluate ⟨Table.host, pass, false⟩ ctx t
    first.Repeats ref t (first.referee.evaluate ⟨Table.host, pass, false⟩ ctx first.host) := by
  intro first
  have asked : first.referee.tally.asked = ref.tally.asked :=
    congrArg (·.asked) (ref.tally_evaluate_of_unplanned _ ctx t unplanned)
  have unmoved : first.host.after [] 0 = first.host := by
    rw [Table.after, List.nil_append, Saturating.add_zero]
  obtain ⟨news, lines, told, shown, again⟩ :=
    ref.evaluate_table_again ctx t first.referee 0 (fun _ => rfl) rfl asked rfl
  rw [show first.referee.evaluate _ ctx _ = _ from unmoved ▸ again]
  exact ⟨rfl, ⟨lines, shown, rfl⟩, news, told ▸ List.prefix_rfl, rfl⟩

theorem recheckRules_of_closed {σ : Type} (host : Host σ) (state : σ)
    (closed : ref.gate = .closed) :
    ref.recheckRules host ctx state = ref.evaluate ⟨host, .roundStart false, false⟩ ctx state := by
  obtain ⟨active, draw, tally, gate, events⟩ := ref
  subst closed
  rfl

theorem repeats_recheckRules (closed : ref.gate = .closed) :
    let first := ref.recheckRules Table.host ctx t
    first.Repeats ref t (first.referee.recheckRules Table.host ctx first.host) := by
  rw [recheckRules_of_closed ref ctx _ _ closed]
  intro first
  rw [recheckRules_of_closed first.referee ctx _ _ closed]
  exact ref.repeats_evaluate ctx t (by decide)

/-- The rules of a round that was prepared ask again for what is granted already. -/
theorem repeats_unsettled :
    let first := ref.prepareRound Table.host true ctx t
    first.Repeats ref t (first.referee.unsettled Table.host ctx first.host true) := by
  intro first
  obtain ⟨r, ran⟩ : ∃ r, (ref.preparing true).evaluate ⟨Table.host, .prepare true, false⟩ ctx t = r :=
    ⟨_, rfl⟩
  have settled : first = settlePlan Table.host true r := congrArg (settlePlan Table.host true) ran
  rw [settlePlan_table] at settled
  clear_value first
  have moved : first.host = r.host.after [] r.referee.tally.due := by rw [settled, Table.after]; rfl
  have active : (first.referee.preparing true).active = (ref.preparing true).active := by
    simp only [preparing, settled]
    exact (congrArg (·.referee.active) ran).symm
  have draw : (first.referee.preparing true).draw =
      ((ref.preparing true).evaluate ⟨Table.host, .prepare true, false⟩ ctx t).referee.draw := by
    rw [ran, settled]
    rfl
  obtain ⟨news, lines, told, shown, again⟩ := (ref.preparing true).evaluate_table_again ctx t
    (first.referee.preparing true) r.referee.tally.due (fun reveals => absurd reveals (by decide))
    active rfl draw
  rw [ran] at told shown again
  rw [← moved] at again
  have tally : first.referee.tally = r.referee.tally.settle := by rw [settled]
  rw [unsettled, Bool.not_true, again]
  refine ⟨?_, ⟨lines, ?_, ?_⟩, news, ?_, ?_⟩
  · rw [settled]
  · rw [moved, ← shown]
    rfl
  · rw [moved]
    rfl
  · rw [settled]
    show ref.events ++ news <+: r.referee.events ++ _
    rw [told]
    exact List.prefix_append _ _
  · simp only [preparing, PlanTally.start, tally, PlanTally.settle]
    rfl

theorem repeats_prepareRound :
    let first := ref.prepareRound Table.host true ctx t
    first.Repeats ref t (first.referee.prepareRound Table.host true ctx first.host) ∧
      first.referee.requestsOf Table.host ctx first.host (.prepareRound true) = [] := by
  intro first
  obtain ⟨r, ran⟩ : ∃ r, first.referee.unsettled Table.host ctx first.host true = r := ⟨_, rfl⟩
  have repeats : first.Repeats ref t r := ran ▸ ref.repeats_unsettled ctx t
  have tally : first.referee.tally = _ := ref.tally_prepareRound ctx true t
  clear_value first
  obtain ⟨news, told, same⟩ := repeats.referee
  have kept : r.referee.tally = first.referee.tally := congrArg (·.tally) same
  have due : r.referee.tally.due = 0 := by
    rw [kept, tally]
    exact PlanTally.due_settle _
  have settle : r.referee.tally.settle = first.referee.tally := by
    rw [kept, tally]
    rfl
  constructor
  · rw [prepareRound_eq, ran, settlePlan, if_pos due]
    refine ⟨repeats.report, repeats.table, news, told, ?_⟩
    rw [settle, same]
  · rw [requestsOf_prepareRound ran]
    exact if_pos due

/-- A pass that begins nothing anew is not felt when it is entered again at once: it reports the
same, moves nothing but the log and the lines, and does not ask the table for planned turns. -/
theorem repeats_enter {entry : Entry} (repeatable : entry.Repeatable ref) :
    let first := ref.enter entry Table.host ctx t
    first.Repeats ref t (first.referee.enter entry Table.host ctx first.host) ∧
      first.referee.requestsOf Table.host ctx first.host entry = [] := by
  cases repeatable with
  | prepareRound => exact ref.repeats_prepareRound ctx t
  | openRound closed =>
    exact ⟨ref.repeats_recheckRules ctx t closed, requests_evaluate _ _ _ _ _ _⟩
  | recheckRules closed =>
    exact ⟨ref.repeats_recheckRules ctx t closed, requests_evaluate _ _ _ _ _ _⟩
  | openTurn => exact ⟨ref.repeats_evaluate ctx t (by decide), requests_evaluate _ _ _ _ _ _⟩
  | settleTurn => exact ⟨ref.repeats_evaluate ctx t (by decide), requests_evaluate _ _ _ _ _ _⟩
  | closeRound => exact ⟨ref.repeats_evaluate ctx t (by decide), requests_evaluate _ _ _ _ _ _⟩

/-- A rule that has two more turns granted, and one that reveals a card when a turn is settled. -/
theorem repeats_enter_overtime :
    let overtime : Rule := { name := "Overtime", tags :=
      [.timing .roundPrepare, .effect { effect := .modifyPlannedTurns 2 }] }
    let scout : Rule := { name := "Scout", tags :=
      [.timing .turnSettlement, .effect { effect := .revealNextOpponentCard },
        .effect { effect := .addScore 3 }] }
    let ref : Referee := { active := ⟨[overtime, scout]⟩ }
    let t := (Table.ofSeed .standard 1).deal
    let prepared := ref.enter (.prepareRound true) Table.host {} t
    let settled := prepared.referee.enter .settleTurn Table.host {} prepared.host
    ((Entry.prepareRound true).Repeatable ref ∧ Entry.settleTurn.Repeatable prepared.referee) ∧
      (ref.requestsOf Table.host {} t (.prepareRound true) = [⟨2, true⟩] ∧
        prepared.Repeats ref t (prepared.referee.enter (.prepareRound true) Table.host {}
          prepared.host) ∧
        prepared.referee.requestsOf Table.host {} prepared.host (.prepareRound true) = []) ∧
      (settled.report.delta = 3 ∧ settled.referee.draw.once = true) ∧
        settled.Repeats prepared.referee prepared.host (settled.referee.enter .settleTurn
          Table.host {} settled.host) := by
  intro overtime scout ref t prepared settled
  have again := ref.repeats_enter {} t .prepareRound
  have still := prepared.referee.repeats_enter {} prepared.host .settleTurn
  refine ⟨⟨.prepareRound, .settleTurn⟩, ⟨by decide +kernel, again⟩, ?_, still.1⟩
  decide +kernel

end Referee

end Roshambo
