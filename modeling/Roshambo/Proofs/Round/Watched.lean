import Roshambo.Proofs.Round.Entry
import Roshambo.Proofs.Round.Growth

/-!
# Passes under watch

A pass works on its host one operation at a time. A watched host keeps every state that it went
through, and apart from that behaves as before, so what is shown of the states it kept holds of a
pass at every point (`traces_enter`). On the tables of a pass, hands only grow.
-/
namespace Roshambo

variable {σ : Type}

/-- The host with a record of all states that its operations led to, in order. -/
def Host.watched (host : Host σ) : Host (σ × List σ) where
  countOf s := host.countOf s.1
  firstCard s := host.firstCard s.1
  lastCard s := host.lastCard s.1
  replaceOthers s choice count :=
    (host.replaceOthers s.1 choice count).map id fun next => (next, s.2 ++ [next])
  replaceRandomly s choice count :=
    (host.replaceRandomly s.1 choice count).map id fun next => (next, s.2 ++ [next])
  addCards s side choice count :=
    (host.addCards s.1 side choice count).map id fun next => (next, s.2 ++ [next])
  addRandomCards s side count :=
    (host.addRandomCards s.1 side count).map id fun next => (next, s.2 ++ [next])
  movePlan s delta := (host.movePlan s.1 delta).map id fun next => (next, s.2 ++ [next])
  showInfo s text := (host.showInfo s.1 text, s.2 ++ [host.showInfo s.1 text])
  total s := host.total s.1
  rerolls s := host.rerolls s.1

theorem Host.maps_watched (host : Host σ) : host.watched.Maps Prod.fst host where
  countOf _ := rfl
  firstCard _ := rfl
  lastCard _ := rfl
  replaceOthers _ _ _ := rfl
  replaceRandomly _ _ _ := rfl
  addCards _ _ _ _ := rfl
  addRandomCards _ _ _ := rfl
  movePlan _ _ := rfl
  showInfo _ _ := rfl

/-- The states that were kept include the present one, and all of them have the property. -/
def Traces (P : σ → Prop) (s : σ × List σ) : Prop := s.1 ∈ s.2 ∧ ∀ state ∈ s.2, P state

variable {P : σ → Prop} {host : Host σ} {s : σ × List σ}

theorem Traces.push (h : Traces P s) {next : σ} (holds : P next) :
    Traces P (next, s.2 ++ [next]) := by
  refine ⟨List.mem_append_right _ (List.mem_singleton.2 rfl), fun state mem => ?_⟩
  rcases List.mem_append.1 mem with old | new
  · exact h.2 state old
  · exact List.mem_singleton.1 new ▸ holds

theorem Traces.changeHands (h : Traces P s) (effect : Effect)
    (holds : P (host.changeHands effect s.1)) : Traces P (host.watched.changeHands effect s) := by
  cases effect with
  | replaceOpponentCards choice count => cases choice <;> exact h.push holds
  | addCards side choice count => exact h.push holds
  | addRandomCards side count => exact h.push holds
  | _ => exact h

namespace Referee

theorem settlePlan_host (host : Host σ) (again : Bool) (r : PassResult σ) :
    (settlePlan host again r).host = r.host ∨
      (settlePlan host again r).host = (host.movePlan r.host r.referee.tally.due).2 := by
  simp only [settlePlan]
  split
  · exact .inl rfl
  · split <;> rename_i answered <;> exact .inr (congrArg Prod.snd answered).symm

theorem traces_settlePlan (again : Bool) {r : PassResult (σ × List σ)} (h : Traces P r.host)
    (plan : ∀ delta, P (host.movePlan r.host.1 delta).2) :
    Traces P (settlePlan host.watched again r).host := by
  rcases settlePlan_host host.watched again r with same | moved
  · exact same ▸ h
  · rw [moved]
    exact h.push (plan r.referee.tally.due)

/-- What holds of a state and is kept by every operation holds of all states of a pass. -/
theorem traces_enter (ref : Referee) (entry : Entry) (ctx : Context) {state : σ} (base : P state)
    (hands : ∀ effect state, P state → P (host.changeHands effect state))
    (plan : ∀ delta state, P state → P (host.movePlan state delta).2)
    (lines : ∀ state text, P state → P (host.showInfo state text)) :
    Traces P (ref.enter entry host.watched ctx (state, [state])).host := by
  have start : Traces P (state, [state]) :=
    ⟨List.mem_singleton.2 rfl, fun other mem => List.mem_singleton.1 mem ▸ base⟩
  have ran : ∀ ref : Referee, ∀ pass handsOpen,
      Traces P (ref.evaluate ⟨host.watched, pass, handsOpen⟩ ctx (state, [state])).host := by
    intro ref pass handsOpen
    refine ref.host_evaluate _ ctx _ start ?_ ?_
    · exact fun _ effect s _ h => h.changeHands effect (hands effect s.1 (h.2 s.1 h.1))
    · exact fun s text h => h.push (lines s.1 text (h.2 s.1 h.1))
  cases entry with
  | prepareRound again =>
    have passed := ran (ref.preparing again) (.prepare again) (!again)
    exact traces_settlePlan again passed fun delta => plan delta _ (passed.2 _ passed.1)
  | openRound initial => cases initial <;> exact ran _ _ _
  | _ => exact ran ref _ _

/-- A pass that was run on a table. -/
structure PassRun where
  referee : Referee
  entry : Entry
  context : Context
  table : Table

namespace PassRun

def result (run : PassRun) : PassResult Table :=
  run.referee.enter run.entry Table.host run.context run.table

/-- The table at the beginning of the pass and after each of its operations. -/
def tables (run : PassRun) : List Table :=
  (run.referee.enter run.entry Table.host.watched run.context (run.table, [run.table])).host.2

/-- The pass that is watched is the pass itself, diagnostics apart. -/
theorem mirrors_tables (run : PassRun) :
    (run.referee.enter run.entry Table.host.watched run.context (run.table, [run.table])).Mirrors
      Prod.fst run.result :=
  mirrors_enter Table.host.maps_watched (.refl run.referee.active.rules) run.referee run.entry
    run.context (run.table, [run.table])

theorem traces_tables (run : PassRun) : Traces run.table.Grows
    (run.referee.enter run.entry Table.host.watched run.context (run.table, [run.table])).host := by
  refine run.referee.traces_enter run.entry run.context (.refl run.table) ?_ ?_ ?_
  · exact fun effect t grown => grown.trans (t.grows_changeHands effect)
  · exact fun delta t grown => grown.trans (t.grows_movePlan delta)
  · exact fun t text grown => grown.trans (t.grows_showInfo text)

theorem grows_tables (run : PassRun) : ∀ t ∈ run.tables, run.table.Grows t :=
  run.traces_tables.2

theorem result_mem_tables (run : PassRun) : run.result.host ∈ run.tables := by
  obtain ⟨_, _, eq⟩ := run.mirrors_tables
  rw [eq]
  exact run.traces_tables.1

theorem grows_result (run : PassRun) : run.table.Grows run.result.host :=
  run.grows_tables _ run.result_mem_tables

end PassRun

end Referee

end Roshambo
