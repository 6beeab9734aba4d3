import Roshambo.Round.Phases

/-!
# What a pass can change

Performing an effect comes to one of four things: notes for the report, a change of open hands, the
front draw of a round, or a reveal. An invariant of a pass is checked against these four, and the
inductions on the host and on the draw order carry it through all rules of the pass.
-/
namespace Roshambo

/-- What an effect does to the hands of a host. -/
def Host.changeHands {σ : Type} (host : Host σ) (effect : Effect) (state : σ) : σ :=
  match effect with
  | .replaceOpponentCards .rock count => (host.replaceOthers state .rock count).2
  | .replaceOpponentCards choice count => (host.replaceRandomly state choice count).2
  | .addCards side choice count => (host.addCards state side choice count).2
  | .addRandomCards side count => (host.addRandomCards state side count).2
  | _ => state

/-- A change of hands is announced, or its operation is reported as not offered. -/
theorem PassState.noteChange_eq {σ : Type} (s : PassState σ) (pass : Pass) (rule : String)
    (side : Side) (choice : Option Choice) (operation : String) (answer : Option UInt32) :
    ∃ news found,
      (∀ event ∈ news, ∃ count, event = .handMutated rule side choice count pass.isRepeat) ∧
      s.noteChange pass rule side choice operation answer =
        { s with events := s.events ++ news, diagnostics := s.diagnostics ++ found } := by
  cases answer with
  | some count =>
    exact ⟨[.handMutated rule side choice count pass.isRepeat], [], by simp,
      by simp [noteChange, emit]⟩
  | none =>
    exact ⟨[], [.notOffered rule .effect operation], by simp, by simp [noteChange, addDiagnostic]⟩

namespace PassSetting

variable {σ : Type} {setting : PassSetting σ}

/-! ## What one effect can do -/

/-- The effect `effect` of `rule` leads from `s` to `s'` by changing hands. -/
def ChangesHands (setting : PassSetting σ) (rule : String) (effect : Effect)
    (s s' : PassState σ) : Prop :=
  ∃ news found,
    (∀ event ∈ news, ∃ side choice count,
      event = .handMutated rule side choice count setting.pass.isRepeat) ∧
    s' = { s with
      host := setting.host.changeHands effect s.host
      events := s.events ++ news
      diagnostics := s.diagnostics ++ found }

/-- A reveal announces the card in front, if there is one, and fixes the next draw. -/
def Reveals (setting : PassSetting σ) (rule : String) (s s' : PassState σ) : Prop :=
  ∃ context news found,
    (∀ event ∈ news, ∃ card,
      setting.host.firstCard s.host .opponent = some card ∧ event = .cardRevealed rule card) ∧
    s' = { s with
      context := context
      draw := s.draw.frontOnce
      events := s.events ++ news
      diagnostics := s.diagnostics ++ found }

theorem changesHands_of_noteChange {rule : String} {effect : Effect} {s : PassState σ}
    {side : Side} {choice : Option Choice} {operation : String} {answer : Option UInt32} {host : σ}
    (h : host = setting.host.changeHands effect s.host) :
    setting.ChangesHands rule effect s ({ s with host := host }.noteChange setting.pass rule side
      choice operation answer) := by
  obtain ⟨news, found, announced, eq⟩ := PassState.noteChange_eq { s with host := host }
    setting.pass rule side choice operation answer
  refine ⟨news, found, fun event mem => ⟨side, choice, announced event mem⟩, ?_⟩
  rw [eq, h]

theorem reveals_revealNext (rule : String) (s : PassState σ) :
    setting.Reveals rule s (setting.revealNext rule s) := by
  unfold revealNext
  split
  · rename_i card front
    exact ⟨_, [.cardRevealed rule card], [], by simp [front], by
      simp [PassState.setInfo, PassState.emit]; rfl⟩
  · exact ⟨s.context, [], [_], by simp, by simp [PassState.addDiagnostic]; rfl⟩

theorem perform_cases (setting : PassSetting σ) (rule : String) (effect : Effect) (s : PassState σ) :
    (∃ context tally found, setting.perform rule effect s =
      { s with context := context, tally := tally, diagnostics := s.diagnostics ++ found }) ∨
    (setting.handsOpen = true ∧
      setting.ChangesHands rule effect s (setting.perform rule effect s)) ∨
    (setting.pass = .roundStart true ∧ setting.perform rule effect s =
      { s with draw := s.draw.keepFront, events := s.events ++ [.frontDrawSet rule] }) ∨
    (effect = .revealNextOpponentCard ∧
      setting.Reveals rule s (setting.perform rule effect s)) := by
  have same : ∃ context tally found, s =
      { s with context := context, tally := tally, diagnostics := s.diagnostics ++ found } :=
    ⟨s.context, s.tally, [], by simp⟩
  have said : ∀ context, ∃ context' tally found, { s with context := context } =
      { s with context := context', tally := tally, diagnostics := s.diagnostics ++ found } :=
    fun context => ⟨context, s.tally, [], by simp⟩
  have found : ∀ d, ∃ context tally found, s.addDiagnostic d =
      { s with context := context, tally := tally, diagnostics := s.diagnostics ++ found } :=
    fun d => ⟨s.context, s.tally, [d], rfl⟩
  cases effect with
  | addScore _ => exact .inl (said _)
  | finalTotalMultiplier _ => exact .inl (said _)
  | showInfo text => cases text <;> exact .inl (said _)
  | finalScoreMultiplier factor =>
    simp only [perform]
    split
    · exact .inl (said _)
    · split
      · exact .inl (found _)
      · exact .inl same
  | addScorePerCard choice perCard =>
    simp only [perform]
    split
    · exact .inl (said _)
    · exact .inl (found _)
  | revealOpponentFirstAndLast =>
    simp only [perform, revealFirstAndLast]
    split
    · exact .inl (said _)
    · exact .inl (found _)
  | modifyPlannedTurns delta =>
    simp only [perform]
    split
    · exact .inl same
    · exact .inl ⟨s.context, s.tally.add delta, [], by simp⟩
  | forceOpponentDrawFromFront enabled =>
    simp only [perform]
    split
    · rename_i initial
      rw [Bool.and_eq_true, beq_iff_eq] at initial
      exact .inr (.inr (.inl ⟨initial.2, rfl⟩))
    · exact .inl same
  | revealNextOpponentCard => exact .inr (.inr (.inr ⟨rfl, reveals_revealNext rule s⟩))
  | replaceOpponentCards choice count =>
    simp only [perform]
    split
    · rename_i isOpen
      rw [Bool.and_eq_true] at isOpen
      refine .inr (.inl ⟨isOpen.1, ?_⟩)
      cases choice <;> exact changesHands_of_noteChange rfl
    · exact .inl same
  | addCards side choice count =>
    simp only [perform]
    split
    · rename_i isOpen
      rw [Bool.and_eq_true] at isOpen
      exact .inr (.inl ⟨isOpen.1, changesHands_of_noteChange rfl⟩)
    · exact .inl same
  | addRandomCards side count =>
    simp only [perform]
    split
    · rename_i isOpen
      rw [Bool.and_eq_true] at isOpen
      exact .inr (.inl ⟨isOpen.1, changesHands_of_noteChange rfl⟩)
    · exact .inl same

/-- A rule that does not fire leaves at most its diagnostics. -/
theorem applyRule_of_not_fires {rule : Rule} {s : PassState σ}
    (rests : rule.verdict setting.host s.host s.context setting.pass ≠ .fires) :
    setting.applyRule rule s = { s with diagnostics := s.diagnostics ++
      (rule.verdict setting.host s.host s.context setting.pass).diagnostics } := by
  unfold applyRule
  split
  · contradiction
  · rfl

/-! ## Induction along a pass -/

/-- Between two rules of a pass `P` holds; while a rule that fired acts, `Q` does. -/
structure Carries (setting : PassSetting σ) (P Q : PassState σ → Prop) : Prop where
  fire : ∀ s name, P s → Q ({ s with fired := s.fired ++ [name] }.emit
    (.ruleFired setting.pass.phase name))
  perform : ∀ rule effect s, setting.pass.applies effect = true → Q s →
    Q (setting.perform rule effect s)
  report : ∀ s found, Q s → Q (s.addDiagnostic found)
  rest : ∀ s found, P s → P { s with diagnostics := s.diagnostics ++ found }
  done : ∀ s, Q s → P s

namespace Carries

variable {P Q : PassState σ → Prop}

theorem performTag (h : setting.Carries P Q) (rule : String) (tag : Tag) {s : PassState σ}
    (hs : Q s) : Q (setting.performTag rule tag s) := by
  cases tag with
  | effect tagged =>
    simp only [PassSetting.performTag]
    split
    · rename_i acts
      rw [Bool.and_eq_true] at acts
      exact h.perform _ _ _ acts.1 hs
    · exact hs
  | invalid tag =>
    simp only [PassSetting.performTag]
    split
    · exact h.report _ _ hs
    · exact hs
  | timing _ => exact hs
  | condition _ => exact hs

theorem performTags (h : setting.Carries P Q) (rule : String) (tags : List Tag)
    {s : PassState σ} (hs : Q s) :
    Q (tags.foldl (fun s tag => setting.performTag rule tag s) s) := by
  induction tags generalizing s with
  | nil => exact hs
  | cons tag tags ih => exact ih (h.performTag rule tag hs)

theorem applyRule (h : setting.Carries P Q) (rule : Rule) {s : PassState σ} (hs : P s) :
    P (setting.applyRule rule s) := by
  unfold PassSetting.applyRule
  split
  · exact h.done _ (h.performTags _ _ (h.fire _ _ hs))
  · exact h.rest _ _ hs

theorem applyRules (h : setting.Carries P Q) (rules : List Rule) {s : PassState σ} (hs : P s) :
    P (setting.applyRules rules s) := by
  unfold PassSetting.applyRules
  induction rules generalizing s with
  | nil => exact hs
  | cons rule rules ih => exact ih (h.applyRule rule hs)

end Carries

theorem host_applyRules {R : σ → Prop}
    (step : setting.handsOpen = true → ∀ effect state, setting.pass.applies effect = true →
      R state → R (setting.host.changeHands effect state))
    (rules : List Rule) {s : PassState σ} (hs : R s.host) :
    R (setting.applyRules rules s).host := by
  have carries : setting.Carries (fun s => R s.host) (fun s => R s.host) :=
    { fire := fun _ _ hs => hs
      report := fun _ _ hs => hs
      rest := fun _ _ hs => hs
      done := fun _ hs => hs
      perform := by
        intro rule effect s applies hs
        rcases setting.perform_cases rule effect s with ⟨_, _, _, h⟩ |
          ⟨isOpen, _, _, _, h⟩ | ⟨_, h⟩ | ⟨_, _, _, _, _, h⟩ <;> rw [h]
        · exact hs
        · exact step isOpen effect _ applies hs
        · exact hs
        · exact hs }
  exact carries.applyRules rules hs

theorem draw_applyRules {R : DrawOrder → Prop}
    (keep : setting.pass = .roundStart true → ∀ draw, R draw → R draw.keepFront)
    (once : setting.pass.applies .revealNextOpponentCard = true →
      ∀ draw, R draw → R draw.frontOnce)
    (rules : List Rule) {s : PassState σ} (hs : R s.draw) :
    R (setting.applyRules rules s).draw := by
  have carries : setting.Carries (fun s => R s.draw) (fun s => R s.draw) :=
    { fire := fun _ _ hs => hs
      report := fun _ _ hs => hs
      rest := fun _ _ hs => hs
      done := fun _ hs => hs
      perform := by
        intro rule effect s applies hs
        rcases setting.perform_cases rule effect s with ⟨_, _, _, h⟩ |
          ⟨_, _, _, _, h⟩ | ⟨initial, h⟩ | ⟨reveal, _, _, _, _, h⟩ <;> rw [h]
        · exact hs
        · exact hs
        · exact keep initial _ hs
        · exact once (reveal ▸ applies) _ hs }
  exact carries.applyRules rules hs

@[simp] theorem showLine_draw (s : PassState σ) : (setting.showLine s).draw = s.draw := by
  unfold showLine
  split <;> rfl

theorem showLine_host (s : PassState σ) :
    (setting.showLine s).host = s.host ∨
      ∃ text, (setting.showLine s).host = setting.host.showInfo s.host text := by
  unfold showLine
  split
  · exact .inr ⟨_, rfl⟩
  · exact .inl rfl

end PassSetting

/-! ## Whole passes -/

namespace Referee

variable {σ : Type} (ref : Referee) (setting : PassSetting σ) (ctx : Context) (state : σ)

/-- Where a pass begins. -/
def passStart : PassState σ :=
  { context := ctx, host := state, draw := ref.draw, tally := ref.tally, events := ref.events }

theorem evaluate_host : (ref.evaluate setting ctx state).host =
    (setting.showLine (setting.applyRules ref.active.rules (ref.passStart ctx state))).host := rfl

theorem evaluate_draw : (ref.evaluate setting ctx state).referee.draw =
    (setting.applyRules ref.active.rules (ref.passStart ctx state)).draw :=
  setting.showLine_draw _

/-- What holds of the host and is kept by changes of its hands, if they are open, and by shown
lines, holds after the pass. -/
theorem host_evaluate {R : σ → Prop} (base : R state)
    (step : setting.handsOpen = true → ∀ effect state, setting.pass.applies effect = true →
      R state → R (setting.host.changeHands effect state))
    (line : ∀ state text, R state → R (setting.host.showInfo state text)) :
    R (ref.evaluate setting ctx state).host := by
  have rules : R (setting.applyRules ref.active.rules (ref.passStart ctx state)).host :=
    setting.host_applyRules step _ base
  rw [evaluate_host]
  rcases setting.showLine_host (setting.applyRules ref.active.rules (ref.passStart ctx state))
    with same | ⟨text, shown⟩
  · rwa [same]
  · rw [shown]
    exact line _ text rules

/-- What holds of the draw order and is kept by the switches that the pass may set holds after
it. -/
theorem draw_evaluate {R : DrawOrder → Prop} (base : R ref.draw)
    (keep : setting.pass = .roundStart true → ∀ draw, R draw → R draw.keepFront)
    (once : setting.pass.applies .revealNextOpponentCard = true →
      ∀ draw, R draw → R draw.frontOnce) :
    R (ref.evaluate setting ctx state).referee.draw := by
  rw [evaluate_draw]
  exact setting.draw_applyRules keep once _ base

/-- A pass that opens no round leaves the draw order of the round as it was. -/
theorem always_evaluate (later : setting.pass ≠ .roundStart true) :
    (ref.evaluate setting ctx state).referee.draw.always = ref.draw.always :=
  ref.draw_evaluate setting ctx state (R := fun draw => draw.always = ref.draw.always) rfl
    (fun initial => absurd initial later) (fun _ _ same => same)

end Referee

/-! ## Preparing a round -/

namespace Referee

variable {σ : Type} (ref : Referee) (host : Host σ) (ctx : Context) (state : σ)

/-- The referee with which the rules of a round-prepare pass begin. -/
def preparing (again : Bool) : Referee :=
  { ref with tally := (if again then ref.tally else {}).start }

/-- What the rules of a round-prepare pass leave, before the plan is settled. -/
def unsettled (again : Bool) : PassResult σ :=
  (ref.preparing again).evaluate ⟨host, .prepare again, !again⟩ ctx state

theorem prepareRound_eq (again : Bool) : ref.prepareRound host again ctx state =
    settlePlan host again (ref.unsettled host ctx state again) := rfl

/-- Settling the plan leaves the report as it was, apart from diagnostics, and of the referee all but
the tally and the events. -/
theorem settlePlan_eq (host : Host σ) (again : Bool) (r : PassResult σ) :
    ∃ found planned state tally news, settlePlan host again r =
      { report := { r.report with diagnostics := r.report.diagnostics ++ found }
        context := { r.context with planned := planned }
        host := state
        referee := { r.referee with tally := tally, events := r.referee.events ++ news } } := by
  simp only [settlePlan]
  split
  · exact ⟨[], r.context.planned, r.host, _, [], by simp; rfl⟩
  · split
    · rename_i planned state _
      exact ⟨[], planned, state, _, [_], by simp; rfl⟩
    · rename_i state _
      exact ⟨[_], r.context.planned, state, r.referee.tally, [], by simp; rfl⟩

end Referee

end Roshambo
