import Roshambo.Proofs.Pass.Frame
import Roshambo.Proofs.Pass.Firing

/-!
# What a pass finds

Rules write to the draw order, to the log and to their diagnostics, and look at none of them; of the
tally they write what they ask for; and they meet their host through what it answers. So a pass
does the same whatever it finds, and puts what it does on top of it: if a map takes the states of
one host to those of another, along with the operations that the pass may use, it takes the pass
over the first to the pass over the second, with its own past before it (`applyRules_onto`,
`evaluate_eq_onto`). `evaluate_redrawn` and `evaluate_again` compare passes that find different
things.
-/
namespace Roshambo

/-- Both switches, each set if it is set in one of the two. -/
def DrawOrder.join (p q : DrawOrder) : DrawOrder := ⟨p.always || q.always, p.once || q.once⟩

namespace DrawOrder

theorem join_keepFront (p q : DrawOrder) : p.join q.keepFront = (p.join q).keepFront := by
  simp only [join, keepFront, Bool.or_true]

theorem join_frontOnce (p q : DrawOrder) : p.join q.frontOnce = (p.join q).frontOnce := by
  simp only [join, frontOnce, Bool.or_true]

theorem join_empty (p : DrawOrder) : p.join {} = p := by
  simp only [join, Bool.or_false]

theorem join_join_self (p q : DrawOrder) : (p.join q).join q = p.join q := by
  simp only [join, Bool.or_assoc, Bool.or_self]

end DrawOrder

/-- What stands before the work of a pass. -/
structure Past where
  draw : DrawOrder
  granted : Int64
  events : List Event
  diagnostics : List Diagnostic

variable {σ τ : Type}

/-- The state on top of a past, over another host. -/
def PassState.onto (past : Past) (f : σ → τ) (s : PassState σ) : PassState τ :=
  { s with
    host := f s.host
    draw := past.draw.join s.draw
    tally := { s.tally with granted := past.granted }
    events := past.events ++ s.events
    diagnostics := past.diagnostics ++ s.diagnostics }

/-- `f` takes the states of a host to those of another, along with every operation that the rules
of the pass may use. -/
structure Host.MapsIn (pass : Pass) (handsOpen : Bool) (f : σ → τ) (host : Host σ)
    (host' : Host τ) : Prop where
  countOf : ∀ s, host'.countOf (f s) = host.countOf s
  firstCard : ∀ s, host'.firstCard (f s) = host.firstCard s
  lastCard : pass.applies .revealOpponentFirstAndLast = true →
    ∀ s, host'.lastCard (f s) = host.lastCard s
  replaceOthers : handsOpen = true → ∀ s choice count,
    host'.replaceOthers (f s) choice count = (host.replaceOthers s choice count).map id f
  replaceRandomly : handsOpen = true → ∀ s choice count,
    host'.replaceRandomly (f s) choice count = (host.replaceRandomly s choice count).map id f
  addCards : handsOpen = true → ∀ s side choice count,
    host'.addCards (f s) side choice count = (host.addCards s side choice count).map id f
  addRandomCards : handsOpen = true → ∀ s side count,
    host'.addRandomCards (f s) side count = (host.addRandomCards s side count).map id f
  showInfo : ∀ s text, host'.showInfo (f s) text = f (host.showInfo s text)

theorem Host.MapsIn.id (pass : Pass) (handsOpen : Bool) (host : Host σ) :
    host.MapsIn pass handsOpen id host where
  countOf _ := rfl
  firstCard _ := rfl
  lastCard _ _ := rfl
  replaceOthers _ _ _ _ := rfl
  replaceRandomly _ _ _ _ := rfl
  addCards _ _ _ _ _ := rfl
  addRandomCards _ _ _ _ := rfl
  showInfo _ _ := rfl

namespace PassSetting

variable {f : σ → τ} {host : Host σ} {host' : Host τ} {pass : Pass} {handsOpen : Bool}
  (past : Past) (maps : host.MapsIn pass handsOpen f host')

/-! ## Effects and tags -/

theorem noteChange_onto (s : PassState σ) (rule : String) (side : Side) (choice : Option Choice)
    (operation : String) (answer : Option UInt32) :
    (s.onto past f).noteChange pass rule side choice operation answer =
      (s.noteChange pass rule side choice operation answer).onto past f := by
  cases answer <;>
    simp only [PassState.noteChange, PassState.emit, PassState.addDiagnostic, PassState.onto,
      List.append_assoc]

include maps

theorem replaceCards_onto (isOpen : handsOpen = true) (rule : String) (choice : Choice)
    (count : UInt32) (s : PassState σ) :
    replaceCards ⟨host', pass, handsOpen⟩ rule choice count (s.onto past f) =
      (replaceCards ⟨host, pass, handsOpen⟩ rule choice count s).onto past f := by
  cases choice <;>
    simp only [replaceCards, ← noteChange_onto] <;>
    simp only [PassState.onto, maps.replaceOthers isOpen, maps.replaceRandomly isOpen] <;> rfl

theorem addCards_onto (isOpen : handsOpen = true) (rule : String) (side : Side) (choice : Choice)
    (count : UInt32) (s : PassState σ) :
    addCards ⟨host', pass, handsOpen⟩ rule side choice count (s.onto past f) =
      (addCards ⟨host, pass, handsOpen⟩ rule side choice count s).onto past f := by
  simp only [addCards, ← noteChange_onto]
  simp only [PassState.onto, maps.addCards isOpen]
  rfl

theorem addRandomCards_onto (isOpen : handsOpen = true) (rule : String) (side : Side)
    (count : UInt32) (s : PassState σ) :
    addRandomCards ⟨host', pass, handsOpen⟩ rule side count (s.onto past f) =
      (addRandomCards ⟨host, pass, handsOpen⟩ rule side count s).onto past f := by
  simp only [addRandomCards, ← noteChange_onto]
  simp only [PassState.onto, maps.addRandomCards isOpen]
  rfl

theorem perform_onto (rule : String) {effect : Effect} (applies : pass.applies effect = true)
    (s : PassState σ) :
    perform ⟨host', pass, handsOpen⟩ rule effect (s.onto past f) =
      (perform ⟨host, pass, handsOpen⟩ rule effect s).onto past f := by
  cases effect with
  | addScore amount => rfl
  | finalTotalMultiplier factor => rfl
  | showInfo text => cases text <;> rfl
  | finalScoreMultiplier factor =>
    simp only [perform]
    split
    · rfl
    · split
      · simp only [PassState.onto, PassState.addDiagnostic, List.append_assoc]
      · rfl
  | modifyPlannedTurns delta =>
    simp only [perform]
    split <;> rfl
  | addScorePerCard choice perCard =>
    have counted : host'.countOf (s.onto past f).host = host.countOf s.host := maps.countOf s.host
    simp only [perform, counted]
    split
    · rfl
    · simp only [PassState.onto, PassState.addDiagnostic, List.append_assoc]
  | revealOpponentFirstAndLast =>
    have first : host'.firstCard (s.onto past f).host = host.firstCard s.host :=
      maps.firstCard s.host
    have last : host'.lastCard (s.onto past f).host = host.lastCard s.host :=
      maps.lastCard applies s.host
    simp only [perform, revealFirstAndLast, first, last]
    split
    · rfl
    · simp only [PassState.onto, PassState.addDiagnostic, List.append_assoc]
  | revealNextOpponentCard =>
    have first : host'.firstCard (s.onto past f).host = host.firstCard s.host :=
      maps.firstCard s.host
    simp only [perform, revealNext, first]
    split <;> simp only [PassState.onto, PassState.emit, PassState.setInfo,
      PassState.addDiagnostic, DrawOrder.join_frontOnce, List.append_assoc]
  | forceOpponentDrawFromFront enabled =>
    simp only [perform]
    split
    · simp only [PassState.onto, PassState.emit, DrawOrder.join_keepFront, List.append_assoc]
    · rfl
  | replaceOpponentCards choice count =>
    simp only [perform]
    split
    · rename_i isOpen
      exact replaceCards_onto past maps (Bool.and_eq_true_iff.1 isOpen).1 rule choice count s
    · rfl
  | addCards side choice count =>
    simp only [perform]
    split
    · rename_i isOpen
      exact addCards_onto past maps (Bool.and_eq_true_iff.1 isOpen).1 rule side choice count s
    · rfl
  | addRandomCards side count =>
    simp only [perform]
    split
    · rename_i isOpen
      exact addRandomCards_onto past maps (Bool.and_eq_true_iff.1 isOpen).1 rule side count s
    · rfl

theorem performTag_onto (rule : String) (tag : Tag) (s : PassState σ) :
    performTag ⟨host', pass, handsOpen⟩ rule tag (s.onto past f) =
      (performTag ⟨host, pass, handsOpen⟩ rule tag s).onto past f := by
  cases tag with
  | timing _ => rfl
  | condition _ => rfl
  | effect tagged =>
    have context : (s.onto past f).context = s.context := rfl
    simp only [performTag, context]
    split
    · rename_i acts
      exact perform_onto past maps rule (Bool.and_eq_true_iff.1 acts).1 s
    · rfl
  | invalid tag =>
    simp only [performTag]
    split
    · simp only [PassState.onto, PassState.addDiagnostic, List.append_assoc]
    · rfl

theorem performTags_onto (rule : String) (tags : List Tag) (s : PassState σ) :
    tags.foldl (fun s tag => performTag ⟨host', pass, handsOpen⟩ rule tag s) (s.onto past f) =
      (tags.foldl (fun s tag => performTag ⟨host, pass, handsOpen⟩ rule tag s) s).onto past f := by
  induction tags generalizing s with
  | nil => rfl
  | cons tag tags ih =>
    rw [List.foldl_cons, List.foldl_cons, performTag_onto past maps]
    exact ih _

/-! ## Rules -/

/-- The same verdict comes of the answers of either host. -/
theorem verdict_onto (rule : Rule) (s : PassState σ) :
    rule.verdict host' (s.onto past f).host (s.onto past f).context pass =
      rule.verdict host s.host s.context pass := by
  refine verdict_congr ?_ (fun c => ?_) rule
  · rfl
  · cases c <;> simp only [Condition.holds?, PassState.onto, maps.countOf] <;> rfl

theorem applyRule_onto (rule : Rule) (s : PassState σ) :
    applyRule ⟨host', pass, handsOpen⟩ rule (s.onto past f) =
      (applyRule ⟨host, pass, handsOpen⟩ rule s).onto past f := by
  simp only [applyRule, verdict_onto past maps]
  split
  · rw [← performTags_onto past maps]
    simp only [PassState.onto, PassState.emit, List.append_assoc]
  · simp only [PassState.onto, List.append_assoc]

theorem applyRules_onto (rules : List Rule) (s : PassState σ) :
    applyRules ⟨host', pass, handsOpen⟩ rules (s.onto past f) =
      (applyRules ⟨host, pass, handsOpen⟩ rules s).onto past f := by
  unfold applyRules
  induction rules generalizing s with
  | nil => rfl
  | cons rule rules ih =>
    rw [List.foldl_cons, List.foldl_cons, applyRule_onto past maps]
    exact ih _

theorem showLine_onto (s : PassState σ) :
    showLine ⟨host', pass, handsOpen⟩ (s.onto past f) =
      (showLine ⟨host, pass, handsOpen⟩ s).onto past f := by
  have context : (s.onto past f).context = s.context := rfl
  simp only [showLine, context]
  split
  · simp only [PassState.onto, PassState.emit, maps.showInfo, List.append_assoc]
  · rfl

end PassSetting

/-! ## Whole passes -/

/-- Where a pass begins that finds nothing but what has been asked for. -/
def PassState.blank (asked : Int64) (ctx : Context) (state : σ) : PassState σ where
  context := ctx
  host := state
  draw := {}
  tally := { asked := asked }
  events := []

namespace Referee

/-- What the referee makes of the state at the end of a pass. -/
def passEnd (ref : Referee) (phase : Phase) (s : PassState σ) : PassResult σ where
  report :=
    { phase := phase
      delta := s.context.delta
      fired := s.fired
      info := s.context.info
      diagnostics := s.diagnostics }
  context := s.context
  host := s.host
  referee := { ref with draw := s.draw, tally := s.tally, events := s.events }

theorem evaluate_eq_passEnd (ref : Referee) (setting : PassSetting σ) (ctx : Context) (state : σ) :
    ref.evaluate setting ctx state = ref.passEnd setting.pass.phase
      (setting.showLine (setting.applyRules ref.active.rules (ref.passStart ctx state))) := rfl

/-- What a pass of the referee finds. -/
def past (ref : Referee) : Past := ⟨ref.draw, ref.tally.granted, ref.events, []⟩

theorem passStart_eq_onto (ref : Referee) (ctx : Context) (f : σ → τ) (state : σ) :
    ref.passStart ctx (f state) = (PassState.blank ref.tally.asked ctx state).onto ref.past f := by
  simp only [passStart, PassState.onto, PassState.blank, past, DrawOrder.join_empty,
    List.append_nil]

variable {f : σ → τ} {host : Host σ} {host' : Host τ} {pass : Pass} {handsOpen : Bool}

/-- Every pass is one that found nothing, on top of what it did find. -/
theorem evaluate_eq_onto (ref : Referee) (maps : host.MapsIn pass handsOpen f host')
    (ctx : Context) (state : σ) :
    ref.evaluate ⟨host', pass, handsOpen⟩ ctx (f state) = ref.passEnd pass.phase
      ((PassSetting.showLine ⟨host, pass, handsOpen⟩ (PassSetting.applyRules
        ⟨host, pass, handsOpen⟩ ref.active.rules
          (.blank ref.tally.asked ctx state))).onto ref.past f) := by
  rw [evaluate_eq_passEnd, passStart_eq_onto, PassSetting.applyRules_onto ref.past maps,
    PassSetting.showLine_onto ref.past maps]

/-- A pass from another draw order ends in the same way, perhaps in another draw order again. -/
theorem evaluate_redrawn (ref : Referee) (setting : PassSetting σ) (ctx : Context) (state : σ)
    (draw : DrawOrder) :
    ∃ draw', evaluate { ref with draw := draw } setting ctx state =
      { ref.evaluate setting ctx state with
        referee := { (ref.evaluate setting ctx state).referee with draw := draw' } } := by
  obtain ⟨host, pass, handsOpen⟩ := setting
  have maps := Host.MapsIn.id pass handsOpen host
  have once : ref.evaluate ⟨host, pass, handsOpen⟩ ctx state = _ :=
    ref.evaluate_eq_onto maps ctx state
  have again : evaluate { ref with draw := draw } ⟨host, pass, handsOpen⟩ ctx state = _ :=
    evaluate_eq_onto { ref with draw := draw } maps ctx state
  rw [once, again]
  exact ⟨_, rfl⟩

/-- A pass that finds the draw order of an earlier one, and the same rules, does what that one did
over again. -/
theorem evaluate_again (ref ref' : Referee) (maps : host.MapsIn pass handsOpen f host')
    {g : σ → τ} (maps' : host.MapsIn pass handsOpen g host') (ctx : Context) (state : σ)
    (active : ref'.active = ref.active) (asked : ref'.tally.asked = ref.tally.asked)
    (draw : ref'.draw = (ref.evaluate ⟨host', pass, handsOpen⟩ ctx (f state)).referee.draw) :
    let first := ref.evaluate ⟨host', pass, handsOpen⟩ ctx (f state)
    ∃ news left, first.referee.events = ref.events ++ news ∧ first.host = f left ∧
      ref'.evaluate ⟨host', pass, handsOpen⟩ ctx (g state) =
        { first with
          host := g left
          referee := { ref' with
            tally := { ref'.tally with asked := first.referee.tally.asked }
            events := ref'.events ++ news } } := by
  intro first
  have once := ref.evaluate_eq_onto maps ctx state
  have again := ref'.evaluate_eq_onto maps' ctx state
  rw [active, asked] at again
  rw [once] at draw
  -- Both passes end in `done`, on top of what each found; its switches are set already.
  generalize PassSetting.showLine ⟨host, pass, handsOpen⟩ _ = done at once again draw
  have settled : ref'.draw.join done.draw = ref'.draw := by
    rw [draw]
    exact DrawOrder.join_join_self _ _
  refine ⟨done.events, done.host, congrArg (·.referee.events) once, congrArg (·.host) once, ?_⟩
  rw [again, show first = _ from once]
  simp only [passEnd, PassState.onto, past, settled]

end Referee

end Roshambo
