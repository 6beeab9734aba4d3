import Roshambo.Proofs.Pass.Acts
import Roshambo.Proofs.Pass.Calls
import Roshambo.Proofs.Round.Entry

/-!
# Rules that rest

The rules that fire in a pass are some of the active ones, in their order, and a report names just
these. The others only rest: the pass comes to the same without them, although every rule is judged
in the state that the rules before it have left. A host that writes down what it is told to do
shows that it is told the same, too.
-/
namespace Roshambo

variable {σ τ : Type}

/-! ## Rules that fire -/

namespace PassSetting

variable (setting : PassSetting σ)

/-- The rules that fire, each judged in the state that the rules before it have left. -/
def firing : List Rule → PassState σ → List Rule
  | [], _ => []
  | rule :: rules, s =>
    let later := firing rules (setting.applyRule rule s)
    if rule.verdict setting.host s.host s.context setting.pass = .fires then rule :: later
    else later

theorem firing_sublist (rules : List Rule) (s : PassState σ) :
    (setting.firing rules s).Sublist rules := by
  induction rules generalizing s with
  | nil => exact .slnil
  | cons rule rules ih =>
    unfold firing
    split
    · exact (ih _).cons_cons rule
    · exact (ih _).cons rule

theorem fired_performTags (rule : String) (tags : List Tag) (s : PassState σ) :
    (tags.foldl (fun s tag => setting.performTag rule tag s) s).fired = s.fired := by
  induction tags generalizing s with
  | nil => rfl
  | cons tag tags ih =>
    obtain ⟨found, eq⟩ := setting.performTag_eq rule tag s
    refine (ih _).trans ?_
    show (setting.performTag rule tag s).fired = s.fired
    rw [eq]
    cases tag.act? setting.pass s.context with
    | none => rfl
    | some effect => exact (performed_perform rule effect s).fired

/-- The names of the rules that fire are noted in their order. -/
theorem fired_applyRules (rules : List Rule) (s : PassState σ) :
    (setting.applyRules rules s).fired = s.fired ++ (setting.firing rules s).map (·.name) := by
  induction rules generalizing s with
  | nil => exact (List.append_nil _).symm
  | cons rule rules ih =>
    refine (ih _).trans ?_
    by_cases fires : rule.verdict setting.host s.host s.context setting.pass = .fires
    · have fired : (setting.applyRule rule s).fired = s.fired ++ [rule.name] := by
        simp only [applyRule, fires]
        exact setting.fired_performTags rule.name rule.tags _
      simp [firing, fires, fired]
    · have fired : (setting.applyRule rule s).fired = s.fired := by
        rw [applyRule_of_not_fires fires]
      simp [firing, fires, fired]

/-- What is kept by the effects among the tags of a rule is kept by the tags. -/
theorem host_performTags {R : σ → Prop} (rule : String) {tags : List Tag} {s : PassState σ}
    (step : setting.handsOpen = true → ∀ tagged, .effect tagged ∈ tags →
      setting.pass.applies tagged.effect = true → ∀ state, R state →
        R (setting.host.changeHands tagged.effect state)) (hs : R s.host) :
    R (tags.foldl (fun s tag => setting.performTag rule tag s) s).host := by
  induction tags generalizing s with
  | nil => exact hs
  | cons tag tags ih =>
    refine ih (fun isOpen tagged mem => step isOpen tagged (List.mem_cons_of_mem _ mem)) ?_
    cases tag with
    | effect tagged =>
      simp only [performTag]
      split
      · rename_i acts
        rw [Bool.and_eq_true] at acts
        rcases setting.perform_cases rule tagged.effect s with ⟨_, _, _, h⟩ |
          ⟨isOpen, _, _, _, h⟩ | ⟨_, h⟩ | ⟨_, _, _, _, _, h⟩ <;> rw [h]
        · exact hs
        · exact step isOpen tagged List.mem_cons_self acts.1 _ hs
        · exact hs
        · exact hs
      · exact hs
    | invalid tag =>
      simp only [performTag]
      split <;> exact hs
    | timing _ => exact hs
    | condition _ => exact hs

/-- What is kept by the effects of the rules that fire is kept by all rules. -/
theorem host_applyRules_firing {R : σ → Prop} (rules : List Rule) {s : PassState σ}
    (step : setting.handsOpen = true → ∀ rule ∈ setting.firing rules s, ∀ tagged,
      .effect tagged ∈ rule.tags → setting.pass.applies tagged.effect = true → ∀ state, R state →
        R (setting.host.changeHands tagged.effect state)) (hs : R s.host) :
    R (setting.applyRules rules s).host := by
  induction rules generalizing s with
  | nil => exact hs
  | cons rule rules ih =>
    by_cases fires : rule.verdict setting.host s.host s.context setting.pass = .fires
    · simp only [firing, if_pos fires] at step
      refine ih (fun isOpen other mem => step isOpen other (List.mem_cons_of_mem _ mem)) ?_
      simp only [applyRule, fires]
      exact setting.host_performTags rule.name
        (fun isOpen => step isOpen rule List.mem_cons_self) hs
    · simp only [firing, if_neg fires] at step
      refine ih step ?_
      show R (setting.applyRule rule s).host
      rw [applyRule_of_not_fires fires]
      exact hs

/-- The same rules fire on hosts that mirror each other. -/
theorem firing_of_mirrors {f : σ → τ} {host : Host σ} {host' : Host τ} {pass : Pass}
    {handsOpen : Bool} (maps : host.Maps f host') (rules : List Rule) {s : PassState σ}
    {s' : PassState τ} (h : s.Mirrors f s') :
    firing ⟨host', pass, handsOpen⟩ rules s' = firing ⟨host, pass, handsOpen⟩ rules s := by
  induction rules generalizing s s' with
  | nil => rfl
  | cons rule rules ih =>
    simp only [firing, verdict_of_mirrors maps rule h, ih (mirrors_applyRule maps rule h)]

/-- In step: a rule that fires acts on both sides, and one that rests is passed over. -/
theorem mirrors_applyRules_firing (rules : List Rule) {s s' : PassState σ} (h : s.Mirrors id s') :
    (setting.applyRules rules s).Mirrors id
      (setting.applyRules (setting.firing rules s) s') := by
  induction rules generalizing s s' with
  | nil => exact h
  | cons rule rules ih =>
    by_cases fires : rule.verdict setting.host s.host s.context setting.pass = .fires
    · simp only [firing, if_pos fires]
      exact ih (mirrors_applyRule (.id setting.host) rule h)
    · simp only [firing, if_neg fires]
      have rested : (setting.applyRule rule s).Mirrors id s' := by
        rw [applyRule_of_not_fires fires]
        obtain ⟨found, rfl⟩ := h
        exact ⟨found, rfl⟩
      exact ih rested

end PassSetting

namespace Referee

variable (ref : Referee)

theorem fired_evaluate (setting : PassSetting σ) (ctx : Context) (state : σ) :
    (ref.evaluate setting ctx state).report.fired =
      (setting.firing ref.active.rules (ref.passStart ctx state)).map (·.name) :=
  (setting.showLine_fired _).trans (setting.fired_applyRules ref.active.rules _)

theorem host_evaluate_firing {R : σ → Prop} (setting : PassSetting σ) (ctx : Context) (state : σ)
    (base : R state)
    (step : setting.handsOpen = true → ∀ rule ∈ setting.firing ref.active.rules
      (ref.passStart ctx state), ∀ tagged, .effect tagged ∈ rule.tags →
        setting.pass.applies tagged.effect = true → ∀ state, R state →
          R (setting.host.changeHands tagged.effect state))
    (line : ∀ state text, R state → R (setting.host.showInfo state text)) :
    R (ref.evaluate setting ctx state).host := by
  have rules : R (setting.applyRules ref.active.rules (ref.passStart ctx state)).host :=
    setting.host_applyRules_firing _ step base
  rw [evaluate_host]
  rcases setting.showLine_host (setting.applyRules ref.active.rules (ref.passStart ctx state))
    with same | ⟨text, shown⟩
  · rwa [same]
  · rw [shown]
    exact line _ text rules

theorem fired_conclude (entry : Entry) (host : Host σ) (r : PassResult σ) :
    (entry.conclude ref host r).report.fired = r.report.fired := by
  cases entry with
  | prepareRound again =>
    obtain ⟨_, _, _, _, _, eq⟩ := settlePlan_eq host again r
    exact congrArg (·.report.fired) eq
  | _ => rfl

/-- The rules that fire in the pass of an entry. -/
def firingAt (entry : Entry) (host : Host σ) (ctx : Context) (state : σ) : List Rule :=
  (entry.setting ref host).firing ref.active.rules ((entry.opening ref).passStart ctx state)

/-- Through every entry, the rules that fire are some of the active ones, in their order. -/
theorem firingAt_sublist (entry : Entry) (host : Host σ) (ctx : Context) (state : σ) :
    (ref.firingAt entry host ctx state).Sublist ref.active.rules :=
  PassSetting.firing_sublist _ _ _

theorem fired_eq_firingAt (entry : Entry) (host : Host σ) (ctx : Context) (state : σ) :
    (ref.enter entry host ctx state).report.fired =
      (ref.firingAt entry host ctx state).map (·.name) := by
  rw [enter_eq, fired_conclude, fired_evaluate, active_opening]
  rfl

theorem fired_enter (entry : Entry) (host : Host σ) (ctx : Context) (state : σ) :
    ∃ firing : List Rule, firing.Sublist ref.active.rules ∧
      (ref.enter entry host ctx state).report.fired = firing.map (·.name) :=
  ⟨_, ref.firingAt_sublist entry host ctx state, ref.fired_eq_firingAt entry host ctx state⟩

theorem firingAt_of_maps {f : σ → τ} {host : Host σ} {host' : Host τ} (maps : host.Maps f host')
    (entry : Entry) (ctx : Context) (state : σ) :
    ref.firingAt entry host' ctx (f state) = ref.firingAt entry host ctx state := by
  have same (pass : Pass) (handsOpen : Bool) :
      PassSetting.firing ⟨host', pass, handsOpen⟩ ref.active.rules
          ((entry.opening ref).passStart ctx (f state)) =
        PassSetting.firing ⟨host, pass, handsOpen⟩ ref.active.rules
          ((entry.opening ref).passStart ctx state) :=
    PassSetting.firing_of_mirrors maps ref.active.rules ⟨[], rfl⟩
  cases entry <;> exact same _ _

/-- The referee with only those rules active that fire in the pass of an entry. -/
def cutTo (entry : Entry) (host : Host σ) (ctx : Context) (state : σ) : Referee :=
  { ref with active := ⟨ref.firingAt entry host ctx state⟩ }

theorem agrees_cutTo (entry : Entry) (host : Host σ) (ctx : Context) (state : σ) :
    (ref.enter entry host ctx state).Agrees
      ((ref.cutTo entry host ctx state).enter entry host ctx state) := by
  have ran : ∀ ref' : Referee, ∀ pass handsOpen, ref'.active = ref.active →
      (ref'.evaluate ⟨host, pass, handsOpen⟩ ctx state).Mirrors id
        (evaluate { ref' with active := ⟨PassSetting.firing ⟨host, pass, handsOpen⟩
          ref.active.rules (ref'.passStart ctx state)⟩ } ⟨host, pass, handsOpen⟩ ctx state) := by
    intro ref' pass handsOpen same
    rw [evaluate_eq_passEnd, evaluate_eq_passEnd, same]
    exact mirrors_passEnd (.id host) ref' _ pass handsOpen
      (PassSetting.mirrors_applyRules_firing _ ref.active.rules (.refl _))
  rw [enter_eq, enter_eq]
  refine mirrors_conclude (.id host) entry _ _ ?_
  cases entry with
  | openRound initial => cases initial <;> exact ran _ _ _ rfl
  | _ => exact ran _ _ _ rfl

end Referee

/-! ## What a host is told to do -/

/-- Something that a host is told to do. -/
inductive Deed where
  | call (call : HostCall)
  | line (text : String)
  deriving DecidableEq

/-- The host with a record of all that it is told to do, in order. -/
def Host.transcribing (host : Host σ) : Host (σ × List Deed) where
  countOf s := host.countOf s.1
  firstCard s := host.firstCard s.1
  lastCard s := host.lastCard s.1
  replaceOthers s choice count := (host.replaceOthers s.1 choice count).map id
    (·, s.2 ++ [.call (.replaceOthers choice count)])
  replaceRandomly s choice count := (host.replaceRandomly s.1 choice count).map id
    (·, s.2 ++ [.call (.replaceRandomly choice count)])
  addCards s side choice count := (host.addCards s.1 side choice count).map id
    (·, s.2 ++ [.call (.addCards side choice count)])
  addRandomCards s side count := (host.addRandomCards s.1 side count).map id
    (·, s.2 ++ [.call (.addRandomCards side count)])
  movePlan s delta := (host.movePlan s.1 delta).map id (·, s.2 ++ [.call (.movePlan delta)])
  showInfo s text := (host.showInfo s.1 text, s.2 ++ [.line text])
  total s := host.total s.1
  rerolls s := host.rerolls s.1

theorem Host.maps_transcribing (host : Host σ) : host.transcribing.Maps Prod.fst host where
  countOf _ := rfl
  firstCard _ := rfl
  lastCard _ := rfl
  replaceOthers _ _ _ := rfl
  replaceRandomly _ _ _ := rfl
  addCards _ _ _ _ := rfl
  addRandomCards _ _ _ := rfl
  movePlan _ _ := rfl
  showInfo _ _ := rfl

namespace Referee

variable (ref : Referee)

/-- What the host is told to do in the pass of an entry. -/
def transcript (entry : Entry) (host : Host σ) (ctx : Context) (state : σ) : List Deed :=
  (ref.enter entry host.transcribing ctx (state, [])).host.2

/-- The pass whose transcript is taken is the pass itself, on a host that takes notes. -/
theorem mirrors_transcribing (entry : Entry) (host : Host σ) (ctx : Context) (state : σ) :
    (ref.enter entry host.transcribing ctx (state, [])).Mirrors Prod.fst
      (ref.enter entry host ctx state) :=
  mirrors_enter host.maps_transcribing (.refl ref.active.rules) ref entry ctx (state, [])

theorem transcript_cutTo (entry : Entry) (host : Host σ) (ctx : Context) (state : σ) :
    (ref.cutTo entry host ctx state).transcript entry host ctx state =
      ref.transcript entry host ctx state := by
  have same : ref.cutTo entry host.transcribing ctx (state, []) = ref.cutTo entry host ctx state :=
    congrArg (fun rules => { ref with active := ⟨rules⟩ })
      (ref.firingAt_of_maps host.maps_transcribing entry ctx (state, [])).symm
  obtain ⟨_, _, eq⟩ := ref.agrees_cutTo entry host.transcribing ctx (state, [])
  rw [same] at eq
  exact congrArg (·.host.2) eq

/-- Through every entry, the rules that rest could as well not be active: those that fire do and
report the same without them, diagnostics apart, and tell the host the same in the same order. -/
theorem enter_cutTo (entry : Entry) (host : Host σ) (ctx : Context) (state : σ) :
    let cut := ref.cutTo entry host ctx state
    cut.active.rules.Sublist ref.active.rules ∧
      (ref.enter entry host ctx state).report.fired = cut.active.rules.map (·.name) ∧
      (ref.enter entry host ctx state).Agrees (cut.enter entry host ctx state) ∧
      cut.transcript entry host ctx state = ref.transcript entry host ctx state :=
  ⟨ref.firingAt_sublist entry host ctx state, ref.fired_eq_firingAt entry host ctx state,
    ref.agrees_cutTo entry host ctx state, ref.transcript_cutTo entry host ctx state⟩

/-- What one rule gives, the next one counts: the host holds the rocks of the player. -/
example :
    let host : Host UInt32 :=
      { countOf := fun rocks _ choice => some (if choice = .rock then rocks else 0)
        addCards := fun rocks _ _ count => (some count, rocks + count) }
    let quarry : Rule := { name := "Quarry", tags :=
      [.timing .roundPrepare, .effect ⟨.addCards .player .rock 2, {}⟩] }
    let holding (choice : Choice) : Rule := { name := choice.name, tags :=
      [.timing .roundPrepare, .condition (.playerHolds choice 2), .effect ⟨.showInfo none, {}⟩] }
    let ref : Referee := { active := ⟨[holding .rock, quarry, holding .paper, holding .rock]⟩ }
    (ref.cutTo (.prepareRound false) host (.atTurn 0 5) 0).active = ⟨[quarry, holding .rock]⟩ ∧
      ref.transcript (.prepareRound false) host (.atTurn 0 5) 0 =
        [.call (.addCards .player .rock 2), .line "Rule prepare: Rock"] := by
  decide

end Referee

end Roshambo
