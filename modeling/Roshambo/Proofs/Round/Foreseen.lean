import Roshambo.Proofs.Pass.Frame
import Roshambo.Proofs.Rule.Activation

/-!
# Diagnostics that validation foresees

The problems of a rule can be found without playing it. A pass finds no others: what it reports is
that the host does not offer an operation, or one of the findings about an active rule, word for
word. Names tell active rules apart, so a rule without findings is only ever reported for what its
host lacks, whatever happened to the referee before.
-/
namespace Roshambo

/-- The diagnostic tells of an operation that the host does not offer. -/
def Diagnostic.isNotOffered (d : Diagnostic) : Bool :=
  match d.problem with
  | .notOffered _ => true
  | _ => false

/-- The diagnostic tells of a missing operation, or it is a finding about one of the rules. -/
def Diagnostic.Foreseen (rules : List Rule) (d : Diagnostic) : Prop :=
  d.isNotOffered = true ∨ ∃ rule ∈ rules, d ∈ rule.findings

namespace Rule

variable {rule : Rule} {d : Diagnostic}

/-- The problem of a tag is among the findings about its rule. -/
theorem mem_findings {tag : Tag} (mem : tag ∈ rule.tags)
    (found : tag.diagnostic? rule.name = some d) : d ∈ rule.findings := by
  have some_tag : rule.tags.isEmpty = false := List.isEmpty_eq_false_iff_exists_mem.2 ⟨tag, mem⟩
  rw [findings, some_tag]
  exact List.mem_append_right _ (List.mem_filterMap.2 ⟨tag, mem, found⟩)

/-- A finding about a rule names it. -/
theorem rule_of_mem_findings (mem : d ∈ rule.findings) : d.rule = rule.name := by
  unfold findings at mem
  split at mem
  · rw [List.mem_singleton.1 mem]
  · rcases List.mem_append.1 mem with untimed | tagged
    · split at untimed
      · cases untimed
      · rw [List.mem_singleton.1 untimed]
    · obtain ⟨tag, -, found⟩ := List.mem_filterMap.1 tagged
      unfold Tag.diagnostic? at found
      split at found
      · cases found
        rfl
      · split at found
        · cases found
          rfl
        · cases found
      · cases found

end Rule

variable {σ : Type} {rules : List Rule} {rule : Rule}

/-! ## Verdicts -/

/-- A rule is blocked by an answer that the host does not have, or by a tag that was not
understood. -/
theorem of_blocked {host : Host σ} {state : σ} {ctx : Context} {pass : Pass} {name : String}
    {alternatives : Option Bool} {tags : List Tag} {reason : Diagnostic}
    (blocked : verdictOfTags host state ctx pass name alternatives tags = .blocked reason) :
    reason.isNotOffered = true ∨ ∃ tag ∈ tags, tag.diagnostic? name = some reason := by
  have later {tag : Tag} {tags : List Tag} (h : reason.isNotOffered = true ∨
      ∃ tag ∈ tags, tag.diagnostic? name = some reason) : reason.isNotOffered = true ∨
      ∃ t ∈ tag :: tags, t.diagnostic? name = some reason :=
    h.imp_right fun ⟨t, mem, found⟩ => ⟨t, List.mem_cons_of_mem tag mem, found⟩
  induction tags generalizing alternatives with
  | nil =>
    unfold verdictOfTags at blocked
    split at blocked <;> cases blocked
  | cons tag tags ih =>
    cases tag with
    | timing _ => exact later (ih blocked)
    | effect _ => exact later (ih blocked)
    | invalid bad =>
      simp only [verdictOfTags] at blocked
      split at blocked
      · cases blocked
        exact .inr ⟨.invalid bad, List.mem_cons_self, rfl⟩
      · exact later (ih blocked)
    | condition c =>
      simp only [verdictOfTags] at blocked
      split at blocked
      · split at blocked
        · exact later (ih blocked)
        · split at blocked
          · exact later (ih blocked)
          · cases blocked
          · cases blocked
            exact .inl rfl
      · exact later (ih blocked)

theorem Rule.foreseen_verdict (mem : rule ∈ rules) (host : Host σ) (state : σ) (ctx : Context)
    (pass : Pass) : ∀ d ∈ (rule.verdict host state ctx pass).diagnostics, d.Foreseen rules := by
  intro d found
  unfold Rule.verdict at found
  split at found
  · rcases verdict : verdictOfTags host state ctx pass rule.name none rule.tags with _ | _ | reason
      <;> rw [verdict] at found
    · cases found
    · cases found
    · obtain rfl := List.mem_singleton.1 found
      rcases of_blocked verdict with lacking | ⟨tag, tagged, problem⟩
      · exact .inl lacking
      · exact .inr ⟨rule, mem, Rule.mem_findings tagged problem⟩
  · cases found

/-! ## Passes -/

/-- Everything that was reported so far is foreseen. -/
def PassState.Foreseen (rules : List Rule) (s : PassState σ) : Prop :=
  ∀ d ∈ s.diagnostics, d.Foreseen rules

namespace PassState.Foreseen

variable {s : PassState σ}

theorem report (hs : s.Foreseen rules) {found : List Diagnostic}
    (foreseen : ∀ d ∈ found, d.Foreseen rules) :
    PassState.Foreseen rules { s with diagnostics := s.diagnostics ++ found } := by
  intro d mem
  rcases List.mem_append.1 mem with old | new
  · exact hs d old
  · exact foreseen d new

theorem addDiagnostic (hs : s.Foreseen rules) {d : Diagnostic} (foreseen : d.Foreseen rules) :
    (s.addDiagnostic d).Foreseen rules :=
  hs.report fun d' mem => by rwa [List.mem_singleton.1 mem]

theorem noteChange (hs : s.Foreseen rules) (state : σ) (pass : Pass) (name : String) (side : Side)
    (choice : Option Choice) (operation : String) (answer : Option UInt32) :
    PassState.Foreseen rules
      ({ s with host := state }.noteChange pass name side choice operation answer) := by
  cases answer with
  | some _ => exact hs
  | none => exact addDiagnostic (s := { s with host := state }) hs (.inl rfl)

end PassState.Foreseen

namespace PassSetting

variable (setting : PassSetting σ)

/-- Of the problems of an effect that was understood, only a score multiplier below one is reported,
and validation finds it. -/
theorem foreseen_perform (mem : rule ∈ rules) {tagged : GuardedEffect}
    (tag : .effect tagged ∈ rule.tags) {s : PassState σ} (hs : s.Foreseen rules) :
    (setting.perform rule.name tagged.effect s).Foreseen rules := by
  obtain ⟨effect, filter⟩ := tagged
  cases effect with
  | addScore _ => exact hs
  | finalTotalMultiplier _ => exact hs
  | showInfo text => cases text <;> exact hs
  | forceOpponentDrawFromFront _ => simp only [perform]; split <;> exact hs
  | modifyPlannedTurns _ => simp only [perform]; split <;> exact hs
  | finalScoreMultiplier factor =>
    simp only [perform]
    split
    · exact hs
    · split
      · rename_i low
        have found : (Tag.effect ⟨.finalScoreMultiplier factor, filter⟩).diagnostic? rule.name =
            some ⟨rule.name, some .effect, .tag (factorProblem factor)⟩ := if_pos low
        exact hs.addDiagnostic (.inr ⟨rule, mem, Rule.mem_findings tag found⟩)
      · exact hs
  | replaceOpponentCards choice count =>
    simp only [perform]
    split
    · cases choice <;> exact hs.noteChange _ _ _ _ _ _ _
    · exact hs
  | addCards _ _ _ =>
    simp only [perform]
    split
    · exact hs.noteChange _ _ _ _ _ _ _
    · exact hs
  | addRandomCards _ _ =>
    simp only [perform]
    split
    · exact hs.noteChange _ _ _ _ _ _ _
    · exact hs
  | revealNextOpponentCard =>
    simp only [perform, revealNext]
    split
    · exact hs
    · exact hs.addDiagnostic (.inl rfl)
  | revealOpponentFirstAndLast =>
    simp only [perform, revealFirstAndLast]
    split
    · exact hs
    · exact hs.addDiagnostic (.inl rfl)
  | addScorePerCard _ _ =>
    simp only [perform]
    split
    · exact hs
    · exact hs.addDiagnostic (.inl rfl)

theorem foreseen_performTag (mem : rule ∈ rules) {tag : Tag} (has : tag ∈ rule.tags)
    {s : PassState σ} (hs : s.Foreseen rules) :
    (setting.performTag rule.name tag s).Foreseen rules := by
  cases tag with
  | timing _ => exact hs
  | condition _ => exact hs
  | effect tagged =>
    simp only [performTag]
    split
    · exact setting.foreseen_perform mem has hs
    · exact hs
  | invalid bad =>
    simp only [performTag]
    split
    · exact hs.addDiagnostic (.inr ⟨rule, mem, Rule.mem_findings has rfl⟩)
    · exact hs

theorem foreseen_performTags (mem : rule ∈ rules) {tags : List Tag}
    (has : ∀ tag ∈ tags, tag ∈ rule.tags) {s : PassState σ} (hs : s.Foreseen rules) :
    (tags.foldl (fun s tag => setting.performTag rule.name tag s) s).Foreseen rules := by
  induction tags generalizing s with
  | nil => exact hs
  | cons tag tags ih =>
    exact ih (fun t later => has t (List.mem_cons_of_mem tag later))
      (setting.foreseen_performTag mem (has tag List.mem_cons_self) hs)

theorem foreseen_applyRule (mem : rule ∈ rules) {s : PassState σ} (hs : s.Foreseen rules) :
    (setting.applyRule rule s).Foreseen rules := by
  by_cases fires : rule.verdict setting.host s.host s.context setting.pass = .fires
  · simp only [applyRule, fires]
    exact setting.foreseen_performTags mem (fun _ has => has) hs
  · rw [applyRule_of_not_fires fires]
    exact hs.report (Rule.foreseen_verdict mem _ _ _ _)

theorem foreseen_applyRules {acting : List Rule} (mem : ∀ rule ∈ acting, rule ∈ rules)
    {s : PassState σ} (hs : s.Foreseen rules) : (setting.applyRules acting s).Foreseen rules := by
  induction acting generalizing s with
  | nil => exact hs
  | cons rule acting ih =>
    exact ih (fun r later => mem r (List.mem_cons_of_mem rule later))
      (setting.foreseen_applyRule (mem rule List.mem_cons_self) hs)

end PassSetting

namespace Referee

variable (ref : Referee) (entry : Entry) (host : Host σ) (ctx : Context) (state : σ)

theorem foreseen_evaluate (setting : PassSetting σ) :
    ∀ d ∈ (ref.evaluate setting ctx state).report.diagnostics, d.Foreseen ref.active.rules := by
  have start : (ref.passStart ctx state).Foreseen ref.active.rules := nofun
  have acted := setting.foreseen_applyRules (fun _ mem => mem) start
  rw [evaluate_eq_passEnd]
  show PassState.Foreseen ref.active.rules (setting.showLine _)
  unfold PassSetting.showLine
  split <;> exact acted

theorem foreseen_conclude {r : PassResult σ}
    (ran : ∀ d ∈ r.report.diagnostics, d.Foreseen ref.active.rules) :
    ∀ d ∈ (entry.conclude ref host r).report.diagnostics, d.Foreseen ref.active.rules := by
  have findings : ∀ d ∈ entry.findings ref, d.Foreseen ref.active.rules := by
    intro d mem
    unfold Entry.findings at mem
    split at mem
    · obtain ⟨rule, active, found⟩ := List.mem_flatMap.1 mem
      exact .inr ⟨rule, active, found⟩
    · cases mem
  have first : ∀ d ∈ entry.findings ref ++ r.report.diagnostics, d.Foreseen ref.active.rules :=
    fun d mem => (List.mem_append.1 mem).elim (findings d) (ran d)
  cases entry with
  | prepareRound again =>
    simp only [Entry.conclude, settlePlan]
    split
    · exact ran
    · split
      · exact ran
      · intro d mem
        rcases List.mem_append.1 mem with old | new
        · exact ran d old
        · exact .inl (by rw [List.mem_singleton.1 new]; rfl)
  | openRound _ => exact first
  | recheckRules => exact first
  | _ => exact ran

theorem foreseen_enter :
    ∀ d ∈ (ref.enter entry host ctx state).report.diagnostics, d.Foreseen ref.active.rules := by
  rw [enter_eq]
  refine ref.foreseen_conclude entry host ?_
  have ran := foreseen_evaluate (entry.opening ref) ctx state (entry.setting ref host)
  rwa [active_opening] at ran

/-! ## Rules without findings -/

/-- The names of the active rules are distinct, whatever the use of the referee. -/
theorem nodup_names_used (uses : List (Use σ)) : (used uses).active.names.Nodup := by
  rw [active_used]
  exact ActiveRules.nodup_names_run _

/-- A foreseen diagnostic that names a rule without findings tells of what the host lacks. -/
theorem isNotOffered_of_foreseen {active : ActiveRules} (distinct : active.names.Nodup)
    (mem : rule ∈ active.rules) (sound : rule.findings = []) {d : Diagnostic}
    (foreseen : d.Foreseen active.rules) (named : d.rule = rule.name) :
    d.isNotOffered = true := by
  rcases foreseen with lacking | ⟨other, active, found⟩
  · exact lacking
  · have same : other = rule := ActiveRules.eq_of_name_eq distinct active mem
      ((Rule.rule_of_mem_findings found).symm.trans named)
    rw [same, sound] at found
    cases found

/-- Validation covers what passes report. Whatever the state of a referee, each diagnostic of a pass
tells of an operation that the host does not offer or is a finding about an active rule; and in any
sequence of passes and changes of the rules, one that names a rule without findings is of the
first sort. -/
theorem diagnostics_foreseen (uses : List (Use σ)) :
    (∀ d ∈ (ref.enter entry host ctx state).report.diagnostics,
      d.isNotOffered = true ∨ ∃ rule ∈ ref.active.rules, d ∈ rule.findings) ∧
    ∀ rule ∈ (used uses).active.rules, rule.findings = [] →
      ∀ d ∈ ((used uses).enter entry host ctx state).report.diagnostics,
        d.rule = rule.name → d.isNotOffered = true := by
  refine ⟨ref.foreseen_enter entry host ctx state, fun rule mem sound d found named => ?_⟩
  exact isNotOffered_of_foreseen (nodup_names_used uses) mem sound
    ((used uses).foreseen_enter entry host ctx state d found) named

/-- Beside a rule whose multiplier is too low, one that only asks too much of its host. -/
example :
    let halving : Rule := { name := "Halving", tags :=
      [.timing .turnSettlement, .effect ⟨.finalScoreMultiplier 0, {}⟩] }
    let seer : Rule := { name := "Seer", tags :=
      [.timing .turnSettlement, .effect ⟨.revealNextOpponentCard, {}⟩] }
    let uses : List (Use Unit) := [.enable halving, .enable seer]
    seer.findings = [] ∧
      ((used uses).enter .settleTurn .detached (.atTurn 1 5) ()).report.diagnostics =
        halving.findings ++ [.notOffered "Seer" .effect "peek the opponent hand"] := by
  decide

end Referee

end Roshambo
