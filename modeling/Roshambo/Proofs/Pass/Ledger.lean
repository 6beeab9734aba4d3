import Mathlib.Data.List.Induction
import Mathlib.Data.List.Infix
import Roshambo.Proofs.Pass.Plan
import Roshambo.Proofs.Round.Entry

/-!
# A ledger of the plan

A host with a ledger writes down every change of the plan that it is asked for, and whether it
granted it. A round-prepare pass asks at most once, for the difference between what its rules want
and what was granted before (`settles_prepareRound`). A refusal leaves what was granted as it was, so
that the next pass asks for all that is missing.
-/
namespace Roshambo

/-! ## What the rules of a pass ask for -/

namespace PassSetting

variable {σ : Type} (setting : PassSetting σ)

/-- The effects that act while the rules meet the state one after another. -/
def actsOf : List Rule → PassState σ → List Effect
  | [], _ => []
  | rule :: rules, s =>
    (if rule.verdict setting.host s.host s.context setting.pass = .fires then
      rule.acts setting.pass s.context else []) ++ actsOf rules (setting.applyRule rule s)

/-- No effect changes what filters look at, so a rule's tags act as they would have acted first. -/
theorem tally_performTags (rule : String) (tags : List Tag) (s : PassState σ) :
    (tags.foldl (fun s tag => setting.performTag rule tag s) s).tally =
      (tags.filterMap (Tag.act? setting.pass s.context)).foldl Effect.tallyAfter s.tally := by
  induction tags generalizing s with
  | nil => rfl
  | cons tag tags ih =>
    obtain ⟨found, eq⟩ := setting.performTag_eq rule tag s
    rw [List.foldl_cons, ih]
    cases acts : tag.act? setting.pass s.context with
    | none =>
      rw [acts] at eq
      rw [eq, List.filterMap_cons_none acts]
    | some effect =>
      rw [acts] at eq
      have performed : setting.Performed effect s (setting.perform rule effect s) :=
        performed_perform rule effect s
      have sight : Tag.act? setting.pass (setting.perform rule effect s).context =
          Tag.act? setting.pass s.context := by
        rw [performed.context]
        rfl
      rw [eq, sight, performed.tally, List.filterMap_cons_some acts, List.foldl_cons]

theorem tally_applyRules (rules : List Rule) (s : PassState σ) :
    (setting.applyRules rules s).tally =
      (setting.actsOf rules s).foldl Effect.tallyAfter s.tally := by
  induction rules generalizing s with
  | nil => rfl
  | cons rule rules ih =>
    have first : (setting.applyRule rule s).tally =
        (if rule.verdict setting.host s.host s.context setting.pass = .fires then
          rule.acts setting.pass s.context else []).foldl Effect.tallyAfter s.tally := ?_
    · rw [actsOf, List.foldl_append, ← first]
      exact ih _
    by_cases fires : rule.verdict setting.host s.host s.context setting.pass = .fires
    · rw [if_pos fires, applyRule]
      simp only [fires]
      exact setting.tally_performTags rule.name rule.tags _
    · rw [if_neg fires, applyRule_of_not_fires fires]
      rfl

end PassSetting

/-- However far the numbers are added up, the sum stays far from the ends of a word. -/
def StaysSmall (numbers : List Int) : Prop :=
  ∀ front ∈ numbers.inits, front.sum.natAbs < 2 ^ 62

instance (numbers : List Int) : Decidable (StaysSmall numbers) :=
  inferInstanceAs (Decidable (∀ front ∈ numbers.inits, front.sum.natAbs < 2 ^ 62))

namespace StaysSmall

variable {numbers : List Int}

theorem sum (h : StaysSmall numbers) : numbers.sum.natAbs < 2 ^ 62 :=
  h numbers ((List.mem_inits _ _).2 List.prefix_rfl)

theorem of_append {more : List Int} (h : StaysSmall (numbers ++ more)) : StaysSmall numbers := by
  intro front mem
  have start := (List.mem_inits _ _).1 mem
  exact h front ((List.mem_inits _ _).2 (start.trans (List.prefix_append numbers more)))

end StaysSmall

theorem Effect.toInt_asked_of_staysSmall {effects : List Effect} {tally : PlanTally}
    (started : tally.asked = 0) (small : StaysSmall (effects.map Effect.turns)) :
    (effects.foldl tallyAfter tally).asked.toInt = (effects.map Effect.turns).sum := by
  induction effects using List.reverseRecOn with
  | nil =>
    rw [List.foldl_nil, started]
    rfl
  | append_singleton effects effect ih =>
    have whole := small.sum
    rw [List.map_append] at small whole ⊢
    rw [List.foldl_append, List.foldl_cons, List.foldl_nil, toInt_asked_tallyAfter,
      ih small.of_append]
    simp only [List.map_cons, List.map_nil, List.sum_append, List.sum_singleton] at whole ⊢
    exact Saturating.clamp_of_small (by omega)

/-! ## The ledger -/

/-- A change of the plan that a host was asked for. -/
structure PlanRequest where
  delta : Int64
  granted : Bool
  deriving DecidableEq

variable {σ : Type}

/-- The host with a ledger of the requests for planned turns, in their order. -/
def Host.ledger (host : Host σ) : Host (σ × List PlanRequest) where
  countOf s := host.countOf s.1
  firstCard s := host.firstCard s.1
  lastCard s := host.lastCard s.1
  replaceOthers s choice count := (host.replaceOthers s.1 choice count).map id (·, s.2)
  replaceRandomly s choice count := (host.replaceRandomly s.1 choice count).map id (·, s.2)
  addCards s side choice count := (host.addCards s.1 side choice count).map id (·, s.2)
  addRandomCards s side count := (host.addRandomCards s.1 side count).map id (·, s.2)
  movePlan s delta :=
    (host.movePlan s.1 delta).map id
      (·, s.2 ++ [⟨delta, (host.movePlan s.1 delta).1.isSome⟩])
  showInfo s text := (host.showInfo s.1 text, s.2)
  total s := host.total s.1
  rerolls s := host.rerolls s.1

/-- The ledger is all that is new. -/
theorem Host.maps_ledger (host : Host σ) : host.ledger.Maps Prod.fst host where
  countOf _ := rfl
  firstCard _ := rfl
  lastCard _ := rfl
  replaceOthers _ _ _ := rfl
  replaceRandomly _ _ _ := rfl
  addCards _ _ _ _ := rfl
  addRandomCards _ _ _ := rfl
  movePlan _ _ := rfl
  showInfo _ _ := rfl

namespace Referee

variable (ref : Referee) (host : Host σ) (ctx : Context) (state : σ)

/-- The rules of a pass request nothing themselves. -/
theorem requests_evaluate (pass : Pass) (handsOpen : Bool) :
    (ref.evaluate ⟨host.ledger, pass, handsOpen⟩ ctx (state, [])).host.2 = [] := by
  refine ref.host_evaluate _ ctx (state, []) (R := fun s => s.2 = []) rfl ?_ (fun _ _ none => none)
  rintro - effect s - none
  cases effect with
  | replaceOpponentCards choice count => cases choice <;> exact none
  | _ => exact none

/-- What the effects that act in a round-prepare pass ask for, one after another. -/
def turnsAsked (again : Bool) : List Int :=
  (PassSetting.actsOf ⟨host, .prepare again, !again⟩ ref.active.rules
    ((ref.preparing again).passStart ctx state)).map Effect.turns

/-- What had been granted when the pass began; a full pass begins anew. -/
def grantedBefore (again : Bool) : Int := if again then ref.tally.granted.toInt else 0

/-- The changes of the plan that a pass requests of its host. -/
def requestsOf (entry : Entry) : List PlanRequest :=
  (ref.enter entry host.ledger ctx (state, [])).host.2

/-- How a round-prepare pass settles the plan. It requests just what is missing; a grant makes up for
all of it, and a refusal is reported and changes nothing. -/
structure Settles (again : Bool) : Prop where
  /-- Without the ledger the pass comes to the same. -/
  same : (ref.enter (.prepareRound again) host.ledger ctx (state, [])).Mirrors Prod.fst
    (ref.prepareRound host again ctx state)
  asks : ref.requestsOf host ctx state (.prepareRound again) = [] ∧
      (ref.turnsAsked host ctx state again).sum = ref.grantedBefore again ∨
    ∃ request, ref.requestsOf host ctx state (.prepareRound again) = [request] ∧
      request.delta ≠ 0 ∧ request.delta.toInt =
        (ref.turnsAsked host ctx state again).sum - ref.grantedBefore again
  granted : (∀ request ∈ ref.requestsOf host ctx state (.prepareRound again),
      request.granted = true) →
    (ref.prepareRound host again ctx state).referee.tally.granted.toInt =
        (ref.turnsAsked host ctx state again).sum ∧
      (ref.prepareRound host again ctx state).report =
        (ref.unsettled host ctx state again).report
  refused : (∃ request ∈ ref.requestsOf host ctx state (.prepareRound again),
      request.granted = false) →
    (ref.prepareRound host again ctx state).referee.tally.granted.toInt =
        ref.grantedBefore again ∧
      (ref.prepareRound host again ctx state).report.diagnostics =
        (ref.unsettled host ctx state again).report.diagnostics ++
          [.notOffered "RoundPrepare" .effect "adjust planned turns"]

theorem requests_settlePlan (again : Bool) (r : PassResult (σ × List PlanRequest)) :
    (settlePlan host.ledger again r).host.2 =
      if r.referee.tally.due = 0 then r.host.2
      else r.host.2 ++ [⟨r.referee.tally.due,
        (host.movePlan r.host.1 r.referee.tally.due).1.isSome⟩] := by
  simp only [settlePlan]
  split
  · rfl
  · split <;> rename_i moved <;> exact (congrArg (·.2.2) moved).symm

/-- What is not due, or is granted, counts as granted. -/
theorem settlePlan_of_granted (again : Bool) {r : PassResult σ}
    (granted : r.referee.tally.due = 0 ∨
      (host.movePlan r.host r.referee.tally.due).1.isSome = true) :
    (settlePlan host again r).referee.tally.granted = r.referee.tally.asked ∧
      (settlePlan host again r).report = r.report := by
  simp only [settlePlan]
  split
  · exact ⟨rfl, rfl⟩
  · rename_i due
    split
    · exact ⟨rfl, rfl⟩
    · rename_i refused
      rw [refused] at granted
      exact absurd (granted.resolve_left due) Bool.false_ne_true

theorem settlePlan_of_refused (again : Bool) {r : PassResult σ} (due : r.referee.tally.due ≠ 0)
    (refused : (host.movePlan r.host r.referee.tally.due).1.isSome = false) :
    (settlePlan host again r).referee.tally = r.referee.tally ∧
      (settlePlan host again r).report.diagnostics = r.report.diagnostics ++
        [.notOffered "RoundPrepare" .effect "adjust planned turns"] := by
  simp only [settlePlan, if_neg due]
  split
  · rename_i granted
    rw [granted] at refused
    cases refused
  · exact ⟨rfl, rfl⟩

variable {ref host ctx state} {again : Bool} {r : PassResult σ}

/-- After the rules, the tally holds what they ask for beside what was granted before. -/
theorem tally_unsettled (small : StaysSmall (ref.turnsAsked host ctx state again))
    (left : ref.unsettled host ctx state again = r) :
    r.referee.tally.asked.toInt = (ref.turnsAsked host ctx state again).sum ∧
      r.referee.tally.granted.toInt = ref.grantedBefore again := by
  subst left
  have counted : (ref.unsettled host ctx state again).referee.tally =
      (PassSetting.actsOf ⟨host, .prepare again, !again⟩ ref.active.rules
        ((ref.preparing again).passStart ctx state)).foldl Effect.tallyAfter
        (ref.preparing again).tally :=
    (PassSetting.showLine_tally _).trans (PassSetting.tally_applyRules _ _ _)
  constructor
  · rw [counted]
    exact Effect.toInt_asked_of_staysSmall rfl small
  · rw [granted_unsettled]
    cases again <;> rfl

/-- The one request of a round-prepare pass, in terms of what its rules leave. -/
theorem requestsOf_prepareRound (left : ref.unsettled host ctx state again = r) :
    ref.requestsOf host ctx state (.prepareRound again) =
      if r.referee.tally.due = 0 then []
      else [⟨r.referee.tally.due, (host.movePlan r.host r.referee.tally.due).1.isSome⟩] := by
  let r' := ref.unsettled host.ledger ctx (state, []) again
  obtain ⟨found, active, eq⟩ : r'.Mirrors Prod.fst (ref.unsettled host ctx state again) :=
    mirrors_evaluate host.maps_ledger (.refl ref.active.rules) (ref.preparing again)
      (.prepare again) (!again) ctx (state, [])
  have tally : r.referee.tally = r'.referee.tally := by rw [← left, eq]
  have held : r.host = r'.host.1 := by rw [← left, eq]
  have none : r'.host.2 = [] := requests_evaluate _ _ _ _ _ _
  rw [tally, held]
  show (settlePlan host.ledger again r').host.2 = _
  rw [requests_settlePlan, none]
  rfl

/-- Where all sums are small, the pass does what it should. -/
theorem settles_prepareRound (again : Bool)
    (small : StaysSmall (ref.turnsAsked host ctx state again))
    (near : (ref.grantedBefore again).natAbs < 2 ^ 62) : ref.Settles host ctx state again := by
  obtain ⟨r, left⟩ : ∃ r, ref.unsettled host ctx state again = r := ⟨_, rfl⟩
  obtain ⟨asked, before⟩ := tally_unsettled small left
  have requests := requestsOf_prepareRound left
  have settled : ref.prepareRound host again ctx state = settlePlan host again r := by
    rw [prepareRound_eq, left]
  have whole := small.sum
  have missing : r.referee.tally.due.toInt =
      (ref.turnsAsked host ctx state again).sum - ref.grantedBefore again := by
    rw [PlanTally.due, Saturating.toInt_sub, asked, before, Saturating.clamp_of_small (by omega)]
  have same := mirrors_enter host.maps_ledger (.refl ref.active.rules) ref (.prepareRound again) ctx
    (state, [])
  by_cases due : r.referee.tally.due = 0
  · rw [if_pos due] at requests
    rw [due, Int64.toInt_zero] at missing
    obtain ⟨granted, report⟩ := settlePlan_of_granted host again (.inl due)
    refine ⟨same, .inl ⟨requests, by omega⟩, fun _ => ?_, ?_⟩
    · rw [settled, granted, left, asked]
      exact ⟨rfl, report⟩
    · rw [requests]
      rintro ⟨request, mem, -⟩
      cases mem
  · rw [if_neg due] at requests
    refine ⟨same, .inr ⟨_, requests, due, missing⟩, ?_, ?_⟩ <;> rw [requests, settled, left]
    · intro all
      obtain ⟨granted, report⟩ :=
        settlePlan_of_granted host again (.inr (all _ (List.mem_singleton.2 rfl)))
      rw [granted, asked]
      exact ⟨rfl, report⟩
    · rintro ⟨request, mem, refusal⟩
      rw [List.mem_singleton.1 mem] at refusal
      obtain ⟨tally, report⟩ := settlePlan_of_refused host again due refusal
      rw [tally, before]
      exact ⟨rfl, report⟩

end Referee

end Roshambo
