import Roshambo.Proofs.Pass.Mirror

/-!
# The entries of a referee

A referee runs a pass through one of six entries, and every entry works on whatever host it is
given. An entry is one pass with its own bookkeeping before and after it (`enter_eq`). What holds of
passes in a mirror holds of all six.
-/
namespace Roshambo

namespace Referee

/-- The ways to have a pass run. -/
inductive Entry where
  | prepareRound (again : Bool)
  | openRound (initial : Bool)
  | recheckRules
  | openTurn
  | settleTurn
  | closeRound
  deriving DecidableEq

variable {σ τ : Type}

def enter (ref : Referee) (entry : Entry) (host : Host σ) (ctx : Context) (state : σ) :
    PassResult σ :=
  match entry with
  | .prepareRound again => ref.prepareRound host again ctx state
  | .openRound initial => ref.openRound host initial ctx state
  | .recheckRules => ref.recheckRules host ctx state
  | .openTurn => ref.openTurn host ctx state
  | .settleTurn => ref.settleTurn host ctx state
  | .closeRound => ref.closeRound host ctx state

/-! ## One pass within an entry -/

namespace Entry

/-- The referee as the pass of the entry finds it. -/
def opening (entry : Entry) (ref : Referee) : Referee :=
  match entry with
  | prepareRound again => { ref with tally := (if again then ref.tally else {}).start }
  | openRound true => { ref with draw := {}, gate := .closed }
  | _ => ref

/-- The setting in which the entry runs its pass. -/
def setting (entry : Entry) (ref : Referee) (host : Host σ) : PassSetting σ :=
  match entry with
  | prepareRound again => ⟨host, .prepare again, !again⟩
  | openRound initial => ⟨host, .roundStart initial, initial || ref.gate.isOpen⟩
  | recheckRules => ⟨host, .roundStart false, ref.gate.isOpen⟩
  | openTurn => ⟨host, .turnStart, false⟩
  | settleTurn => ⟨host, .settlement, false⟩
  | closeRound => ⟨host, .roundEnd, false⟩

/-- What the entry reports of the rules before it runs its pass. -/
def findings (entry : Entry) (ref : Referee) : List Diagnostic :=
  match entry with
  | openRound true => ref.active.rules.flatMap Rule.findings
  | _ => []

/-- What the entry makes of the pass that it ran. -/
def conclude (entry : Entry) (ref : Referee) (host : Host σ) (r : PassResult σ) : PassResult σ :=
  match entry with
  | prepareRound again => settlePlan host again r
  | openRound _ | recheckRules =>
    { r with
      report := { r.report with diagnostics := entry.findings ref ++ r.report.diagnostics }
      referee := { r.referee with gate := .closed } }
  | _ => r

end Entry

/-- An entry runs one pass, with its own bookkeeping around it. -/
theorem enter_eq (ref : Referee) (entry : Entry) (host : Host σ) (ctx : Context) (state : σ) :
    ref.enter entry host ctx state = entry.conclude ref host
      ((entry.opening ref).evaluate (entry.setting ref host) ctx state) := by
  cases entry with
  | openRound initial => cases initial <;> rfl
  | _ => rfl

theorem active_opening (ref : Referee) (entry : Entry) :
    (entry.opening ref).active = ref.active := by
  cases entry with
  | openRound initial => cases initial <;> rfl
  | _ => rfl

theorem active_conclude (ref : Referee) (entry : Entry) (host : Host σ) (r : PassResult σ) :
    (entry.conclude ref host r).referee.active = r.referee.active := by
  cases entry with
  | prepareRound again =>
    obtain ⟨_, _, _, _, _, eq⟩ := settlePlan_eq host again r
    exact congrArg (·.referee.active) eq
  | _ => rfl

/-- No pass changes which rules are active. -/
theorem active_enter (ref : Referee) (entry : Entry) (host : Host σ) (ctx : Context) (state : σ) :
    (ref.enter entry host ctx state).referee.active = ref.active := by
  rw [enter_eq, active_conclude]
  exact active_opening ref entry

variable {f : σ → τ} {host : Host σ} {host' : Host τ} {rules rules' : List Rule}

/-! ## Entries in a mirror -/

theorem mirrors_settlePlan (maps : host.Maps f host') (again : Bool) {r : PassResult σ}
    {r' : PassResult τ} (h : r.Mirrors f r') :
    (settlePlan host again r).Mirrors f (settlePlan host' again r') := by
  obtain ⟨found, active, rfl⟩ := h
  simp only [settlePlan]
  split
  · exact ⟨found, active, rfl⟩
  · simp only [maps.movePlan]
    rcases host.movePlan r.host r.referee.tally.due with ⟨_ | planned, state⟩
    · exact ⟨_, active, rfl⟩
    · exact ⟨found, active, rfl⟩

/-- The bookkeeping after a pass looks at the rules for its diagnostics only. -/
theorem mirrors_conclude (maps : host.Maps f host') (entry : Entry) (ref ref' : Referee)
    {r : PassResult σ} {r' : PassResult τ} (h : r.Mirrors f r') :
    (entry.conclude ref host r).Mirrors f (entry.conclude ref' host' r') := by
  cases entry with
  | prepareRound again => exact mirrors_settlePlan maps again h
  | openRound initial =>
    obtain ⟨found, active, rfl⟩ := h
    exact ⟨_, active, rfl⟩
  | recheckRules =>
    obtain ⟨found, active, rfl⟩ := h
    exact ⟨_, active, rfl⟩
  | _ => exact h

/-- The results differ in nothing but diagnostics and the rules that were active. -/
def PassResult.Agrees (r r' : PassResult σ) : Prop :=
  ∃ found active, r' =
    { r with
      report := { r.report with diagnostics := found }
      referee := { r.referee with active := active } }

/-- Through every entry, rules that act alike on hosts that mirror each other lead to results that
do. -/
theorem mirrors_enter (maps : host.Maps f host') (alike : ActAlike rules rules') (ref : Referee)
    (entry : Entry) (ctx : Context) (state : σ) :
    (enter { ref with active := ⟨rules⟩ } entry host ctx state).Mirrors f
      (enter { ref with active := ⟨rules'⟩ } entry host' ctx (f state)) := by
  have ran := fun ref pass handsOpen =>
    mirrors_evaluate maps alike ref pass handsOpen ctx state
  rw [enter_eq, enter_eq]
  refine mirrors_conclude maps entry _ _ ?_
  cases entry with
  | openRound initial =>
    cases initial with
    | true => exact ran { ref with draw := {}, gate := .closed } _ _
    | false => exact ran ref _ _
  | prepareRound again =>
    exact ran { ref with tally := (if again then ref.tally else {}).start } _ _
  | _ => exact ran ref _ _

/-- Rules that act alike may stand for each other among any others. -/
theorem agrees_enter (alike : ActAlike rules rules') (before after : List Rule) (ref : Referee)
    (entry : Entry) (host : Host σ) (ctx : Context) (state : σ) :
    (enter { ref with active := ⟨before ++ rules ++ after⟩ } entry host ctx state).Agrees
      (enter { ref with active := ⟨before ++ rules' ++ after⟩ } entry host ctx state) :=
  mirrors_enter (.id host) (alike.within before after) ref entry ctx state

end Referee

end Roshambo
