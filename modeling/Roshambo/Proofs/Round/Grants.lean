import Roshambo.Proofs.Pass.Ledger
import Roshambo.Proofs.Round.Calls
import Roshambo.Proofs.Round.Plan

/-!
# Planned turns are granted once

Between two passes that prepare a round, anything may happen to a referee: rules come and go, other
passes run, and every pass may meet another host on other hands. Since the last full pass, what
the tally counts as granted is just the sum of the requests that hosts granted (`granted_once`): no
turn is lost by a refusal, and none is granted twice.
-/
namespace Roshambo

/-- The planned turns that were granted, of all that were requested. -/
def turnsGranted (requests : List PlanRequest) : Int :=
  ((requests.filter (·.granted)).map (·.delta.toInt)).sum

theorem turnsGranted_append (first second : List PlanRequest) :
    turnsGranted (first ++ second) = turnsGranted first + turnsGranted second := by
  simp [turnsGranted]

namespace Referee

variable {σ : Type}

namespace Use

/-- The use runs a full round-prepare pass. -/
def preparesAfresh : Use σ → Bool
  | enter (.prepareRound again) .. => !again
  | _ => false

/-- The changes of the plan that the use requests of its host. -/
def requests (ref : Referee) : Use σ → List PlanRequest
  | enter entry host ctx state => ref.requestsOf host ctx state entry
  | _ => []

end Use

/-- The changes of the plan that are requested while a referee is used, in their order. -/
def requests (ref : Referee) : List (Use σ) → List PlanRequest
  | [] => []
  | use :: uses => use.requests ref ++ (ref.after use).requests uses

/-- This holds of every round-prepare pass among the uses, and of the referee that runs it. -/
def AtPrepares (P : Referee → Host σ → Context → σ → Bool → Prop) (ref : Referee)
    (uses : List (Use σ)) : Prop :=
  ∀ earlier again host ctx state later,
    uses = earlier ++ .enter (.prepareRound again) host ctx state :: later →
      P (earlier.foldl after ref) host ctx state again

/-- In every round-prepare pass, what the rules ask for stays small. -/
def Modest (ref : Referee) (uses : List (Use σ)) : Prop :=
  ref.AtPrepares (fun ref host ctx state again => StaysSmall (ref.turnsAsked host ctx state again))
    uses

variable {ref : Referee} {P : Referee → Host σ → Context → σ → Bool → Prop}

theorem atPrepares_nil : ref.AtPrepares P [] := by
  intro earlier again host ctx state later eq
  simp at eq

theorem atPrepares_cons {use : Use σ} {uses : List (Use σ)} :
    ref.AtPrepares P (use :: uses) ↔
      (∀ again host ctx state, use = .enter (.prepareRound again) host ctx state →
        P ref host ctx state again) ∧ (ref.after use).AtPrepares P uses := by
  constructor
  · intro h
    refine ⟨fun again host ctx state eq => ?_, fun earlier again host ctx state later eq => ?_⟩
    · exact h [] again host ctx state uses (by rw [eq]; rfl)
    · exact h (use :: earlier) again host ctx state later (by rw [eq]; rfl)
  · rintro ⟨first, rest⟩ earlier again host ctx state later eq
    cases earlier with
    | nil =>
      obtain ⟨rfl, -⟩ := List.cons.inj eq
      exact first again host ctx state rfl
    | cons other earlier =>
      obtain ⟨rfl, cut⟩ := List.cons.inj eq
      exact rest earlier again host ctx state later cut

/-! ## One use -/

/-- A pass adds what it was granted to what had been granted before. -/
theorem Settles.granted_eq {host : Host σ} {ctx : Context} {state : σ} {again : Bool}
    (h : ref.Settles host ctx state again) :
    (ref.prepareRound host again ctx state).referee.tally.granted.toInt =
      ref.grantedBefore again +
        turnsGranted (ref.requestsOf host ctx state (.prepareRound again)) := by
  have granted := h.granted
  have refused := h.refused
  rcases h.asks with ⟨none, whole⟩ | ⟨request, one, -, missing⟩
  · rw [none] at granted ⊢
    rw [(granted (by simp)).1, whole]
    exact (Int.add_zero _).symm
  · rw [one] at granted refused ⊢
    cases answer : request.granted with
    | true =>
      rw [(granted (by simp [answer])).1]
      simp only [turnsGranted, answer, List.filter_cons, List.filter_nil, if_true, List.map_cons,
        List.map_nil, List.sum_singleton]
      omega
    | false =>
      rw [(refused (by simp [answer])).1]
      simp [turnsGranted, answer]

theorem Settles.granted_small {host : Host σ} {ctx : Context} {state : σ} {again : Bool}
    (h : ref.Settles host ctx state again)
    (small : StaysSmall (ref.turnsAsked host ctx state again))
    (near : (ref.grantedBefore again).natAbs < 2 ^ 62) :
    (ref.prepareRound host again ctx state).referee.tally.granted.toInt.natAbs < 2 ^ 62 := by
  by_cases all : ∀ request ∈ ref.requestsOf host ctx state (.prepareRound again),
      request.granted = true
  · rw [(h.granted all).1]
    exact small.sum
  · simp only [not_forall, Bool.not_eq_true, exists_prop] at all
    rw [(h.refused all).1]
    exact near

/-- No other use of a referee touches the tally or asks for planned turns. -/
theorem tally_after_of_other {use : Use σ}
    (other : ∀ again host ctx state, use ≠ .enter (.prepareRound again) host ctx state) :
    (ref.after use).tally = ref.tally ∧ use.requests ref = [] := by
  cases use with
  | enter entry host ctx state =>
    cases entry with
    | prepareRound again => exact absurd rfl (other again host ctx state)
    | openRound initial =>
      refine ⟨ref.tally_openRound ctx host initial state, ?_⟩
      cases initial <;> exact requests_evaluate _ _ _ _ _ _
    | recheckRules =>
      exact ⟨ref.tally_openRound ctx host false state, requests_evaluate _ _ _ _ _ _⟩
    | _ =>
      exact ⟨ref.tally_evaluate_of_unplanned _ ctx state (by simp [Pass.effectKinds]),
        requests_evaluate _ _ _ _ _ _⟩
  | enable rule =>
    refine ⟨?_, rfl⟩
    show (ref.enable rule).2.tally = _
    unfold enable
    split <;> rfl
  | disable name =>
    refine ⟨?_, rfl⟩
    show (ref.disable name).2.tally = _
    unfold disable
    split <;> rfl
  | setOnly rule =>
    refine ⟨?_, rfl⟩
    cases rule with
    | none => rfl
    | some rule =>
      show (Referee.enable _ rule).2.tally = _
      unfold enable
      split <;> rfl
  | _ => exact ⟨rfl, rfl⟩

/-- What a use that is no full pass does to what is granted. -/
theorem settles_after {use : Use σ} (again : use.preparesAfresh = false)
    (near : ref.tally.granted.toInt.natAbs < 2 ^ 62)
    (small : ∀ again host ctx state, use = .enter (.prepareRound again) host ctx state →
      StaysSmall (ref.turnsAsked host ctx state again)) :
    (∀ again host ctx state, use = .enter (.prepareRound again) host ctx state →
        ref.Settles host ctx state again) ∧
      (ref.after use).tally.granted.toInt =
        ref.tally.granted.toInt + turnsGranted (use.requests ref) ∧
      (ref.after use).tally.granted.toInt.natAbs < 2 ^ 62 := by
  by_cases prepares : ∃ again host ctx state, use = .enter (.prepareRound again) host ctx state
  · obtain ⟨full, host, ctx, state, rfl⟩ := prepares
    obtain rfl : full = true := by simpa [Use.preparesAfresh] using again
    have settles := settles_prepareRound true (small _ _ _ _ rfl) near
    refine ⟨?_, settles.granted_eq, settles.granted_small (small _ _ _ _ rfl) near⟩
    rintro _ _ _ _ ⟨⟩
    exact settles
  · simp only [not_exists] at prepares
    obtain ⟨tally, none⟩ : (ref.after use).tally = ref.tally ∧ use.requests ref = [] :=
      tally_after_of_other prepares
    rw [tally, none]
    exact ⟨fun _ _ _ _ eq => absurd eq (prepares _ _ _ _), (Int.add_zero _).symm, near⟩

/-! ## Many uses -/

/-- Without a full pass, what is granted only grows by the grants. -/
theorem granted_uses {uses : List (Use σ)} (again : ∀ use ∈ uses, use.preparesAfresh = false)
    (near : ref.tally.granted.toInt.natAbs < 2 ^ 62) (small : ref.Modest uses) :
    (uses.foldl after ref).tally.granted.toInt =
        ref.tally.granted.toInt + turnsGranted (ref.requests uses) ∧
      ref.AtPrepares Settles uses := by
  induction uses generalizing ref with
  | nil => exact ⟨(Int.add_zero _).symm, atPrepares_nil⟩
  | cons use uses ih =>
    obtain ⟨first, rest⟩ := atPrepares_cons.1 small
    obtain ⟨settles, grown, small'⟩ := settles_after (again use List.mem_cons_self) near first
    obtain ⟨total, settled⟩ := ih (fun other mem => again other (List.mem_cons_of_mem use mem))
      small' rest
    refine ⟨?_, atPrepares_cons.2 ⟨settles, settled⟩⟩
    rw [List.foldl_cons, total, grown, requests, turnsGranted_append, Int.add_assoc]

/-- From a full pass on, whatever the referee is used for and whichever requests are refused, the
tally counts as granted the sum of what was granted, and every pass requests just what is missing. -/
theorem granted_once (earlier : List (Use σ)) (host : Host σ) (ctx : Context) (state : σ)
    (later : List (Use σ)) (again : ∀ use ∈ later, use.preparesAfresh = false)
    (modest : (used earlier).Modest (.enter (.prepareRound false) host ctx state :: later)) :
    let uses := .enter (.prepareRound false) host ctx state :: later
    (used (earlier ++ uses)).tally.granted.toInt = turnsGranted ((used earlier).requests uses) ∧
      (used earlier).AtPrepares Settles uses := by
  intro uses
  obtain ⟨first, rest⟩ := atPrepares_cons.1 modest
  have small := first _ _ _ _ rfl
  have begun : (used earlier).grantedBefore false = 0 := rfl
  have near : ((used earlier).grantedBefore false).natAbs < 2 ^ 62 := by
    rw [begun]
    decide
  have settles := settles_prepareRound false small near
  obtain ⟨total, settled⟩ := granted_uses again (settles.granted_small small near) rest
  refine ⟨?_, atPrepares_cons.2 ⟨?_, settled⟩⟩
  · let full := ((used earlier).prepareRound host false ctx state).referee
    have run : used (earlier ++ uses) = later.foldl after full := by
      simp only [used, uses, List.foldl_append, List.foldl_cons]
      rfl
    calc (used (earlier ++ uses)).tally.granted.toInt
      _ = full.tally.granted.toInt + turnsGranted (full.requests later) := by
        rw [run]
        exact total
      _ = turnsGranted ((used earlier).requests uses) := by
        rw [settles.granted_eq, begun, Int.zero_add, ← turnsGranted_append]
        rfl
  · rintro _ _ _ _ ⟨⟩
    exact settles

/-- A survey is granted its turn, a second one is refused two, and the next pass asks for just
these two. -/
theorem granted_once_refused :
    let survey (turns : Int64) (name : String) : Rule := { name := name, tags :=
      [.timing .roundPrepare, .effect { effect := .modifyPlannedTurns turns }] }
    let t := Table.ofSeed .standard 7
    let earlier : List (Use Table) := [.enable (survey 1 "First survey")]
    let later : List (Use Table) := [.enable (survey 2 "Second survey"),
      .enter (.prepareRound true) {} {} t, .enter (.prepareRound true) Table.host {} t]
    (∀ use ∈ later, use.preparesAfresh = false) ∧
      (used earlier).Modest (.enter (.prepareRound false) Table.host {} t :: later) ∧
      let uses := .enter (.prepareRound false) Table.host {} t :: later
      ((used (earlier ++ uses)).tally.granted.toInt = turnsGranted ((used earlier).requests uses) ∧
        (used earlier).AtPrepares Settles uses) ∧
      (used earlier).requests uses = [⟨1, true⟩, ⟨2, false⟩, ⟨2, true⟩] := by
  intro survey t earlier later
  have again : ∀ use ∈ later, use.preparesAfresh = false := by
    simp [later, Use.preparesAfresh]
  have modest : (used earlier).Modest (.enter (.prepareRound false) Table.host {} t :: later) := by
    refine atPrepares_cons.2 ⟨?_, atPrepares_cons.2 ⟨?_, atPrepares_cons.2 ⟨?_,
      atPrepares_cons.2 ⟨?_, atPrepares_nil⟩⟩⟩⟩
    · rintro _ _ _ _ ⟨⟩
      decide +kernel
    · rintro _ _ _ _ ⟨⟩
    · rintro _ _ _ _ ⟨⟩
      decide +kernel
    · rintro _ _ _ _ ⟨⟩
      decide +kernel
  refine ⟨again, modest, granted_once earlier Table.host {} t later again modest, ?_⟩
  decide +kernel

end Referee

end Roshambo
