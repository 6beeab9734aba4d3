import Mathlib.Data.List.Induction
import Roshambo.Proofs.Pass.Calls
import Roshambo.Proofs.Round.Entry

/-!
# When hands and plan may change

Whatever happened to a referee before, a pass changes hands or plan only where it is meant to.
Cards are added while a fresh round is prepared. Cards are turned while a round opens, and once
more when the rules are checked after the hand gate was opened: an open gate tells that no pass of
that phase came in between. The plan moves at most once, at the end of a round-prepare pass.
-/
namespace Roshambo

namespace Referee

/-! ## The use of a referee -/

namespace Entry

/-- The entry runs a round-start pass. -/
def startsRound : Entry → Bool
  | openRound _ => true
  | recheckRules => true
  | _ => false

end Entry

variable {σ : Type}

/-- One use of a referee. Every pass may come with a host of its own. -/
inductive Use (σ : Type) where
  | enable (rule : Rule)
  | disable (name : String)
  | toggle (rule : Rule)
  | setOnly (rule : Option Rule)
  | clear
  | openGate
  | decideDraw
  | takeEvents
  | enter (entry : Entry) (host : Host σ) (ctx : Context) (state : σ)

def after (ref : Referee) : Use σ → Referee
  | .enable rule => (ref.enable rule).2
  | .disable name => (ref.disable name).2
  | .toggle rule => (ref.toggle rule).2
  | .setOnly rule => ref.setOnly rule
  | .clear => ref.clear
  | .openGate => ref.openGate
  | .decideDraw => ref.decideDraw.2
  | .takeEvents => ref.takeEvents.2
  | .enter entry host ctx state => (ref.enter entry host ctx state).referee

/-- A new referee after these uses. -/
def used (uses : List (Use σ)) : Referee := uses.foldl after {}

theorem used_append_singleton (uses : List (Use σ)) (use : Use σ) :
    used (uses ++ [use]) = (used uses).after use := by
  simp [used]

namespace Use

/-- The use runs a round-start pass. -/
def startsRound : Use σ → Bool
  | enter entry .. => entry.startsRound
  | _ => false

end Use

/-- The hand gate was opened, and no round-start pass was run since. -/
def Reopened (uses : List (Use σ)) : Prop :=
  ∃ earlier later, uses = earlier ++ .openGate :: later ∧ ∀ use ∈ later, use.startsRound = false

theorem Reopened.append_singleton {uses : List (Use σ)} (h : Reopened uses) {use : Use σ}
    (other : use.startsRound = false) : Reopened (uses ++ [use]) := by
  obtain ⟨earlier, later, rfl, since⟩ := h
  refine ⟨earlier, later ++ [use], by simp, fun next mem => ?_⟩
  rcases List.mem_append.1 mem with old | new
  · exact since next old
  · rwa [List.mem_singleton.1 new]

/-! ## The hand gate -/

variable (ref : Referee)

theorem gate_settlePlan (host : Host σ) (again : Bool) (r : PassResult σ) :
    (settlePlan host again r).referee.gate = r.referee.gate := by
  obtain ⟨_, _, _, _, _, eq⟩ := settlePlan_eq host again r
  rw [eq]

theorem gate_enter (entry : Entry) (host : Host σ) (ctx : Context) (state : σ) :
    (ref.enter entry host ctx state).referee.gate =
      if entry.startsRound then .closed else ref.gate := by
  cases entry with
  | prepareRound again => exact gate_settlePlan host again _
  | _ => rfl

theorem gate_enable (rule : Rule) : (ref.enable rule).2.gate = ref.gate := by
  unfold enable
  split <;> rfl

theorem gate_disable (name : String) : (ref.disable name).2.gate = ref.gate := by
  unfold disable
  split <;> rfl

/-- Only opening the gate opens it, and only a round-start pass closes it. -/
theorem gate_after (use : Use σ) : use = .openGate ∨
    (ref.after use).gate = if use.startsRound then .closed else ref.gate := by
  cases use with
  | openGate => exact .inl rfl
  | enable rule => exact .inr (ref.gate_enable rule)
  | disable name => exact .inr (ref.gate_disable name)
  | setOnly rule =>
    cases rule with
    | none => exact .inr rfl
    | some rule => exact .inr (gate_enable { ref with active := ref.active.clear } rule)
  | enter entry host ctx state => exact .inr (ref.gate_enter entry host ctx state)
  | _ => exact .inr rfl

theorem reopened_of_isOpen (uses : List (Use σ)) (isOpen : (used uses).gate.isOpen = true) :
    Reopened uses := by
  induction uses using List.reverseRecOn with
  | nil => cases isOpen
  | append_singleton uses use ih =>
    rw [used_append_singleton] at isOpen
    rcases (used uses).gate_after use with rfl | gate
    · exact ⟨uses, [], rfl, by simp⟩
    · rw [gate] at isOpen
      cases starts : use.startsRound with
      | true =>
        rw [starts] at isOpen
        cases isOpen
      | false =>
        rw [starts] at isOpen
        exact (ih isOpen).append_singleton starts

/-! ## The calls of one pass -/

/-- What a pass may do to hands and plan after these uses, by the calls that it made. -/
structure InSeason (uses : List (Use σ)) (entry : Entry) (calls : List HostCall) : Prop where
  adds : ∀ call ∈ calls, call.adds = true → entry = .prepareRound false
  replaces : ∀ call ∈ calls, call.replaces = true → entry = .openRound true ∨
    (entry = .openRound false ∨ entry = .recheckRules) ∧ Reopened uses
  plans : ∀ delta, .movePlan delta ∈ calls → (∃ again, entry = .prepareRound again) ∧ delta ≠ 0
  plansOnce : calls.countP (·.plans) ≤ 1

variable {uses : List (Use σ)} {entry : Entry} {calls : List HostCall}

/-- The calls that come of the rules keep to the season if their pass does. -/
theorem inSeason_of_explains {pass : Pass} {handsOpen : Bool}
    (explained : pass.Explains handsOpen calls)
    (adding : pass = .prepare false → entry = .prepareRound false)
    (replacing : handsOpen = true → ∀ initial, pass = .roundStart initial →
      entry = .openRound true ∨
        (entry = .openRound false ∨ entry = .recheckRules) ∧ Reopened uses) :
    InSeason uses entry calls where
  adds call mem adds := by
    obtain ⟨-, effect, applies, made⟩ := explained call mem
    exact adding (Pass.eq_prepare_of_adds applies made adds)
  replaces call mem replaces := by
    obtain ⟨-, effect, applies, made⟩ := explained call mem
    obtain ⟨isOpen, initial, starts⟩ := Pass.eq_roundStart_of_replaces applies made replaces
    exact replacing isOpen initial starts
  plans delta mem := by
    cases explained.unplanned _ mem
  plansOnce := by
    rw [explained.countP_plans]
    exact Nat.zero_le 1

/-- After the rules, a round-prepare pass may move the plan. -/
theorem InSeason.movePlan {again : Bool} (h : InSeason uses (.prepareRound again) calls)
    (unplanned : calls.countP (·.plans) = 0) {delta : Int64} (due : delta ≠ 0) :
    InSeason uses (.prepareRound again) (calls ++ [.movePlan delta]) where
  adds call mem adds := by
    rcases List.mem_append.1 mem with mem | mem
    · exact h.adds call mem adds
    · rw [List.mem_singleton.1 mem] at adds
      cases adds
  replaces call mem replaces := by
    rcases List.mem_append.1 mem with mem | mem
    · exact h.replaces call mem replaces
    · rw [List.mem_singleton.1 mem] at replaces
      cases replaces
  plans other mem := by
    rcases List.mem_append.1 mem with mem | mem
    · exact h.plans other mem
    · rw [HostCall.movePlan.inj (List.mem_singleton.1 mem)]
      exact ⟨⟨again, rfl⟩, due⟩
  plansOnce := by
    rw [List.countP_append, unplanned]
    exact Nat.le_refl 1

theorem record_settlePlan (host : Host σ) (again : Bool) (r : PassResult (σ × List HostCall)) :
    (settlePlan host.recording again r).host.2 = r.host.2 ∨ ∃ delta, delta ≠ 0 ∧
      (settlePlan host.recording again r).host.2 = r.host.2 ++ [.movePlan delta] := by
  simp only [settlePlan]
  split
  · exact .inl rfl
  · rename_i due
    refine .inr ⟨_, due, ?_⟩
    split <;> rename_i moved <;> exact (congrArg (·.2.2) moved).symm

/-- After any uses of a new referee, and whatever the rules, the host and the context of a pass,
the calls that the pass makes are in season. Without the record of its calls the pass comes to the
same. -/
theorem inSeason_enter (uses : List (Use σ)) (entry : Entry) (host : Host σ) (ctx : Context)
    (state : σ) :
    let recorded := (used uses).enter entry host.recording ctx (state, [])
    recorded.Mirrors Prod.fst ((used uses).enter entry host ctx state) ∧
      InSeason uses entry recorded.host.2 := by
  intro recorded
  refine ⟨mirrors_enter host.maps_recording (.refl _) (used uses) entry ctx (state, []), ?_⟩
  have explained := fun ref pass handsOpen => explains_evaluate ref host pass handsOpen ctx state
  cases entry with
  | prepareRound again =>
    let ref := { used uses with tally := (if again then (used uses).tally else {}).start }
    let r := evaluate ref ⟨host.recording, .prepare again, !again⟩ ctx (state, [])
    have made := explained ref (.prepare again) (!again)
    have acted : InSeason uses (.prepareRound again) r.host.2 :=
      inSeason_of_explains made (fun full => by rw [Pass.prepare.inj full]) nofun
    show InSeason uses _ (settlePlan host.recording again r).host.2
    rcases record_settlePlan host again r with kept | ⟨delta, due, moved⟩
    · rwa [kept]
    · rw [moved]
      exact acted.movePlan made.countP_plans due
  | openRound initial =>
    cases initial with
    | true =>
      exact inSeason_of_explains
        (explained { used uses with draw := {}, gate := .closed } (.roundStart true) true) nofun
        fun _ _ _ => .inl rfl
    | false =>
      exact inSeason_of_explains
        (explained (used uses) (.roundStart false) (used uses).gate.isOpen) nofun
        fun isOpen _ _ => .inr ⟨.inl rfl, reopened_of_isOpen uses isOpen⟩
  | recheckRules =>
    exact inSeason_of_explains
      (explained (used uses) (.roundStart false) (used uses).gate.isOpen) nofun
      fun isOpen _ _ => .inr ⟨.inr rfl, reopened_of_isOpen uses isOpen⟩
  | openTurn => exact inSeason_of_explains (explained _ _ _) nofun nofun
  | settleTurn => exact inSeason_of_explains (explained _ _ _) nofun nofun
  | closeRound => exact inSeason_of_explains (explained _ _ _) nofun nofun

/-- The rules are checked again: cards are turned only if the gate was opened before. -/
example :
    let landslide : Rule := { name := "Landslide", tags :=
      [.timing .roundStart, .effect ⟨.replaceOpponentCards .rock 2, {}⟩] }
    let calls uses := ((used (.enable landslide :: uses)).enter .recheckRules
      Host.detached.recording {} ((), [])).host.2
    calls [.openGate] = [.replaceOthers .rock 2] ∧ calls ([] : List (Use Unit)) = [] := by
  decide

end Referee

end Roshambo
