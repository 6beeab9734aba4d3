import Roshambo.Proofs.Pass.Mirror

/-!
# Calls on the host

What an effect asks of its host is a short list of calls, known before the effect acts. When a call
goes unanswered the effect only reports it, with one exception: a reveal that sees no card still
fixes the next draw. A host that writes down its calls shows which of them a pass makes.
-/
namespace Roshambo

/-- A call on a host, with what it hands over. -/
inductive HostCall where
  | countOf (side : Side) (choice : Choice)
  | firstCard (side : Side)
  | lastCard (side : Side)
  | replaceOthers (choice : Choice) (count : UInt32)
  | replaceRandomly (choice : Choice) (count : UInt32)
  | addCards (side : Side) (choice : Choice) (count : UInt32)
  | addRandomCards (side : Side) (count : UInt32)
  | movePlan (delta : Int64)
  deriving DecidableEq

namespace HostCall

/-- The operation as diagnostics name it. -/
def operation : HostCall → String
  | countOf .. => "count cards in hand"
  | firstCard .. | lastCard .. => "peek the opponent hand"
  | replaceOthers .. | replaceRandomly .. => "replace cards"
  | addCards .. | addRandomCards .. => "add cards"
  | movePlan .. => "adjust planned turns"

def adds : HostCall → Bool
  | addCards .. | addRandomCards .. => true
  | _ => false

def replaces : HostCall → Bool
  | replaceOthers .. | replaceRandomly .. => true
  | _ => false

def plans : HostCall → Bool
  | movePlan .. => true
  | _ => false

/-- The call may change what the host holds. -/
def changes (call : HostCall) : Bool := call.adds || call.replaces || call.plans

/-- How opponent cards are turned into the choice. -/
def replace (choice : Choice) (count : UInt32) : HostCall :=
  match choice with
  | .rock => replaceOthers choice count
  | _ => replaceRandomly choice count

@[simp] theorem adds_replace (choice : Choice) (count : UInt32) :
    (replace choice count).adds = false := by
  cases choice <;> rfl

@[simp] theorem plans_replace (choice : Choice) (count : UInt32) :
    (replace choice count).plans = false := by
  cases choice <;> rfl

end HostCall

variable {σ : Type}

/-- Makes a call: whether the host answers, and the host after it. Queries leave it as it is. -/
def Host.call (host : Host σ) (state : σ) : HostCall → Bool × σ
  | .countOf side choice => ((host.countOf state side choice).isSome, state)
  | .firstCard side => ((host.firstCard state side).isSome, state)
  | .lastCard side => ((host.lastCard state side).isSome, state)
  | .replaceOthers choice count => (host.replaceOthers state choice count).map Option.isSome id
  | .replaceRandomly choice count => (host.replaceRandomly state choice count).map Option.isSome id
  | .addCards side choice count => (host.addCards state side choice count).map Option.isSome id
  | .addRandomCards side count => (host.addRandomCards state side count).map Option.isSome id
  | .movePlan delta => (host.movePlan state delta).map Option.isSome id

/-- The calls that an effect makes when it acts, in their order. -/
def Effect.calls (handsOpen : Bool) : Effect → List HostCall
  | replaceOpponentCards choice count =>
    if handsOpen && count != 0 then [.replace choice count] else []
  | addCards side choice count =>
    if handsOpen && count != 0 then [.addCards side choice count] else []
  | addRandomCards side count => if handsOpen && count != 0 then [.addRandomCards side count] else []
  | revealNextOpponentCard => [.firstCard .opponent]
  | revealOpponentFirstAndLast => [.firstCard .opponent, .lastCard .opponent]
  | addScorePerCard choice _ => [.countOf .player choice]
  | _ => []

namespace Effect

variable {handsOpen : Bool} {call : HostCall} {side : Side} {choice : Choice} {count : UInt32}

theorem mem_calls_replaceOpponentCards :
    call ∈ (replaceOpponentCards choice count).calls handsOpen ↔
      (handsOpen && count != 0) = true ∧ call = .replace choice count := by
  simp [calls]

theorem mem_calls_addCards : call ∈ (addCards side choice count).calls handsOpen ↔
    (handsOpen && count != 0) = true ∧ call = .addCards side choice count := by
  simp [calls]

theorem mem_calls_addRandomCards : call ∈ (addRandomCards side count).calls handsOpen ↔
    (handsOpen && count != 0) = true ∧ call = .addRandomCards side count := by
  simp [calls]

end Effect

/-! ## Calls without an answer -/

namespace PassSetting

variable {setting : PassSetting σ}

theorem noteChange_of_unanswered (s : PassState σ) (pass : Pass) (rule : String) (side : Side)
    (choice : Option Choice) (operation : String) {answer : Option UInt32}
    (unanswered : answer.isSome = false) :
    s.noteChange pass rule side choice operation answer =
      s.addDiagnostic (.notOffered rule .effect operation) := by
  cases answer with
  | none => rfl
  | some _ => cases unanswered

/-- An effect with a call that is not answered reports the operation and does nothing else, but the
next draw comes from the front if a card was to be revealed. -/
theorem perform_of_unanswered {effect : Effect} {call : HostCall} (rule : String)
    (s : PassState σ) (made : call ∈ effect.calls setting.handsOpen)
    (unanswered : (setting.host.call s.host call).1 = false) :
    setting.perform rule effect s = { s with
      host := (setting.host.call s.host call).2
      draw := if effect = .revealNextOpponentCard then s.draw.frontOnce else s.draw
      diagnostics := s.diagnostics ++ [.notOffered rule .effect call.operation] } := by
  cases effect with
  | replaceOpponentCards choice count =>
    obtain ⟨acts, rfl⟩ := Effect.mem_calls_replaceOpponentCards.1 made
    rw [perform, if_pos acts]
    cases choice <;> exact noteChange_of_unanswered _ _ _ _ _ _ unanswered
  | addCards side choice count =>
    obtain ⟨acts, rfl⟩ := Effect.mem_calls_addCards.1 made
    rw [perform, if_pos acts]
    exact noteChange_of_unanswered _ _ _ _ _ _ unanswered
  | addRandomCards side count =>
    obtain ⟨acts, rfl⟩ := Effect.mem_calls_addRandomCards.1 made
    rw [perform, if_pos acts]
    exact noteChange_of_unanswered _ _ _ _ _ _ unanswered
  | revealNextOpponentCard =>
    obtain rfl := List.mem_singleton.1 made
    have unseen : setting.host.firstCard s.host .opponent = none := by
      simpa [Host.call] using unanswered
    simp only [perform, revealNext, unseen]
    rfl
  | revealOpponentFirstAndLast =>
    have unseen : setting.revealFirstAndLast rule s =
        s.addDiagnostic (.notOffered rule .effect "peek the opponent hand") := by
      unfold revealFirstAndLast
      split
      · rename_i first last
        simp only [Effect.calls, List.mem_cons, List.not_mem_nil, or_false] at made
        rcases made with rfl | rfl <;> simp [Host.call, first, last] at unanswered
      · rfl
    simp only [perform, unseen]
    simp only [Effect.calls, List.mem_cons, List.not_mem_nil, or_false] at made
    rcases made with rfl | rfl <;> rfl
  | addScorePerCard choice perCard =>
    obtain rfl := List.mem_singleton.1 made
    have uncounted : setting.host.countOf s.host .player choice = none := by
      simpa [Host.call] using unanswered
    simp only [perform, uncounted]
    rfl
  | addScore _ => cases made
  | showInfo _ => cases made
  | forceOpponentDrawFromFront _ => cases made
  | finalScoreMultiplier _ => cases made
  | finalTotalMultiplier _ => cases made
  | modifyPlannedTurns _ => cases made

/-- A bonus for each card in a hand that nobody can count. -/
theorem perform_of_unanswered_count :
    let setting : PassSetting Unit := ⟨.detached, .turnStart, false⟩
    let s : PassState Unit := ⟨.atTurn 1 5, (), {}, {}, [], ["Collector"], []⟩
    .countOf .player .rock ∈ Effect.calls false (.addScorePerCard .rock 2) ∧
      (setting.host.call () (.countOf .player .rock)).1 = false ∧
      setting.perform "Collector" (.addScorePerCard .rock 2) s =
        { s with diagnostics := [.notOffered "Collector" .effect "count cards in hand"] } := by
  intro setting s
  have made : .countOf .player .rock ∈ Effect.calls false (.addScorePerCard .rock 2) := by decide
  have unanswered : (setting.host.call () (.countOf .player .rock)).1 = false := rfl
  exact ⟨made, unanswered, perform_of_unanswered "Collector" s made unanswered⟩

/-- Where no card can be seen, a reveal still turns the next draw to the front. -/
theorem revealNext_unanswered :
    let seer : Rule := { name := "Seer", tags :=
      [.timing .turnStart, .effect ⟨.revealNextOpponentCard, {}⟩] }
    let result := Referee.openTurn { active := ⟨[seer]⟩ } .detached (.atTurn 1 5) ()
    .firstCard .opponent ∈ Effect.calls false .revealNextOpponentCard ∧
      (Host.detached.call () (.firstCard .opponent)).1 = false ∧
      result.report.diagnostics = [.notOffered "Seer" .effect "peek the opponent hand"] ∧
      result.referee.draw ≠ {} := by
  decide

end PassSetting

/-! ## The passes that may change hands -/

namespace Pass

variable {pass : Pass} {handsOpen : Bool} {effect : Effect} {call : HostCall}

theorem applies_addCards {side : Side} {choice : Choice} {count : UInt32} :
    pass.applies (.addCards side choice count) = true ↔ pass = .prepare false := by
  cases side <;> rcases pass with (_ | _) | _ | _ | _ | _ <;>
    simp [applies, effectKinds, Effect.kind]

theorem applies_addRandomCards {side : Side} {count : UInt32} :
    pass.applies (.addRandomCards side count) = true ↔ pass = .prepare false := by
  cases side <;> rcases pass with (_ | _) | _ | _ | _ | _ <;>
    simp [applies, effectKinds, Effect.kind]

theorem applies_replaceOpponentCards {choice : Choice} {count : UInt32} :
    pass.applies (.replaceOpponentCards choice count) = true ↔
      ∃ initial, pass = .roundStart initial := by
  rcases pass with (_ | _) | _ | _ | _ | _ <;> simp [applies, effectKinds, Effect.kind]

theorem eq_prepare_of_adds (applies : pass.applies effect = true)
    (made : call ∈ effect.calls handsOpen) (adds : call.adds = true) : pass = .prepare false := by
  cases effect with
  | addCards _ _ _ => exact applies_addCards.1 applies
  | addRandomCards _ _ => exact applies_addRandomCards.1 applies
  | replaceOpponentCards choice count =>
    obtain ⟨-, rfl⟩ := Effect.mem_calls_replaceOpponentCards.1 made
    simp at adds
  | _ => grind [Effect.calls, HostCall.adds]

theorem eq_roundStart_of_replaces (applies : pass.applies effect = true)
    (made : call ∈ effect.calls handsOpen) (replaces : call.replaces = true) :
    handsOpen = true ∧ ∃ initial, pass = .roundStart initial := by
  cases effect with
  | replaceOpponentCards choice count =>
    obtain ⟨acts, -⟩ := Effect.mem_calls_replaceOpponentCards.1 made
    rw [Bool.and_eq_true] at acts
    exact ⟨acts.1, applies_replaceOpponentCards.1 applies⟩
  | _ => grind [Effect.calls, HostCall.replaces]

theorem plans_of_calls (made : call ∈ effect.calls handsOpen) : call.plans = false := by
  cases effect with
  | replaceOpponentCards choice count =>
    obtain ⟨-, rfl⟩ := Effect.mem_calls_replaceOpponentCards.1 made
    exact HostCall.plans_replace choice count
  | _ => grind [Effect.calls, HostCall.plans]

end Pass

/-! ## A record of the calls -/

/-- The host with a record of the calls that may change what it holds, in their order. -/
def Host.recording (host : Host σ) : Host (σ × List HostCall) where
  countOf s := host.countOf s.1
  firstCard s := host.firstCard s.1
  lastCard s := host.lastCard s.1
  replaceOthers s choice count :=
    (host.replaceOthers s.1 choice count).map id (·, s.2 ++ [.replaceOthers choice count])
  replaceRandomly s choice count :=
    (host.replaceRandomly s.1 choice count).map id (·, s.2 ++ [.replaceRandomly choice count])
  addCards s side choice count :=
    (host.addCards s.1 side choice count).map id (·, s.2 ++ [.addCards side choice count])
  addRandomCards s side count :=
    (host.addRandomCards s.1 side count).map id (·, s.2 ++ [.addRandomCards side count])
  movePlan s delta := (host.movePlan s.1 delta).map id (·, s.2 ++ [.movePlan delta])
  showInfo s text := (host.showInfo s.1 text, s.2)
  total s := host.total s.1
  rerolls s := host.rerolls s.1

/-- The record is all that is new. -/
theorem Host.maps_recording (host : Host σ) : host.recording.Maps Prod.fst host where
  countOf _ := rfl
  firstCard _ := rfl
  lastCard _ := rfl
  replaceOthers _ _ _ := rfl
  replaceRandomly _ _ _ := rfl
  addCards _ _ _ _ := rfl
  addRandomCards _ _ _ := rfl
  movePlan _ _ := rfl
  showInfo _ _ := rfl

@[simp] theorem PassState.noteChange_host (s : PassState σ) (pass : Pass) (rule : String)
    (side : Side) (choice : Option Choice) (operation : String) (answer : Option UInt32) :
    (s.noteChange pass rule side choice operation answer).host = s.host := by
  cases answer <;> rfl

/-- Every call in the log may change something, and an effect that the pass applies makes it. -/
def Pass.Explains (pass : Pass) (handsOpen : Bool) (log : List HostCall) : Prop :=
  ∀ call ∈ log, call.changes = true ∧
    ∃ effect : Effect, pass.applies effect = true ∧ call ∈ effect.calls handsOpen

namespace Pass.Explains

variable {pass : Pass} {handsOpen : Bool} {log : List HostCall}

theorem unplanned (h : pass.Explains handsOpen log) : ∀ call ∈ log, call.plans = false := by
  intro call mem
  obtain ⟨-, effect, -, made⟩ := h call mem
  exact plans_of_calls made

theorem countP_plans (h : pass.Explains handsOpen log) : log.countP (·.plans) = 0 := by
  rw [List.countP_eq_zero]
  intro call mem
  rw [h.unplanned call mem]
  exact Bool.false_ne_true

end Pass.Explains

namespace PassSetting

variable {host : Host σ} {pass : Pass} {handsOpen : Bool}

theorem host_perform_of_kept (setting : PassSetting σ) (rule : String) {effect : Effect}
    (kept : ∀ state, setting.host.changeHands effect state = state) (s : PassState σ) :
    (setting.perform rule effect s).host = s.host := by
  rcases setting.perform_cases rule effect s with ⟨_, _, _, h⟩ | ⟨_, _, _, _, h⟩ | ⟨_, h⟩ |
    ⟨_, _, _, _, _, h⟩
  · rw [h]
  · rw [h, kept]
  · rw [h]
  · rw [h]

/-- Of the calls that may change something, an effect makes its own and no others. -/
theorem record_perform (rule : String) (effect : Effect) (s : PassState (σ × List HostCall)) :
    (perform ⟨host.recording, pass, handsOpen⟩ rule effect s).host.2 =
      s.host.2 ++ (effect.calls handsOpen).filter (·.changes) := by
  cases effect with
  | replaceOpponentCards choice count =>
    simp only [perform, Effect.calls]
    split
    · cases choice <;> simp only [replaceCards, PassState.noteChange_host] <;> rfl
    · simp
  | addCards side choice count =>
    simp only [perform, Effect.calls]
    split
    · simp only [addCards, PassState.noteChange_host]
      rfl
    · simp
  | addRandomCards side count =>
    simp only [perform, Effect.calls]
    split
    · simp only [addRandomCards, PassState.noteChange_host]
      rfl
    · simp
  | _ =>
    rw [host_perform_of_kept _ _ (fun _ => rfl)]
    exact (List.append_nil _).symm

theorem explains_applyRules (rules : List Rule) {s : PassState (σ × List HostCall)}
    (hs : pass.Explains handsOpen s.host.2) :
    pass.Explains handsOpen (applyRules ⟨host.recording, pass, handsOpen⟩ rules s).host.2 := by
  have carries : Carries ⟨host.recording, pass, handsOpen⟩
      (fun s => pass.Explains handsOpen s.host.2)
      (fun s => pass.Explains handsOpen s.host.2) :=
    { fire := fun _ _ hs => hs
      report := fun _ _ hs => hs
      rest := fun _ _ hs => hs
      done := fun _ hs => hs
      perform := by
        intro rule effect s applies hs call mem
        rw [record_perform, List.mem_append, List.mem_filter] at mem
        rcases mem with old | ⟨made, changes⟩
        · exact hs call old
        · exact ⟨changes, effect, applies, made⟩ }
  exact carries.applyRules rules hs

end PassSetting

/-- In a pass, only the effects that it applies make calls that may change something. -/
theorem Referee.explains_evaluate (ref : Referee) (host : Host σ) (pass : Pass) (handsOpen : Bool)
    (ctx : Context) (state : σ) :
    pass.Explains handsOpen
      (ref.evaluate ⟨host.recording, pass, handsOpen⟩ ctx (state, [])).host.2 := by
  let setting : PassSetting (σ × List HostCall) := ⟨host.recording, pass, handsOpen⟩
  have start : pass.Explains handsOpen (ref.passStart ctx (state, ([] : List HostCall))).host.2 := by
    intro call mem
    cases mem
  have acted : pass.Explains handsOpen
      (setting.applyRules ref.active.rules (ref.passStart ctx (state, []))).host.2 :=
    PassSetting.explains_applyRules ref.active.rules start
  rw [evaluate_host]
  rcases setting.showLine_host (setting.applyRules ref.active.rules (ref.passStart ctx (state, [])))
    with same | ⟨text, shown⟩
  · rwa [same]
  · rw [shown]
    exact acted

end Roshambo
