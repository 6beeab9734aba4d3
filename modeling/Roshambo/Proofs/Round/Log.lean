import Roshambo.Round.Event

/-!
# Reading the log

The log names the phase of every rule that fires, and every opponent's card when its turn is
resolved. These two readings tell in which pass a card was revealed and which cards were drawn
after it in the same round.
-/
namespace Roshambo

namespace Event

def firedPhase? : Event → Option Phase
  | ruleFired phase _ => some phase
  | _ => none

/-- The opponent's card of a turn that was resolved. -/
def drawn? : Event → Option Choice
  | turnResolved _ _ opponent _ _ _ => some opponent
  | _ => none

def revealed? : Event → Option Choice
  | cardRevealed _ card => some card
  | _ => none

def startsRound : Event → Bool
  | roundStarted _ _ _ _ => true
  | _ => false

end Event

namespace Log

/-- The phase of the last rule that fired. -/
def lastPhase (log : List Event) : Option Phase := log.reverse.findSome? Event.firedPhase?

/-- The opponent's cards of the turns resolved before the next round starts. -/
def drawnCards (log : List Event) : List Choice :=
  (log.takeWhile (!·.startsRound)).filterMap Event.drawn?

theorem lastPhase_append (first second : List Event) :
    lastPhase (first ++ second) = (lastPhase second).or (lastPhase first) := by
  simp [lastPhase, List.findSome?_append]

theorem lastPhase_append_of_some (first : List Event) {second : List Event} {phase : Phase}
    (h : lastPhase second = some phase) : lastPhase (first ++ second) = some phase := by
  rw [lastPhase_append, h]
  rfl

theorem drawnCards_append (first second : List Event) :
    drawnCards (first ++ second) =
      drawnCards first ++ if first.any Event.startsRound then [] else drawnCards second := by
  induction first with
  | nil => simp [drawnCards]
  | cons event first ih =>
    simp only [drawnCards] at ih
    cases h : event.startsRound
    · cases hd : event.drawn? <;> simp [drawnCards, h, hd, ih]
    · simp [drawnCards, h]

/-- No card is revealed or drawn. -/
def Quiet (log : List Event) : Prop :=
  ∀ event ∈ log, event.revealed? = none ∧ event.drawn? = none

theorem Quiet.append {first second : List Event} (h : Quiet first) (h' : Quiet second) :
    Quiet (first ++ second) := by
  intro event mem
  rcases List.mem_append.1 mem with left | right
  · exact h event left
  · exact h' event right

theorem Quiet.drawnCards_eq {log : List Event} (h : Quiet log) : drawnCards log = [] := by
  refine List.filterMap_eq_nil_iff.2 fun event mem => (h event ?_).2
  exact (List.takeWhile_prefix _).subset mem

/-- This holds of every card revealed in the log, between what was logged before and after it. -/
def AtReveals (P : List Event → Choice → List Event → Prop) (log : List Event) : Prop :=
  ∀ before rule card after, log = before ++ .cardRevealed rule card :: after → P before card after

section AtReveals

variable {P Q : List Event → Choice → List Event → Prop} {log first second : List Event}

theorem AtReveals.mono (h : AtReveals P log) (weaker : ∀ before card after,
    P before card after → Q before card after) : AtReveals Q log :=
  fun before rule card after eq => weaker before card after (h before rule card after eq)

theorem Quiet.atReveals (h : Quiet log) : AtReveals P log := by
  intro before rule card after eq
  have silent := (h (.cardRevealed rule card) (by simp [eq])).1
  simp [Event.revealed?] at silent

/-- A reveal in a log of two parts is in the one or in the other. -/
theorem AtReveals.append (h : AtReveals (fun before card after => P before card (after ++ second)) first)
    (h' : AtReveals (fun before card after => P (first ++ before) card after) second) :
    AtReveals P (first ++ second) := by
  intro before rule card after eq
  rcases List.append_eq_append_iff.1 eq with ⟨front, rfl, inSecond⟩ | ⟨rest, inFirst, inSecond⟩
  · exact h' front rule card after inSecond
  · cases rest with
    | nil =>
      obtain rfl : first = before := inFirst.trans (List.append_nil before)
      simpa using h' [] rule card after inSecond.symm
    | cons event rest =>
      obtain ⟨rfl, rfl⟩ := List.cons.inj inSecond
      exact h before rule card rest inFirst

theorem AtReveals.cons {event : Event} (silent : event.revealed? = none)
    (h : AtReveals (fun before card after => P (event :: before) card after) log) :
    AtReveals P (event :: log) := by
  intro before rule card after eq
  cases before with
  | nil =>
    obtain ⟨rfl, -⟩ := List.cons.inj eq
    simp [Event.revealed?] at silent
  | cons other before =>
    obtain ⟨rfl, rest⟩ := List.cons.inj eq
    exact h before rule card after rest

end AtReveals

/-- Every card revealed in the log is revealed in this phase, and is one of `shown`. -/
def RevealsIn (phase : Phase) (shown : Choice → Prop) : List Event → Prop :=
  AtReveals fun before card _ => lastPhase before = some phase ∧ shown card

theorem RevealsIn.mono {phase : Phase} {shown shown' : Choice → Prop} {log : List Event}
    (h : RevealsIn phase shown log) (weaker : ∀ card, shown card → shown' card) :
    RevealsIn phase shown' log :=
  AtReveals.mono h fun _ card _ revealed => ⟨revealed.1, weaker card revealed.2⟩

/-- No turn is resolved and no round starts. -/
def WithinTurn (log : List Event) : Prop :=
  ∀ event ∈ log, event.drawn? = none ∧ event.startsRound = false

theorem WithinTurn.append {first second : List Event} (h : WithinTurn first)
    (h' : WithinTurn second) : WithinTurn (first ++ second) := by
  intro event mem
  rcases List.mem_append.1 mem with left | right
  · exact h event left
  · exact h' event right

theorem WithinTurn.any_startsRound {log : List Event} (h : WithinTurn log) :
    log.any Event.startsRound = false := by
  simpa using fun event mem => (h event mem).2

theorem WithinTurn.drawnCards_eq {log : List Event} (h : WithinTurn log) : drawnCards log = [] := by
  refine List.filterMap_eq_nil_iff.2 fun event mem => (h event ?_).1
  exact (List.takeWhile_prefix _).subset mem

theorem WithinTurn.drawnCards_append {first : List Event} (h : WithinTurn first)
    (second : List Event) : drawnCards (first ++ second) = drawnCards second := by
  rw [Log.drawnCards_append, h.any_startsRound, h.drawnCards_eq]
  rfl

/-- A turn's events after a reveal in it are within the turn. -/
theorem WithinTurn.atReveals {log : List Event} (h : WithinTurn log) :
    AtReveals (fun _ _ after => WithinTurn after) log := by
  rintro before rule card after rfl event mem
  exact h event (by simp [mem])

/-- Of a turn's last events, which follow its resolution, none draws a card. -/
theorem drawnCards_turnResolved {closing : List Event} (h : WithinTurn closing) (turn : UInt32)
    (choice card : Choice) (outcome : Outcome) (delta total : Int64) :
    drawnCards (.turnResolved turn choice card outcome delta total :: closing) = [card] := by
  show card :: drawnCards closing = [card]
  rw [h.drawnCards_eq]

end Log

end Roshambo
