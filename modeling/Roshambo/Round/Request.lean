import Roshambo.Round.Move

/-!
# Requests and answers

A caller makes moves, takes the events logged so far or takes the lines shown so far. Every request
but the taking of events has an answer; events go to the caller's own log, whenever they are taken.
`answers_append` cuts a sequence of requests in two.
-/
namespace Roshambo

inductive Request where
  | make (move : Move)
  | takeEvents
  | takeLines
  deriving DecidableEq

inductive Answer where
  | enabled (added : Bool)
  | toggled (toggle : Toggle) (report : Option PassReport)
  | cleared
  | started (reports : List PassReport)
  | rerolled (result : Except Refusal (List PassReport))
  | played (result : Except Refusal TurnRecord)
  | shown (lines : List String)

namespace Answer

/-- The call dealt cards: a new round, or a new hand for the player. -/
def deals : Answer → Bool
  | started _ => true
  | rerolled (.ok _) => true
  | _ => false

/-- The record of a turn that was not refused. -/
def record? : Answer → Option TurnRecord
  | played (.ok record) => some record
  | _ => none

end Answer

namespace Game

/-- What a move returns to its caller. -/
def answerTo (g : Game) : Move → Answer
  | .enable rule => .enabled (g.enable rule).1
  | .toggle rule => .toggled (g.toggle rule).1.1 (g.toggle rule).1.2
  | .clear => .cleared
  | .start => .started g.start.1
  | .reroll => .rerolled g.reroll.1
  | .play choice => .played (g.play choice).1

def answer? (g : Game) : Request → Option Answer
  | .make move => some (g.answerTo move)
  | .takeEvents => none
  | .takeLines => some (.shown g.takeLines.1)

/-- The events that a request hands out. -/
def eventsFor (g : Game) : Request → List Event
  | .takeEvents => g.takeEvents.1
  | _ => []

/-- The game that a request leaves. -/
def serve (g : Game) : Request → Game
  | .make move => g.after move
  | .takeEvents => g.takeEvents.2
  | .takeLines => g.takeLines.2

/-- The game that requests leave, one after another. -/
def served (g : Game) (requests : List Request) : Game := requests.foldl serve g

/-- The answers to requests, one after another. -/
def answers (g : Game) : List Request → List Answer
  | [] => []
  | request :: requests => (g.answer? request).toList ++ (g.serve request).answers requests

/-- The events taken by requests, in the order in which they were taken. -/
def taken (g : Game) : List Request → List Event
  | [] => []
  | request :: requests => g.eventsFor request ++ (g.serve request).taken requests

/-- All events that there are after the requests: those taken, and those still waiting. -/
def log (g : Game) (requests : List Request) : List Event :=
  g.taken requests ++ (g.served requests).events

@[simp] theorem served_nil (g : Game) : g.served [] = g := rfl

@[simp] theorem served_cons (g : Game) (request : Request) (requests : List Request) :
    g.served (request :: requests) = (g.serve request).served requests := rfl

theorem served_append (g : Game) (first second : List Request) :
    g.served (first ++ second) = (g.served first).served second :=
  List.foldl_append

@[simp] theorem answers_nil (g : Game) : g.answers [] = [] := rfl

@[simp] theorem answers_cons (g : Game) (request : Request) (requests : List Request) :
    g.answers (request :: requests) =
      (g.answer? request).toList ++ (g.serve request).answers requests := rfl

theorem answers_append (g : Game) (first second : List Request) :
    g.answers (first ++ second) = g.answers first ++ (g.served first).answers second := by
  induction first generalizing g with
  | nil => rfl
  | cons request first ih =>
    rw [List.cons_append, answers_cons, ih, ← List.append_assoc]
    rfl

@[simp] theorem log_nil (g : Game) : g.log [] = g.events := rfl

theorem log_cons (g : Game) (request : Request) (requests : List Request) :
    g.log (request :: requests) = g.eventsFor request ++ (g.serve request).log requests :=
  List.append_assoc _ _ _

end Game

end Roshambo
