import Roshambo.Console.Basic

/-!
# Interactive play

Before every line the console makes ready: when a round is finished it starts the next one, or ends
the run if all rounds are played. Then it prompts, and answers the line it is given. `Progress.step`
is all that happens with one line, wherever the lines come from.
-/
namespace Roshambo

/-- Why an interactive run ended. -/
inductive Ending where
  | closed
  /-- A line could not be read as text. -/
  | unreadable
  deriving DecidableEq

/-- How far an interactive run has come. -/
inductive Progress where
  /-- The console has prompted and waits for a line. -/
  | waiting (c : Console)
  | ended (ending : Ending) (c : Console)

namespace Console

/-- Makes ready for a line and prompts; the run is over once all rounds are played. -/
def ready (c : Console) (rounds : UInt32) : Progress :=
  if c.game.stage = .finished then
    if rounds ≤ c.round then .ended .closed c.close else .waiting (c.start.print (.out "> "))
  else .waiting (c.print (.out "> "))

/-- Answers a line; nothing when the player quits. -/
def answer (c : Console) (library : Library) (line : String) : Option Console :=
  match Text.words line with
  | [] => some c
  | command :: rest =>
    match command with
    | "help" | "h" | "?" => some (c.sayAll helpLines)
    | "quit" | "exit" | "q" => none
    | "state" => some c.sayState
    | "rules" => some (c.sayRules library)
    | "toggle" | "t" => some (c.toggle library (" ".intercalate rest))
    | "reroll" => some c.reroll
    | other =>
      match Choice.ofKeyword? other with
      | some choice => some (c.play choice)
      | none => some (c.say ("unknown command `" ++ other ++ "` (try help)"))

end Console

namespace Progress

/-- What a line does. One that is no text ends the run without a total. -/
def step (library : Library) (rounds : UInt32) : Progress → Option String → Progress
  | ended ending c, _ => ended ending c
  | waiting c, none => ended .unreadable c
  | waiting c, some line =>
    match c.answer library line with
    | none => ended .closed c.close
    | some c => c.ready rounds

/-- How the run ends when no line is left. -/
def finish : Progress → Ending × Console
  | waiting c => (.closed, c.close)
  | ended ending c => (ending, c)

theorem foldl_step_ended (library : Library) (rounds : UInt32) (ending : Ending) (c : Console)
    (lines : List (Option String)) :
    lines.foldl (step library rounds) (ended ending c) = ended ending c := by
  induction lines with
  | nil => rfl
  | cons line lines ih => exact ih

end Progress

/-- Takes lines until the run is over or no line is left. -/
def Console.interact (c : Console) (library : Library) (rounds : UInt32)
    (lines : List (Option String)) : Ending × Console :=
  (lines.foldl (Progress.step library rounds) (c.ready rounds)).finish

theorem Console.interact_of_ended {c c' : Console} {rounds : UInt32} {ending : Ending}
    (ended : c.ready rounds = .ended ending c') (library : Library) (lines : List (Option String)) :
    c.interact library rounds lines = (ending, c') := by
  rw [interact, ended, Progress.foldl_step_ended]
  rfl

theorem Console.interact_cons_of_quit {c c' : Console} {rounds : UInt32} {library : Library}
    {line : String} (waiting : c.ready rounds = .waiting c') (quit : c'.answer library line = none)
    (lines : List (Option String)) :
    c.interact library rounds (some line :: lines) = (.closed, c'.close) := by
  rw [interact, waiting, List.foldl_cons, Progress.step, quit, Progress.foldl_step_ended]
  rfl

theorem Console.interact_cons_of_answer {c c' c'' : Console} {rounds : UInt32} {library : Library}
    {line : String} (waiting : c.ready rounds = .waiting c')
    (answered : c'.answer library line = some c'') (lines : List (Option String)) :
    c.interact library rounds (some line :: lines) = c''.interact library rounds lines := by
  rw [interact, waiting, List.foldl_cons, Progress.step, answered, interact]

/-- The console of an interactive run when its first round has been started. -/
def Console.welcome (c : Console) : Console := (c.sayAll helpLines).start

/-- The whole interactive run. -/
def Console.interactiveRun (c : Console) (library : Library) (rounds : UInt32)
    (lines : List (Option String)) : Ending × Console :=
  c.welcome.interact library rounds lines

end Roshambo
