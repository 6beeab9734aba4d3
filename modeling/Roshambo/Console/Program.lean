import Roshambo.Console.Auto
import Roshambo.Console.Interactive
import Roshambo.Console.Options
import Roshambo.Files.Assets
import Roshambo.Round.Move

/-!
# The program

From arguments, files and input lines to output and exit code. `Opening` is the part before the
first round; a front end that reads its input line by line goes on from there with the same steps.
-/
namespace Roshambo

/-- Why the program fails. -/
inductive Failure where
  | assets (dir : String) (cause : LoadError)
  | unknownRule (name : String)
  | round (cause : Refusal)
  | input
  deriving DecidableEq

def Failure.message : Failure → String
  | assets dir cause => "load assets from " ++ dir ++ ": " ++ cause.message
  | unknownRule name => "unknown rule `" ++ name ++ "`"
  | round cause => cause.message
  | input => "read stdin"

def Failure.output (f : Failure) : Output := .err ("error: " ++ f.message ++ "\n")

def usageLine : String :=
  "rpsjoker [--seed N] [--assets DIR] [--rules a,b,c | --all-rules] [--auto] [--rounds N] [--trace]"

/-- The rules that the options enable from the start. -/
def Options.startingRules (options : Options) (library : Library) :
    Except Failure (List Rule) :=
  if options.allRules then .ok library.rules
  else
    match options.rules with
    | some names => (library.select names).mapError .unknownRule
    | none => .ok []

/-- The program before its first round: the output so far, and the library and the console unless
it is over already. -/
structure Opening where
  printed : List Output
  start : Except (Option Failure) (Library × Console)

/-- The console of a game with the initial rules enabled. -/
def Options.console (options : Options) (setup : RoundSetup) (rules : List Rule) : Console where
  game := (Game.ofSeed setup options.seed).run (rules.map .enable)
  trace := options.trace

/-- Reads the arguments and, unless they ask for help, loads the assets. -/
def opening (args : List String) (files : Files) : Options × Opening :=
  let (ignored, options) := Options.read {} args
  let notices := ignored.map fun line => Output.err (line ++ "\n")
  if options.help then (options, ⟨notices ++ [.out (usageLine ++ "\n")], .error none⟩)
  else
    match loadAssets files options.assets with
    | .error cause =>
      let failure := Failure.assets options.assets cause
      (options, ⟨notices ++ [failure.output], .error (some failure)⟩)
    | .ok assets =>
      let warnings := assets.rules.warnings.map fun w => Output.err ("rule warning: " ++ w ++ "\n")
      match options.startingRules assets.rules.library with
      | .error failure =>
        (options, ⟨notices ++ warnings ++ [failure.output], .error (some failure)⟩)
      | .ok rules =>
        (options,
          ⟨notices ++ warnings, .ok (assets.rules.library, options.console assets.setup rules)⟩)

/-- What a run prints and its exit code. -/
structure RunResult where
  code : UInt32
  printed : List Output
  deriving DecidableEq

/-- The end of a run: a failure is printed last and shows in the exit code. -/
def RunResult.ofEnd (printed : List Output) (failure : Option Failure) : RunResult :=
  match failure with
  | some f => ⟨1, printed ++ [f.output]⟩
  | none => ⟨0, printed⟩

/-- Why an interactive run that ended so has failed, if it has. -/
def Ending.failure? : Ending → Option Failure
  | closed => none
  | unreadable => some .input

/-- Plays all rounds automatically: why that failed, if it did, and the console in the end. -/
def Console.autoPlay (c : Console) (rounds : UInt32) : Option Failure × Console :=
  match c.autoRun rounds with
  | (.ok (), c) => (none, c)
  | (.error e, c) => (some (.round e), c)

/-- The whole program over given input lines; a line that is no text is nothing. -/
def run (args : List String) (files : Files) (lines : List (Option String)) : RunResult :=
  let (options, opening) := opening args files
  match opening.start with
  | .error none => ⟨0, opening.printed⟩
  | .error (some _) => ⟨1, opening.printed⟩
  | .ok (library, console) =>
    if options.auto then
      let (failure, c) := console.autoPlay options.rounds
      .ofEnd (opening.printed ++ c.printed.toList) failure
    else
      let (ending, c) := console.interactiveRun library options.rounds lines
      .ofEnd (opening.printed ++ c.printed.toList) ending.failure?

end Roshambo
