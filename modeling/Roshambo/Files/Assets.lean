import Roshambo.Authoring.Typed
import Roshambo.Encoding.Rule
import Roshambo.Encoding.Setup
import Roshambo.Files.Entry
import Roshambo.Json.Parse
import Roshambo.Rule.Findings
import Roshambo.Rule.Library

/-!
# Loading assets

An assets directory holds the setup of a round, which may be missing, and a directory of rule
files. Rules with problems are loaded all the same, and every problem becomes a warning that names
its file; only a file that cannot be read or parsed stops the load. `nodup_names_add` says that
loaded names stay pairwise distinct.
-/
namespace Roshambo

inductive LoadError where
  | missing (path : String)
  | read (path : String)
  | parse (path : String)
  deriving DecidableEq

def LoadError.message : LoadError → String
  | missing path => "missing " ++ path
  | read path => "read " ++ path
  | parse path => "parse " ++ path

/-- The text of a file in UTF-8. -/
def readText (files : Files) (path : String) : Except LoadError String :=
  match files path with
  | .file bytes =>
    match String.fromUTF8? bytes with
    | some text => .ok text
    | none => .error (.read path)
  | _ => .error (.read path)

/-- The value of a JSON file according to a reading of values. -/
def readJson {α : Type} (files : Files) (path : String) (read : Json.Value → Option α) :
    Except LoadError α := do
  match (Json.parse? (← readText files path)).bind read with
  | some a => .ok a
  | none => .error (.parse path)

/-- The normalized setup; the standard one if there is no file. -/
def loadSetup (files : Files) (path : String) : Except LoadError RoundSetup :=
  match files path with
  | .missing => .ok .standard
  | _ => do
    let setup : RoundSetup ← readJson files path Json.decode?
    return setup.normalized

def readRuleFile (files : Files) (path : String) : Except LoadError (List AuthoredRule) :=
  readJson files path decodeRuleFile?

/-- Rules loaded so far, and the warnings about them. -/
structure LoadedRules where
  rules : List Rule := []
  warnings : List String := []
  deriving DecidableEq

namespace LoadedRules

def library (l : LoadedRules) : Library := ⟨l.rules⟩

def names (l : LoadedRules) : List String := l.rules.map (·.name)

def warn (l : LoadedRules) (path : String) (warnings : List String) : LoadedRules :=
  { l with warnings := l.warnings ++ warnings.map fun w => path ++ ": " ++ w }

@[simp] theorem names_warn (l : LoadedRules) (path : String) (warnings : List String) :
    (l.warn path warnings).names = l.names := rfl

/-- One authored rule of a file. A rule without a name is skipped, and one whose name is taken is
ignored; any other is loaded. -/
def add (path : String) (l : LoadedRules) (raw : AuthoredRule) : LoadedRules :=
  let (rule, warnings) := raw.typed
  if (Text.trim raw.name).isEmpty then l.warn path ["rule without a name skipped"]
  else if l.names.contains rule.name then
    l.warn path ["duplicate rule `" ++ rule.name ++ "` ignored"]
  else
    let l := l.warn path (warnings ++ rule.findings.map Diagnostic.text)
    { l with rules := l.rules ++ [rule] }

theorem nodup_names_add {l : LoadedRules} (h : l.names.Nodup) (path : String)
    (raw : AuthoredRule) : (l.add path raw).names.Nodup := by
  simp only [add]
  split
  · rwa [names_warn]
  · split
    · rwa [names_warn]
    · rename_i hc
      rw [List.contains_iff_mem] at hc
      simp only [names, warn, List.map_append, List.map_cons, List.map_nil] at h hc ⊢
      refine List.nodup_append.2 ⟨h, by simp, ?_⟩
      intro a ha b hb
      rw [List.mem_singleton.1 hb]
      rintro rfl
      exact hc ha

end LoadedRules

/-- The names of rule files in a directory, in ascending order. -/
def ruleFileNames (names : List String) : List String :=
  (names.filter (Path.extension? · == some "json")).mergeSort fun a b => !decide (b < a)

/-- All rules of a directory, file after file. -/
def loadRuleFiles (files : Files) (dir : String) : Except LoadError LoadedRules :=
  match files dir with
  | .directory names =>
    (ruleFileNames names).foldlM (fun l name => do
      let path := Path.join dir name
      return (← readRuleFile files path).foldl (LoadedRules.add path) l) {}
  | _ => .error (.missing dir)

/-- Everything that play needs. -/
structure Assets where
  setup : RoundSetup
  rules : LoadedRules

def loadAssets (files : Files) (dir : String) : Except LoadError Assets := do
  let setup ← loadSetup files (Path.join dir "round.json")
  let rules ← loadRuleFiles files (Path.join dir "rules")
  return ⟨setup, rules⟩

end Roshambo
