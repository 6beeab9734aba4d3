import Roshambo.Rule.Basic

/-!
# Diagnostics

Findings about a rule that do not stop it from being loaded or evaluated: tags that could not be
understood, tags that are missing, and operations that the host does not offer.
-/
namespace Roshambo

inductive Problem where
  | tag (problem : TagProblem)
  | notOffered (operation : String)
  | noTags
  | noTiming
  deriving DecidableEq

def Problem.message : Problem → String
  | tag problem => problem.message
  | notOffered operation => "host cannot " ++ operation
  | noTags => "no tags defined"
  | noTiming => "no timing tag"

structure Diagnostic where
  rule : String
  role : Option TagRole
  problem : Problem
  deriving DecidableEq

namespace Diagnostic

/-- The rule, then the role of the tag if it is known, then the problem. -/
def text (d : Diagnostic) : String :=
  match d.role with
  | some role => d.rule ++ ": " ++ role.name ++ " " ++ d.problem.message
  | none => d.rule ++ ": " ++ d.problem.message

def ofInvalid (rule : String) (tag : InvalidTag) : Diagnostic :=
  ⟨rule, tag.role, .tag tag.problem⟩

def notOffered (rule : String) (role : TagRole) (operation : String) : Diagnostic :=
  ⟨rule, some role, .notOffered operation⟩

end Diagnostic

end Roshambo
