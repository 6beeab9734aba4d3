import Roshambo.Rule.Basic

/-!
# The library of rules

All loaded rules in order. A rule is found by its exact name, or failing that by its keyword, so a
loose spelling never hides a rule whose name is given exactly.
-/
namespace Roshambo

structure Library where
  rules : List Rule
  deriving DecidableEq

namespace Library

def names (library : Library) : List String := library.rules.map (·.name)

/-- The rule of exactly this name, else the first rule whose name has the same keyword. -/
def find? (library : Library) (name : String) : Option Rule :=
  match library.rules.find? (·.name == name) with
  | some rule => some rule
  | none => library.rules.find? (Text.keyword ·.name == Text.keyword name)

/-- A name selected from a list, as written between the commas. -/
def selectionNames (names : String) : List String :=
  ((Text.commaPieces names).map Text.trim).filter (!·.isEmpty)

/-- The rules that a comma separated list names, in its order; or the first name without a rule. -/
def select (library : Library) (names : String) : Except String (List Rule) :=
  (selectionNames names).mapM fun name =>
    match library.find? name with
    | some rule => .ok rule
    | none => .error name

end Library

end Roshambo
