import Roshambo.Card

/-!
# Hosts

The rules act on hands and score through a host. A host is a record of operations over some state:
queries that leave the state alone, and operations that return a new one. An operation that a host
does not offer answers with nothing; a condition that needed the answer fails and an effect that
needed the call does not happen.
-/
namespace Roshambo

structure Host (σ : Type) where
  countOf : σ → Side → Choice → Option UInt32 := fun _ _ _ => none
  firstCard : σ → Side → Option Choice := fun _ _ => none
  /-- The card expected on the last planned turn. -/
  lastCard : σ → Side → Option Choice := fun _ _ => none
  /-- Turns up to `count` opponent cards that differ from the choice into it; answers how many. -/
  replaceOthers : σ → Choice → UInt32 → Option UInt32 × σ := fun s _ _ => (none, s)
  /-- Sets up to `count` opponent cards, picked at random, to the choice; answers how many of
  them changed. -/
  replaceRandomly : σ → Choice → UInt32 → Option UInt32 × σ := fun s _ _ => (none, s)
  addCards : σ → Side → Choice → UInt32 → Option UInt32 × σ := fun s _ _ _ => (none, s)
  addRandomCards : σ → Side → UInt32 → Option UInt32 × σ := fun s _ _ => (none, s)
  /-- Moves the planned number of turns; answers the new plan. -/
  movePlan : σ → Int64 → Option UInt32 × σ := fun s _ => (none, s)
  showInfo : σ → String → σ := fun s _ => s
  total : σ → Int64 := fun _ => 0
  rerolls : σ → UInt32 := fun _ => 0

/-- The host that offers nothing. -/
def Host.detached : Host Unit := {}

end Roshambo
