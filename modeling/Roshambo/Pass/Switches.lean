/-!
# Draw order and hand gate

Two small switches that outlive a pass. The draw order decides whether the opponent's next card
comes from the front of its hand: always in this round, or once after a reveal, so that a revealed
card is the one drawn. The hand gate lets the rules change hands once more after a reroll.
-/
namespace Roshambo

structure DrawOrder where
  always : Bool := false
  once : Bool := false
  deriving DecidableEq

namespace DrawOrder

def keepFront (p : DrawOrder) : DrawOrder := { p with always := true }

def frontOnce (p : DrawOrder) : DrawOrder := { p with once := true }

/-- Whether the next card comes from the front. A decision that the switch for the round does not
make uses up the switch for one card. -/
def next (p : DrawOrder) : Bool × DrawOrder :=
  if p.always then (true, p) else (p.once, { p with once := false })

theorem next_fst (p : DrawOrder) : p.next.1 = (p.always || p.once) := by
  unfold next; cases p.always <;> rfl

end DrawOrder

/-- Open after a reroll until the next round-start pass is over. -/
structure HandGate where
  isOpen : Bool := false
  deriving DecidableEq

namespace HandGate

def opened : HandGate := ⟨true⟩

def closed : HandGate := ⟨false⟩

end HandGate

end Roshambo
