import Roshambo.Proofs.Pass.Frame
import Roshambo.Round.Table

/-!
# Tables under a pass

Rules add cards or turn them over, and never take one away: under a pass, and while the plan is
settled after it, both hands only grow, up to the limit for hands, and the counters and the score
stay as they are. A pass with closed hands leaves nothing on the table but lines.
-/
namespace Roshambo

namespace Table

/-- Both hands hold at least as many cards as before, and no more than the limit if they grew. -/
structure Grows (t t' : Table) : Prop where
  setup : t'.setup = t.setup
  turn : t'.turn = t.turn
  total : t'.total = t.total
  rerolls : t'.rerolls = t.rerolls
  keeps : ∀ side, (t.hand side).length ≤ (t'.hand side).length
  bounded : ∀ side, (t'.hand side).length ≤ max handLimit (t.hand side).length

namespace Grows

theorem refl (t : Table) : t.Grows t :=
  ⟨rfl, rfl, rfl, rfl, fun _ => Nat.le_refl _, fun _ => Nat.le_max_right _ _⟩

theorem trans {t₁ t₂ t₃ : Table} (h : t₁.Grows t₂) (h' : t₂.Grows t₃) : t₁.Grows t₃ where
  setup := h'.setup.trans h.setup
  turn := h'.turn.trans h.turn
  total := h'.total.trans h.total
  rerolls := h'.rerolls.trans h.rerolls
  keeps side := Nat.le_trans (h.keeps side) (h'.keeps side)
  bounded side := by
    have first := h.bounded side
    have second := h'.bounded side
    omega

end Grows

theorem grows_of_length {t t' : Table}
    (same : t' = { t with
      player := t'.player, opponent := t'.opponent, random := t'.random
      planOffset := t'.planOffset, shown := t'.shown })
    (length : ∀ side, (t'.hand side).length = (t.hand side).length) : t.Grows t' := by
  refine ⟨by rw [same], by rw [same], by rw [same], by rw [same], ?_, ?_⟩
  · intro side
    exact Nat.le_of_eq (length side).symm
  · intro side
    exact length side ▸ Nat.le_max_right _ _

theorem grows_showInfo (t : Table) (text : String) : t.Grows (t.showInfo text) :=
  grows_of_length rfl fun side => by cases side <;> rfl

theorem grows_movePlan (t : Table) (delta : Int64) : t.Grows (t.movePlan delta).2 :=
  grows_of_length rfl fun side => by cases side <;> rfl

theorem grows_replaceOthers (t : Table) (choice : Choice) (count : UInt32) :
    t.Grows (t.replaceOthers choice count).2 := by
  refine grows_of_length rfl fun side => ?_
  cases side
  · rfl
  · exact length_replaceAt _ _ _

theorem grows_replaceRandomly (t : Table) (choice : Choice) (count : UInt32) :
    t.Grows (t.replaceRandomly choice count).2 := by
  refine grows_of_length rfl fun side => ?_
  cases side
  · rfl
  · exact length_replaceAt _ _ _

/-- Cards that fit into the room of a hand are put at its end. -/
theorem grows_append (t : Table) (side : Side) (wanted : UInt32) (cards : List Choice)
    (fits : cards.length = t.roomFor side wanted) (random : Generator) :
    t.Grows { t.setHand side (t.hand side ++ cards) with random := random } := by
  have room : cards.length ≤ handLimit - (t.hand side).length := by
    rw [fits]
    exact Nat.min_le_right _ _
  refine ⟨by cases side <;> rfl, by cases side <;> rfl, by cases side <;> rfl,
    by cases side <;> rfl, ?_, ?_⟩
  · intro other
    cases side <;> cases other <;> simp [setHand, hand]
  · intro other
    cases side <;> cases other <;> simp only [setHand, hand, List.length_append] at room ⊢ <;> omega

theorem grows_addCards (t : Table) (side : Side) (choice : Choice) (count : UInt32) :
    t.Grows (t.addCards side choice count).2 := by
  have h := t.grows_append side count (List.replicate (t.roomFor side count) choice) (by simp) t.random
  cases side <;> exact h

theorem grows_addRandomCards (t : Table) (side : Side) (count : UInt32) :
    t.Grows (t.addRandomCards side count).2 :=
  t.grows_append side count _ (length_drawCards _ _) _

theorem grows_changeHands (t : Table) (effect : Effect) :
    t.Grows (Table.host.changeHands effect t) := by
  cases effect with
  | replaceOpponentCards choice count =>
    cases choice
    · exact t.grows_replaceOthers .rock count
    · exact t.grows_replaceRandomly .paper count
    · exact t.grows_replaceRandomly .scissors count
  | addCards side choice count => exact t.grows_addCards side choice count
  | addRandomCards side count => exact t.grows_addRandomCards side count
  | _ => exact .refl t

end Table

namespace Referee

variable (ref : Referee) (pass : Pass) (handsOpen : Bool) (ctx : Context) (t : Table)

theorem grows_evaluate : t.Grows (ref.evaluate ⟨Table.host, pass, handsOpen⟩ ctx t).host :=
  ref.host_evaluate _ ctx t (.refl t)
    (fun _ effect state _ grown => grown.trans (state.grows_changeHands effect))
    (fun state text grown => grown.trans (state.grows_showInfo text))

/-- While hands are closed, a pass leaves only lines on the table. -/
theorem host_evaluate_closed :
    ∃ lines, (ref.evaluate ⟨Table.host, pass, false⟩ ctx t).host = { t with shown := lines } := by
  refine ref.host_evaluate _ ctx t (R := fun state => ∃ lines, state = { t with shown := lines })
    ⟨t.shown, rfl⟩ (fun isOpen => absurd isOpen Bool.false_ne_true) ?_
  rintro state text ⟨lines, rfl⟩
  exact ⟨lines ++ [text], rfl⟩

theorem grows_settlePlan (again : Bool) (r : PassResult Table) :
    r.host.Grows (settlePlan Table.host again r).host := by
  by_cases due : r.referee.tally.due = 0
  · simp only [settlePlan, if_pos due]
    exact .refl _
  · simp only [settlePlan, if_neg due]
    exact r.host.grows_movePlan _

theorem grows_prepareRound (again : Bool) :
    t.Grows (ref.prepareRound Table.host again ctx t).host :=
  (grows_evaluate _ _ _ ctx t).trans (grows_settlePlan again _)

theorem grows_openRound (initial : Bool) :
    t.Grows (ref.openRound Table.host initial ctx t).host :=
  grows_evaluate _ _ _ ctx t

end Referee

end Roshambo
