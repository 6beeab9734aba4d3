import Roshambo.Proofs.Round.Course
import Roshambo.Proofs.Round.Refusals

/-!
# The opponent plays blind

Which card the opponent draws depends on its hand, the generator, the draw order and the rules that
fire at turn start, and the player's choice touches none of these before the draw. Afterwards only a
reveal at settlement can pass anything of the turn on: without rules that reveal the next card, two
courses of a round that differ in what the player plays show the same cards of the opponent.
-/
namespace Roshambo

def Tag.revealsNext : Tag → Bool
  | .effect ⟨.revealNextOpponentCard, _⟩ => true
  | _ => false

/-- Some rule has an effect that reveals the opponent's next card. -/
def ActiveRules.revealsNext (active : ActiveRules) : Bool :=
  active.rules.any fun rule => rule.tags.any Tag.revealsNext

namespace Table

/-- What the opponent's cards are drawn from. -/
def stock (t : Table) : List Choice × Generator := (t.opponent, t.random)

theorem stock_discard (t : Table) (choice : Choice) : (t.discard choice).2.stock = t.stock := by
  unfold discard
  split <;> rfl

/-- Tables with the same stock draw the same card and keep the same stock. -/
theorem drawCard_of_stock {t t' : Table} (same : t.stock = t'.stock) (fromFront : Bool) :
    (t.drawCard fromFront).1 = (t'.drawCard fromFront).1 ∧
      (t.drawCard fromFront).2.stock = (t'.drawCard fromFront).2.stock := by
  obtain ⟨opponent, random⟩ := Prod.mk.inj same
  cases hand : t'.opponent with
  | nil => simp [drawCard, stock, opponent, hand, random]
  | cons first rest => cases fromFront <;> simp [drawCard, stock, opponent, hand, random]

end Table

namespace Referee

/-- An effect that acts stands in a tag of an active rule. -/
theorem mem_acting {σ : Type} {ref : Referee} {setting : PassSetting σ} {ctx : Context} {state : σ}
    {effect : Effect} (mem : effect ∈ ref.acting setting ctx state) :
    ∃ rule ∈ ref.active.rules, ∃ filter, Tag.effect ⟨effect, filter⟩ ∈ rule.tags := by
  obtain ⟨rule, fires, acts⟩ := List.mem_flatMap.1 mem
  obtain ⟨tag, inRule, act⟩ := List.mem_filterMap.1 acts
  refine ⟨rule, (List.mem_filter.1 fires).1, ?_⟩
  cases tag with
  | effect tagged =>
    simp only [Tag.act?] at act
    split at act
    · cases act
      exact ⟨tagged.filter, inRule⟩
    · cases act
  | _ => cases act

/-- Once the round is open, only reveals change the draw order. -/
theorem draw_foldl {pass : Pass} (later : pass ≠ .roundStart true) {effects : List Effect}
    (silent : .revealNextOpponentCard ∉ effects) (draw : DrawOrder) :
    effects.foldl (Effect.drawAfter pass) draw = draw := by
  induction effects generalizing draw with
  | nil => rfl
  | cons effect effects ih =>
    rw [List.mem_cons, not_or] at silent
    have same : effect.drawAfter pass draw = draw := by
      cases effect with
      | revealNextOpponentCard => exact absurd rfl silent.1
      | forceOpponentDrawFromFront enabled => simp [Effect.drawAfter, later]
      | _ => rfl
    rw [List.foldl_cons, same]
    exact ih silent.2 draw

variable (ref : Referee) (ctx : Context)

theorem draw_evaluate_silent {σ : Type} {setting : PassSetting σ} (state : σ)
    (silent : ref.active.revealsNext = false) (closed : setting.handsOpen = false)
    (later : setting.pass ≠ .roundStart true) :
    (ref.evaluate setting ctx state).referee.draw = ref.draw := by
  rw [ref.draw_evaluate_closed ctx state closed]
  refine draw_foldl later (fun reveals => ?_) ref.draw
  obtain ⟨rule, active, filter, mem⟩ := mem_acting reveals
  have loud : ref.active.revealsNext = true :=
    List.any_eq_true.2 ⟨rule, active, List.any_eq_true.2 ⟨_, mem, rfl⟩⟩
  exact absurd (silent.symm.trans loud) (by decide)

theorem stock_evaluate_closed (pass : Pass) (t : Table) :
    (ref.evaluate ⟨Table.host, pass, false⟩ ctx t).host.stock = t.stock := by
  obtain ⟨lines, left⟩ := ref.host_evaluate_closed pass ctx t
  rw [left]
  rfl

end Referee

namespace Game

/-! ## The parts of a turn -/

theorem stock_beginTurn (g : Game) : g.beginTurn.2.table.stock = g.table.stock :=
  g.referee.stock_evaluate_closed _ .turnStart g.table

theorem stock_settleTurn (g : Game) (choice opponent : Choice) :
    (g.settleTurn choice opponent).2.table.stock = g.table.stock :=
  g.referee.stock_evaluate_closed _ .settlement g.table

theorem stock_finish (g : Game) : g.finish.2.table.stock = g.table.stock :=
  g.referee.stock_evaluate_closed _ .roundEnd g.table

/-- The games agree in all that the opponent's cards depend on. -/
structure Alike (g h : Game) : Prop where
  stock : g.table.stock = h.table.stock
  draw : g.referee.draw = h.referee.draw
  active : g.referee.active = h.referee.active

namespace Alike

variable {g h k : Game}

theorem refl (g : Game) : g.Alike g := ⟨rfl, rfl, rfl⟩

theorem symm (alike : g.Alike h) : h.Alike g :=
  ⟨alike.stock.symm, alike.draw.symm, alike.active.symm⟩

theorem trans (first : g.Alike h) (second : h.Alike k) : g.Alike k :=
  ⟨first.stock.trans second.stock, first.draw.trans second.draw,
    first.active.trans second.active⟩

/-- The draw does not look at the card that the player puts down. -/
theorem exchange (alike : g.Alike h) (a b : Choice) :
    (g.exchange a).1 = (h.exchange b).1 ∧ (g.exchange a).2.Alike (h.exchange b).2 := by
  have left : (g.table.discard a).2.stock = (h.table.discard b).2.stock := by
    rw [Table.stock_discard, Table.stock_discard, alike.stock]
  obtain ⟨card, stock⟩ := Table.drawCard_of_stock left h.referee.draw.next.1
  have drawn : (g.exchange a).1 = ((g.table.discard a).2.drawCard h.referee.draw.next.1).1 ∧
      (g.exchange a).2.table.stock =
        ((g.table.discard a).2.drawCard h.referee.draw.next.1).2.stock := by
    rw [← alike.draw]
    exact ⟨rfl, rfl⟩
  refine ⟨drawn.1.trans card, drawn.2.trans stock, ?_, alike.active⟩
  show g.referee.draw.next.2 = h.referee.draw.next.2
  rw [alike.draw]

end Alike

variable {g h : Game}

theorem alike_beginTurn (silent : g.referee.active.revealsNext = false) :
    g.beginTurn.2.Alike g :=
  ⟨g.stock_beginTurn, g.referee.draw_evaluate_silent _ g.table silent rfl (by decide), rfl⟩

theorem alike_settleTurn (silent : g.referee.active.revealsNext = false)
    (choice opponent : Choice) : (g.settleTurn choice opponent).2.Alike g :=
  ⟨g.stock_settleTurn choice opponent,
    g.referee.draw_evaluate_silent _ g.table silent rfl (by decide), rfl⟩

theorem alike_finish (silent : g.referee.active.revealsNext = false) : g.finish.2.Alike g :=
  ⟨g.stock_finish, g.referee.draw_evaluate_silent _ g.table silent rfl (by decide), rfl⟩

/-! ## Whole turns -/

namespace Course

variable {g' paired : Game} {choice : Choice} {record : TurnRecord}

theorem opening (course : g.Course choice record g' paired) :
    record.reports.head? = some g.beginTurn.1 := by
  obtain ⟨settlement, settled, -, closing⟩ := course.closing
  rcases closing with ⟨-, -, -, items⟩ | ⟨-, -, -, items⟩ <;> rw [items] <;> rfl

theorem stock (course : g.Course choice record g' paired) :
    g'.table.stock = paired.table.stock := by
  obtain ⟨settlement, settled, eq, closing⟩ := course.closing
  have kept := paired.stock_settleTurn choice record.opponent
  rw [eq] at kept
  rcases closing with ⟨-, rfl, -, -⟩ | ⟨-, rfl, -, -⟩
  · exact kept
  · exact settled.stock_finish.trans kept

theorem alike (course : g.Course choice record g' paired)
    (silent : g.referee.active.revealsNext = false) : g'.Alike paired := by
  obtain ⟨settlement, settled, eq, closing⟩ := course.closing
  have still : paired.referee.active.revealsNext = false := by
    rw [course.paired_eq]
    exact silent
  have kept := alike_settleTurn still choice record.opponent
  rw [eq] at kept
  rcases closing with ⟨-, rfl, -, -⟩ | ⟨-, rfl, -, -⟩
  · exact kept
  · exact (alike_finish (kept.active ▸ still)).trans kept

end Course

/-- Turns of games that are alike draw the same card and leave games that are alike. -/
theorem Alike.turn {a b : Choice} {r s : TurnRecord} {g' h' p q : Game} (alike : g.Alike h)
    (silent : g.referee.active.revealsNext = false) (first : g.Course a r g' p)
    (second : h.Course b s h' q) : r.opponent = s.opponent ∧ g'.Alike h' := by
  have silent' : h.referee.active.revealsNext = false := alike.active ▸ silent
  have begun := (alike_beginTurn silent).trans (alike.trans (alike_beginTurn silent').symm)
  obtain ⟨card, paired⟩ := begun.exchange a b
  rw [first.drawn, second.drawn] at card paired
  exact ⟨Option.some.inj card,
    (first.alike silent).trans (paired.trans (second.alike silent').symm)⟩

/-- The cards that the opponent draws when the player plays these choices, if no turn is refused. -/
def draws (g : Game) : List Choice → Option (List Choice)
  | [] => some []
  | choice :: choices =>
    match g.play choice with
    | (.ok record, g) => (g.draws choices).map (record.opponent :: ·)
    | (.error _, _) => none

theorem draws_cons {choice : Choice} {choices cards : List Choice}
    (drawn : g.draws (choice :: choices) = some cards) :
    ∃ record g' rest, g.play choice = (.ok record, g') ∧ g'.draws choices = some rest ∧
      cards = record.opponent :: rest := by
  rcases played : g.play choice with ⟨_ | record, g'⟩
  · simp [draws, played] at drawn
  · simp only [draws, played, Option.map_eq_some_iff] at drawn
    obtain ⟨rest, later, eq⟩ := drawn
    exact ⟨record, g', rest, rfl, later, eq.symm⟩

theorem Alike.draws {as bs cards cards' : List Choice} (alike : g.Alike h)
    (silent : g.referee.active.revealsNext = false) (first : g.draws as = some cards)
    (second : h.draws bs = some cards') :
    cards.take cards'.length = cards'.take cards.length := by
  -- The two sequences are walked side by side until the shorter one ends.
  induction as generalizing g h bs cards cards' with
  | nil =>
    cases first
    simp
  | cons a as ih =>
    cases bs with
    | nil =>
      cases second
      simp
    | cons b bs =>
      obtain ⟨r, g', rest, played, later, rfl⟩ := draws_cons first
      obtain ⟨s, h', rest', played', later', rfl⟩ := draws_cons second
      obtain ⟨p, course⟩ := course_of_play played
      obtain ⟨q, course'⟩ := course_of_play played'
      obtain ⟨card, left⟩ := alike.turn silent course course'
      have next : g'.referee.active.revealsNext = false := by
        rw [(course.alike silent).active, course.paired_eq]
        exact silent
      simp [card, ih left next later later']

/-! ## Games that moves lead to -/

/-- Two turns of the same game that are one to the opponent. -/
structure SameDraw (r s : TurnRecord) (g₁ g₂ : Game) : Prop where
  card : r.opponent = s.opponent
  opening : ∃ report, report.phase = .turnStart ∧ r.reports.head? = some report ∧
    s.reports.head? = some report
  hand : g₁.table.opponent = g₂.table.opponent
  random : g₁.table.random = g₂.table.random

/-- The opponent cannot react to what the player plays: not within a turn, and without reveals not
in a later one either. -/
structure Blind (g : Game) : Prop where
  turn : g.stage = .active → ∀ a ∈ g.table.player, ∀ b ∈ g.table.player, ∃ r g₁ s g₂,
    g.play a = (.ok r, g₁) ∧ g.play b = (.ok s, g₂) ∧ SameDraw r s g₁ g₂
  round : g.referee.active.revealsNext = false → ∀ as bs cards cards',
    g.draws as = some cards → g.draws bs = some cards' →
      cards.take cards'.length = cards'.take cards.length

theorem sameDraw {a b : Choice} {r s : TurnRecord} {g₁ g₂ : Game}
    (first : g.play a = (.ok r, g₁)) (second : g.play b = (.ok s, g₂)) : SameDraw r s g₁ g₂ := by
  obtain ⟨p, course⟩ := course_of_play first
  obtain ⟨q, course'⟩ := course_of_play second
  obtain ⟨card, paired⟩ := (Alike.refl g.beginTurn.2).exchange a b
  rw [course.drawn, course'.drawn] at card paired
  have stock := course.stock.trans (paired.stock.trans course'.stock.symm)
  obtain ⟨hand, random⟩ := Prod.mk.inj stock
  exact ⟨Option.some.inj card, ⟨_, rfl, course.opening, course'.opening⟩, hand, random⟩

theorem Sound.exists_play {config : RoundSetup} (sound : g.Sound config)
    (active : g.stage = .active) {choice : Choice} (held : choice ∈ g.table.player) :
    ∃ record g', g.play choice = (.ok record, g') := by
  obtain ⟨record, answer⟩ := (sound.playAnswers choice).ok.2 ⟨active, held⟩
  exact ⟨record, (g.play choice).2, Prod.ext answer rfl⟩

/-- Every game that moves can lead to is blind to the player's choices. -/
theorem blind_run (config : RoundSetup) (seed : UInt64) (moves : List Move) :
    ((ofSeed config seed).run moves).Blind where
  turn := by
    intro active a heldA b heldB
    have sound := sound_run config seed moves
    obtain ⟨r, g₁, first⟩ := sound.exists_play active heldA
    obtain ⟨s, g₂, second⟩ := sound.exists_play active heldB
    exact ⟨r, g₁, s, g₂, first, second, sameDraw first second⟩
  round silent _ _ _ _ first second := (Alike.refl _).draws silent first second

/-- Rock or paper, and the two in either order: the opponent's cards are the same. -/
theorem blind_run_two_choices :
    let config : RoundSetup :=
      { RoundSetup.standard with player := ⟨2, 1, 1, 0⟩, opponent := ⟨2, 0, 1, 1⟩ }
    let g := (ofSeed config 5).run [.start]
    (∃ r g₁ s g₂, g.play .rock = (.ok r, g₁) ∧ g.play .paper = (.ok s, g₂) ∧
        SameDraw r s g₁ g₂) ∧
      ∃ cards cards', g.draws [.rock, .paper] = some cards ∧
        g.draws [.paper, .rock] = some cards' ∧ cards.length = 2 ∧ cards'.length = 2 ∧
        cards.take cards'.length = cards'.take cards.length := by
  intro config g
  have blind := blind_run config 5 [.start]
  have active : g.stage = .active := by decide +kernel
  have rock : Choice.rock ∈ g.table.player := by decide +kernel
  have paper : Choice.paper ∈ g.table.player := by decide +kernel
  have first : g.draws [.rock, .paper] = some [.paper, .scissors] := by decide +kernel
  have second : g.draws [.paper, .rock] = some [.paper, .scissors] := by decide +kernel
  have silent : g.referee.active.revealsNext = false := by decide +kernel
  exact ⟨blind.turn active .rock rock .paper paper, _, _, first, second, rfl, rfl,
    blind.round silent _ _ _ _ first second⟩

end Game
end Roshambo
