import Mathlib.Data.List.Basic
import Roshambo.Proofs.Console.Auto

/-!
# The best card to play

Automatic play goes through the choices by how many cards of each the opponent holds, and plays the
first that it can beat. Sorting is stable, so choices of equal counts stay in their usual order
(`pairwise_targets`). Every choice beats exactly one other: the card found beats the most cards that
a card of the hand can beat (`bestCounter_eq_some_iff`), and in a hand that has a card one is found
without the first card to fall back on (`bestCounter_eq_find?`).
-/
namespace Roshambo

theorem Choice.exists_beats (c : Choice) : ∃ target, c.beats target = true := by
  cases c
  · exact ⟨scissors, rfl⟩
  · exact ⟨rock, rfl⟩
  · exact ⟨paper, rfl⟩

theorem Choice.counter_injective {a b : Choice} (same : a.counter = b.counter) : a = b := by
  cases a <;> cases b <;> first | rfl | cases same

/-! ## The order of the targets -/

/-- Two elements of a list without duplicates stand in one order only. -/
theorem not_sublist_swap {α : Type} {l : List α} (nodup : l.Nodup) {a b : α}
    (inOrder : [a, b].Sublist l) : ¬ [b, a].Sublist l := by
  induction l with
  | nil => simp at inOrder
  | cons c l ih =>
    obtain ⟨fresh, nodup⟩ := List.nodup_cons.1 nodup
    intro swapped
    rcases List.cons_sublist_cons'.1 inOrder with first | ⟨rfl, first⟩
    · rcases List.cons_sublist_cons'.1 swapped with second | ⟨rfl, -⟩
      · exact ih nodup first second
      · exact fresh (first.subset (by simp))
    · rcases List.cons_sublist_cons'.1 swapped with second | ⟨rfl, -⟩
      · exact fresh (second.subset (by simp))
      · exact fresh (first.subset (by simp))

/-- The choice `a` is aimed at before `b`: the opponent holds more of it, or as many and it comes
first in the usual order. -/
def AimedBefore (counts : CardCounts) (a b : Choice) : Prop :=
  counts.get b < counts.get a ∨
    counts.get b = counts.get a ∧ Choice.all.idxOf a < Choice.all.idxOf b

theorem mem_targets (counts : CardCounts) (c : Choice) : c ∈ targets counts :=
  (List.mergeSort_perm _ _).mem_iff.2 c.mem_all

theorem pairwise_targets (counts : CardCounts) :
    (targets counts).Pairwise (AimedBefore counts) := by
  have trans : ∀ a b c : Choice, decide (counts.get b ≤ counts.get a) = true →
      decide (counts.get c ≤ counts.get b) = true → decide (counts.get c ≤ counts.get a) = true := by
    intro a b c ab bc
    simp only [decide_eq_true_eq] at ab bc ⊢
    exact UInt32.le_trans bc ab
  have total : ∀ a b : Choice,
      (decide (counts.get b ≤ counts.get a) || decide (counts.get a ≤ counts.get b)) = true := by
    intro a b
    simp only [Bool.or_eq_true, decide_eq_true_eq]
    exact UInt32.le_total _ _
  have sorted := List.pairwise_mergeSort trans total Choice.all
  have nodup : (targets counts).Nodup := (List.mergeSort_perm _ _).nodup_iff.2 (by decide)
  rw [List.pairwise_iff_forall_sublist]
  intro a b inOrder
  have most : counts.get b ≤ counts.get a := by
    simpa using List.pairwise_iff_forall_sublist.1 sorted inOrder
  by_cases tie : counts.get b = counts.get a
  · -- Were `b` before `a` among all choices, it would still be so among the targets.
    have kept : ¬ [b, a].Sublist Choice.all := fun swapped =>
      not_sublist_swap nodup inOrder
        (List.pair_sublist_mergeSort trans total (by simp [tie]) swapped)
    have distinct : a ≠ b := by
      simpa using List.pairwise_iff_forall_sublist.1 nodup inOrder
    refine .inr ⟨tie, ?_⟩
    revert kept distinct
    cases a <;> cases b <;> decide
  · exact .inl (UInt32.lt_of_le_of_ne most tie)

/-! ## The card that is found -/

/-- The card is the best of the hand against an opponent who holds so many cards of each choice: it
beats the most, and of those that beat as many it beats the first in the usual order. -/
structure BestCard (hand : List Choice) (held : Choice → Nat) (card : Choice) : Prop where
  inHand : card ∈ hand
  most : ∀ other ∈ hand, ∀ s t, card.beats s = true → other.beats t = true → held t ≤ held s
  first : ∀ other ∈ hand, ∀ s t, card.beats s = true → other.beats t = true →
    held t = held s → Choice.all.idxOf s ≤ Choice.all.idxOf t

theorem BestCard.unique {hand : List Choice} {held : Choice → Nat} {card other : Choice}
    (h : BestCard hand held card) (h' : BestCard hand held other) : card = other := by
  obtain ⟨s, beats⟩ := card.exists_beats
  obtain ⟨t, beats'⟩ := other.exists_beats
  have tie : held t = held s :=
    Nat.le_antisymm (h.most other h'.inHand s t beats beats')
      (h'.most card h.inHand t s beats' beats)
  have place : Choice.all.idxOf s = Choice.all.idxOf t :=
    Nat.le_antisymm (h.first other h'.inHand s t beats beats' tie)
      (h'.first card h.inHand t s beats' beats tie.symm)
  have same : s = t := (List.idxOf_inj s.mem_all).1 place
  rw [Choice.eq_counter_of_beats beats, Choice.eq_counter_of_beats beats', same]

variable (hand : List Choice) (counts : CardCounts)

/-- The first card of the hand is never what decides. -/
theorem bestCounter_eq_find? : bestCounter hand counts =
    ((targets counts).map Choice.counter).find? (hand.contains ·) := by
  unfold bestCounter
  split
  · rename_i found
    exact found.symm
  · rename_i none
    have unheld : ∀ c, c ∉ hand := by
      intro c held
      obtain ⟨target, beats⟩ := c.exists_beats
      have answered : c ∈ (targets counts).map Choice.counter := by
        rw [Choice.eq_counter_of_beats beats]
        exact List.mem_map_of_mem (mem_targets counts target)
      exact List.find?_eq_none.1 none c answered (by simpa using held)
    rw [none, List.eq_nil_iff_forall_not_mem.2 unheld]
    rfl

/-- The target of the card played is aimed at before those of all other cards of the hand. -/
theorem aimedBefore_of_bestCounter {card other s t : Choice}
    (played : bestCounter hand counts = some card) (held : other ∈ hand)
    (beats : card.beats s = true) (beats' : other.beats t = true) :
    s = t ∨ AimedBefore counts s t := by
  rw [bestCounter_eq_find?, List.find?_eq_some_iff_append] at played
  obtain ⟨-, before, after, split, unheld⟩ := played
  obtain ⟨earlier, rest, cut, rfl, later⟩ := List.map_eq_append_iff.1 split
  obtain ⟨target, rest, rfl, answer, -⟩ := List.map_eq_cons_iff.1 later
  obtain rfl : target = s :=
    Choice.counter_injective (answer.trans (Choice.eq_counter_of_beats beats))
  have among : t ∈ earlier ++ target :: rest := cut ▸ mem_targets counts t
  rcases List.mem_append.1 among with mem | mem
  · -- What is aimed at earlier is beaten by no card of the hand.
    have skipped := unheld t.counter (List.mem_map_of_mem mem)
    rw [← Choice.eq_counter_of_beats beats'] at skipped
    simp [held] at skipped
  · rcases List.mem_cons.1 mem with rfl | mem
    · exact .inl rfl
    · have order := pairwise_targets counts
      rw [cut] at order
      exact .inr (List.rel_of_pairwise_cons (List.pairwise_append.1 order).2.1 mem)

/-- Automatic play finds the best card of the hand and nothing else. -/
theorem bestCounter_eq_some_iff (card : Choice) : bestCounter hand counts = some card ↔
    BestCard hand (fun c => (counts.get c).toNat) card := by
  have best : ∀ {card}, bestCounter hand counts = some card →
      BestCard hand (fun c => (counts.get c).toNat) card := by
    intro card played
    refine ⟨mem_of_bestCounter played, fun other held s t beats beats' => ?_,
      fun other held s t beats beats' tie => ?_⟩
    · rcases aimedBefore_of_bestCounter hand counts played held beats beats' with
        rfl | more | ⟨tie, -⟩
      · exact Nat.le_refl _
      · exact Nat.le_of_lt (UInt32.lt_iff_toNat_lt.1 more)
      · exact Nat.le_of_eq (congrArg UInt32.toNat tie)
    · rcases aimedBefore_of_bestCounter hand counts played held beats beats' with
        rfl | more | ⟨-, first⟩
      · exact Nat.le_refl _
      · exact absurd tie (Nat.ne_of_lt (UInt32.lt_iff_toNat_lt.1 more))
      · exact Nat.le_of_lt first
  constructor
  · exact best
  · intro h
    have some : bestCounter hand counts ≠ none := by
      rw [ne_eq, bestCounter_eq_none_iff]
      exact List.ne_nil_of_mem h.inHand
    obtain ⟨other, played⟩ := Option.ne_none_iff_exists'.1 some
    rw [played, (best played).unique h]

/-! ## Automatic play -/

/-- What automatic play answers to an opponent's hand, by the cards in it. -/
structure PlaysBest (hand opponent : List Choice) (answer : Option Choice) : Prop where
  none_iff : answer = none ↔ hand = []
  some_iff : ∀ card, answer = some card ↔ BestCard hand (opponent.count ·) card
  /-- The answer is a counter found among the targets, not the first card of the hand. -/
  unaided : answer =
    ((targets (.ofHand opponent)).map Choice.counter).find? (hand.contains ·)

theorem playsBest_of_countable {opponent : List Choice}
    (countable : ∀ c, opponent.count c < UInt32.size) :
    PlaysBest hand opponent (bestCounter hand (.ofHand opponent)) := by
  have exactly : ∀ c, ((CardCounts.ofHand opponent).get c).toNat = opponent.count c := by
    intro c
    rw [CardCounts.get_ofHand, UInt32.toNat_ofNat_of_lt' (countable c)]
  refine ⟨bestCounter_eq_none_iff _ _, fun card => ?_, bestCounter_eq_find? _ _⟩
  rw [bestCounter_eq_some_iff, funext exactly]

/-- In every game that can be reached automatic play plays the best card of the hand, and so it does
with any hand against any other whose cards words can count. -/
theorem plays_best_card :
    (∀ (config : RoundSetup) (g : Game), Game.Reached config g →
      PlaysBest g.table.player g.table.opponent g.autoChoice) ∧
    ∀ hand opponent : List Choice, (∀ c, opponent.count c < UInt32.size) →
      PlaysBest hand opponent (bestCounter hand (.ofHand opponent)) := by
  refine ⟨fun config g reached => ?_, fun hand opponent => playsBest_of_countable hand⟩
  have small : g.table.opponent.length < UInt32.size := reached.sound.length_lt .opponent
  exact playsBest_of_countable _ fun c => Nat.lt_of_le_of_lt List.count_le_length small

/-- The opponent holds two papers and two scissors. Scissors, which beat paper, are played before
rock, which stands first in the hand and beats as many. -/
theorem plays_best_card_tie :
    let g := (Game.ofSeed .standard 7).run [.start]
    let hand : List Choice := [.rock, .scissors]
    let opponent : List Choice := [.scissors, .paper, .rock, .scissors, .paper]
    (Game.Reached .standard g ∧ g.table.player ≠ [] ∧ g.autoChoice ≠ none) ∧
      (∀ c, opponent.count c < UInt32.size) ∧
      bestCounter hand (.ofHand opponent) = some .scissors := by
  intro g hand opponent
  have reached : Game.Reached .standard g := (Game.Reached.ofSeed 7).run _
  have dealt : g.table.player ≠ [] := by decide +kernel
  have countable : ∀ c, opponent.count c < UInt32.size := by
    intro c
    cases c <;> decide
  have best : BestCard hand (opponent.count ·) .scissors := by
    refine ⟨by decide, ?_, ?_⟩
    all_goals
      intro other held s t
      cases s <;> cases t <;> revert other <;> decide
  refine ⟨⟨reached, dealt, ?_⟩, countable, ?_⟩
  · exact mt (plays_best_card.1 _ g reached).none_iff.1 dealt
  · exact ((plays_best_card.2 hand opponent countable).some_iff _).2 best

end Roshambo
