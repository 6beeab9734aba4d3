import Roshambo.Round.Table

/-!
# Dealt hands

A dealt hand is a shuffle of its guaranteed cards, as many as fit, and of random cards up to its
size. Of guarantees that do not fit, scissors are the first to go, then papers, then rocks. That is
the order in which a setup is normalized as well, so a normalized setup deals the hands that it
would deal as it stands.
-/
namespace Roshambo

namespace HandSetup

/-- How many guaranteed cards there are beyond the size of the hand, without bound. -/
def surplus (h : HandSetup) : Nat := h.guaranteedSum - h.size.toNat

/-- What stays of each guarantee when the surplus goes, from scissors first, then from paper, then
from rock. -/
def kept (h : HandSetup) : Choice → Nat
  | .rock => h.rock.toNat - (h.surplus - h.scissors.toNat - h.paper.toNat)
  | .paper => h.paper.toNat - (h.surplus - h.scissors.toNat)
  | .scissors => h.scissors.toNat - h.surplus

variable {h : HandSetup}

theorem kept_of_fits (fits : h.guaranteedSum ≤ h.size.toNat) (choice : Choice) :
    h.kept choice = (h.guaranteed choice).toNat := by
  have none : h.surplus = 0 := Nat.sub_eq_zero_of_le fits
  cases choice <;> simp [kept, none, guaranteed]

/-- The cut of a normalized setup is the part of the whole cut that is still to be made. -/
theorem kept_normalized (h : HandSetup) :
    h.normalized.kept = kept { h with size := h.normalized.size } := by
  obtain ⟨scissors, paper, rock⟩ := h.toNat_normalized
  -- Normalizing cuts what a word can sum up, and dealing cuts the rest.
  have whole : surplus { h with size := h.normalized.size } =
      min h.guaranteedSum (UInt32.size - 1) - h.normalized.size.toNat + h.normalized.surplus := by
    have word := h.normalized.size.toNat_lt
    show h.guaranteedSum - _ = _ + (h.normalized.guaranteedSum - _)
    rw [h.guaranteedSum_normalized]
    simp only [UInt32.size]
    omega
  generalize min h.guaranteedSum (UInt32.size - 1) - h.normalized.size.toNat = excess
    at scissors paper rock whole
  funext choice
  cases choice <;> simp only [kept, whole, scissors, paper, rock] <;> omega

/-- The guaranteed cards of a hand are those that the cut leaves. -/
theorem sureCards_eq (h : HandSetup) :
    h.sureCards = Choice.all.flatMap fun choice => List.replicate (h.kept choice) choice := by
  -- Each choice takes what room the choices before it leave.
  have rock : min h.size.toNat (min h.rock.toNat h.size.toNat) = h.kept .rock := by
    simp only [kept, surplus, guaranteedSum]
    omega
  have paper : min (h.size.toNat - min h.rock.toNat h.size.toNat)
      (min h.paper.toNat h.size.toNat) = h.kept .paper := by
    simp only [kept, surplus, guaranteedSum]
    omega
  have scissors : min (h.size.toNat - min h.rock.toNat h.size.toNat -
      min h.paper.toNat h.size.toNat) (min h.scissors.toNat h.size.toNat) = h.kept .scissors := by
    simp only [kept, surplus, guaranteedSum]
    omega
  simp only [sureCards, Choice.all, List.flatMap_cons, List.flatMap_nil, List.append_nil,
    List.take_append, List.take_replicate, List.length_replicate, guaranteed, rock, paper, scissors]

theorem length_sureCards (h : HandSetup) :
    h.sureCards.length = min h.guaranteedSum h.size.toNat := by
  simp only [sureCards_eq, Choice.all, List.flatMap_cons, List.flatMap_nil, List.length_append,
    List.length_replicate, List.length_nil, kept, surplus, guaranteedSum]
  omega

theorem count_sureCards (h : HandSetup) (choice : Choice) :
    h.sureCards.count choice = h.kept choice := by
  rw [sureCards_eq]
  cases choice <;> simp [Choice.all, List.count_replicate]

end HandSetup

/-- What can be said of a dealt hand without knowing the random words. -/
structure HandSetup.Deals (h : HandSetup) (hand : List Choice) : Prop where
  size : hand.length = h.size.toNat
  guaranteed : h.guaranteedSum ≤ h.size.toNat →
    ∀ choice, (h.guaranteed choice).toNat ≤ hand.count choice
  /-- Guarantees that leave no room for a random card settle which cards there are. -/
  cut : h.size.toNat ≤ h.guaranteedSum →
    hand.Perm (Choice.all.flatMap fun choice => List.replicate (h.kept choice) choice)

/-- A dealt hand is its guaranteed cards and random ones, in some order. -/
theorem dealHand_perm (g : Generator) (h : HandSetup) :
    (dealHand g h).1.Perm
      (h.sureCards ++ (drawCards (h.size.toNat - h.sureCards.length) g).1) :=
  Generator.shuffle_perm _ _

theorem deals_dealHand (g : Generator) (h : HandSetup) : h.Deals (dealHand g h).1 := by
  have dealt := dealHand_perm g h
  refine ⟨length_dealHand g h, fun fits choice => ?_, fun full => ?_⟩
  · rw [dealt.count_eq, List.count_append, h.count_sureCards, HandSetup.kept_of_fits fits]
    exact Nat.le_add_right _ _
  · have room : h.size.toNat - h.sureCards.length = 0 := by
      rw [h.length_sureCards]
      omega
    rw [room, drawCards, List.append_nil] at dealt
    exact h.sureCards_eq ▸ dealt

/-- Only the size of a hand has to be normalized before it is dealt. -/
theorem dealHand_normalized (g : Generator) (h : HandSetup) :
    dealHand g h.normalized = dealHand g { h with size := h.normalized.size } := by
  have same : h.normalized.sureCards = HandSetup.sureCards { h with size := h.normalized.size } := by
    rw [HandSetup.sureCards_eq, HandSetup.sureCards_eq, h.kept_normalized]
  simp only [dealHand, same]

/-- Every hand has its size and the guaranteed cards that fit, and normalizing its setup, which cuts
the guarantees in the same order, changes no card of it. -/
theorem hands_dealt (g : Generator) (h : HandSetup) :
    h.Deals (dealHand g h).1 ∧
      dealHand g h.normalized = dealHand g { h with size := h.normalized.size } :=
  ⟨deals_dealHand g h, dealHand_normalized g h⟩

example : Choice.all.map (HandSetup.kept ⟨4, 2, 3, 2⟩) = [2, 2, 0] := by decide

end Roshambo
