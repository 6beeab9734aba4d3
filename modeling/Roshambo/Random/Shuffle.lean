import Roshambo.Random.Generator

/-!
# Shuffling and sampling

From the last position down to the second, each item trades places with one drawn from those up
to and including itself. `shuffle_perm` says that the result has the same items, and
`sample_length` how many a sample has.
-/
namespace Roshambo.Generator

variable {α : Type}

/-- Settles the positions `last`, `last - 1`, … 1 of the items. -/
def settle : (last : Nat) → Array α → Generator → Array α × Generator
  | 0, items, g => (items, g)
  | last + 1, items, g =>
    let (partner, g) := g.index (last + 2)
    settle last (items.swapIfInBounds (last + 1) partner) g

def shuffle (g : Generator) (items : List α) : List α × Generator :=
  let (settled, g) := settle (items.length - 1) items.toArray g
  (settled.toList, g)

/-- Up to `count` entries of the pool at distinct places, in random order. -/
def sample (g : Generator) (pool : List α) (count : Nat) : List α × Generator :=
  let (shuffled, g) := g.shuffle pool
  (shuffled.take count, g)

theorem settle_perm (last : Nat) (items : Array α) (g : Generator) :
    (settle last items g).1.Perm items := by
  induction last generalizing items g with
  | zero => exact Array.Perm.refl _
  | succ last ih =>
    refine (ih _ _).trans ?_
    unfold Array.swapIfInBounds
    split
    · split
      · exact Array.swap_perm _ _
      · exact Array.Perm.refl _
    · exact Array.Perm.refl _

theorem shuffle_perm (g : Generator) (items : List α) : (g.shuffle items).1.Perm items := by
  have h := settle_perm (items.length - 1) items.toArray g
  simpa [shuffle, Array.perm_iff_toList_perm] using h

theorem shuffle_length (g : Generator) (items : List α) :
    (g.shuffle items).1.length = items.length :=
  (g.shuffle_perm items).length_eq

theorem sample_length (g : Generator) (pool : List α) (count : Nat) :
    (g.sample pool count).1.length = min count pool.length := by
  simp [sample, shuffle_length]

theorem sample_nodup (g : Generator) {pool : List α} (h : pool.Nodup) (count : Nat) :
    (g.sample pool count).1.Nodup :=
  ((g.shuffle_perm pool).nodup_iff.2 h).sublist (List.take_sublist _ _)

theorem mem_of_mem_sample {g : Generator} {pool : List α} {count : Nat} {a : α}
    (h : a ∈ (g.sample pool count).1) : a ∈ pool :=
  (g.shuffle_perm pool).mem_iff.1 (List.mem_of_mem_take h)

end Roshambo.Generator
