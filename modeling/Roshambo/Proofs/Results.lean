import Mathlib.Data.List.Forall2

/-!
# Results that may fail

What it takes for a chain of steps to succeed, and where reading a list from the front stops:
`mapM_eq_ok_iff` and `mapM_eq_error_iff`.
-/
namespace Roshambo

variable {ε α β : Type} {result : Except ε α}

theorem bind_eq_ok_iff {f : α → Except ε β} {made : β} :
    result >>= f = .ok made ↔ ∃ a, result = .ok a ∧ f a = .ok made := by
  cases result <;> simp [bind, Except.bind]

theorem bind_eq_error_iff {f : α → Except ε β} {e : ε} :
    result >>= f = .error e ↔ result = .error e ∨ ∃ a, result = .ok a ∧ f a = .error e := by
  cases result <;> simp [bind, Except.bind]

theorem map_eq_ok_iff {f : α → β} {made : β} :
    f <$> result = .ok made ↔ ∃ a, result = .ok a ∧ f a = made := by
  cases result <;> simp [Functor.map, Except.map]

theorem exists_map_eq_ok_iff (f : α → β) :
    (∃ made, f <$> result = .ok made) ↔ ∃ a, result = .ok a := by
  cases result <;> simp [Functor.map, Except.map]

/-- A list is read to the end exactly if every member can be read. -/
theorem mapM_eq_ok_iff {f : α → Except ε β} {as : List α} {bs : List β} :
    as.mapM f = .ok bs ↔ List.Forall₂ (fun a b => f a = .ok b) as bs := by
  induction as generalizing bs with
  | nil => cases bs <;> simp [pure, Except.pure]
  | cons a as ih =>
    simp only [List.mapM_cons, bind_eq_ok_iff, List.forall₂_cons_left_iff, ← ih]
    constructor
    · rintro ⟨b, first, bs', rest, made⟩
      cases made
      exact ⟨b, bs', first, rest, rfl⟩
    · rintro ⟨b, bs', first, rest, rfl⟩
      exact ⟨b, first, bs', rest, rfl⟩

/-- A list is read up to the first member that cannot be read. -/
theorem mapM_eq_error_iff {f : α → Except ε β} {as : List α} {e : ε} :
    as.mapM f = .error e ↔ ∃ before a after, as = before ++ a :: after ∧
      (∀ other ∈ before, ∃ b, f other = .ok b) ∧ f a = .error e := by
  induction as with
  | nil => simp [pure, Except.pure]
  | cons a as ih =>
    rw [List.mapM_cons, bind_eq_error_iff]
    constructor
    · rintro (first | ⟨b, first, rest⟩)
      · exact ⟨[], a, as, rfl, by simp, first⟩
      · rcases bind_eq_error_iff.1 rest with failed | ⟨bs, -, made⟩
        · obtain ⟨before, other, after, rfl, read, stop⟩ := ih.1 failed
          exact ⟨a :: before, other, after, rfl, List.forall_mem_cons.2 ⟨⟨b, first⟩, read⟩, stop⟩
        · cases made
    · rintro ⟨before, other, after, split, read, stop⟩
      cases before with
      | nil =>
        obtain ⟨rfl, rfl⟩ := List.cons.inj split
        exact .inl stop
      | cons first before =>
        obtain ⟨rfl, rfl⟩ := List.cons.inj split
        obtain ⟨⟨b, ok⟩, read⟩ := List.forall_mem_cons.1 read
        have failed := ih.2 ⟨before, other, after, rfl, read, stop⟩
        exact .inr ⟨b, ok, bind_eq_error_iff.2 (.inl failed)⟩

end Roshambo
