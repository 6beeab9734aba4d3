import Roshambo.Proofs.Rule.Selection
import Roshambo.Proofs.Text.Separators

/-!
# Names in other spellings

Names are looked up by their keywords, so every table and every library gives the same answer to two
spellings that differ in harmless separators (`separators_ignored`). A library prefers the rule of
exactly the name asked for, which may be another one for each of the spellings; that aside it does
not tell them apart either.
-/
namespace Roshambo

open Text

/-- Every table of names gives the same answer to both texts. -/
structure ReadAlike (s t : String) : Prop where
  choice : Choice.ofKeyword? s = Choice.ofKeyword? t
  outcome : Outcome.ofKeyword? s = Outcome.ofKeyword? t
  phase : Phase.ofKeyword? s = Phase.ofKeyword? t
  role : TagRole.ofKeyword? s = TagRole.ofKeyword? t
  condition : ConditionKind.ofKeyword? s = ConditionKind.ofKeyword? t
  effect : EffectKind.ofKeyword? s = EffectKind.ofKeyword? t
  archetype : Archetype.ofKeyword? s = Archetype.ofKeyword? t

theorem readAlike_of_keyword_eq {s t : String} (same : keyword s = keyword t) : ReadAlike s t where
  choice := lookupKeyword_congr same
  outcome := lookupKeyword_congr same
  phase := lookupKeyword_congr same
  role := lookupKeyword_congr same
  condition := lookupKeyword_congr same
  effect := lookupKeyword_congr same
  archetype := lookupKeyword_congr same

namespace Library

/-- No rule of exactly this name comes behind another with the same keyword. -/
def Unrivalled (library : Library) (name : String) : Prop :=
  ∀ rule, FirstWith library.rules (·.name = name) rule →
    FirstWith library.rules (keyword ·.name = keyword name) rule

theorem find?_of_unrivalled {library : Library} {name : String}
    (unrivalled : library.Unrivalled name) :
    library.find? name = library.rules.find? (keyword ·.name == keyword name) := by
  rw [find?]
  split
  · rename_i rule found
    have first := unrivalled rule (find?_eq_some_iff_firstWith.1 found)
    exact (find?_eq_some_iff_firstWith.2 first).symm
  · rfl

theorem find?_congr {library : Library} {s t : String} (same : keyword s = keyword t)
    (first : library.Unrivalled s) (second : library.Unrivalled t) :
    library.find? s = library.find? t := by
  rw [find?_of_unrivalled first, find?_of_unrivalled second, same]

end Library

/-- A separator that shields nothing may be put anywhere into a name without changing its keyword,
and the keyword of an ASCII name that shields nothing is its own keyword. Such separators make
spellings of each other, among them all names that differ in separators only and shield nothing.
Spellings of each other are the same name to all tables, and to a library too, unless one of them is
exactly the name of a rule that comes behind another with this keyword. -/
theorem separators_ignored :
    (∀ (c : Char) (before after : List Char), isSeparator c = true → Harmless c before after →
      keyword (String.ofList (before ++ c :: after)) = keyword (String.ofList (before ++ after))) ∧
    (∀ s : String, (∀ c ∈ s.toList, c.toNat < 128) → ¬ Shielded s.toList →
      keyword (keyword s) = keyword s) ∧
    (∀ s t : String, letters s.toList = letters t.toList → ¬ Shielded s.toList →
      ¬ Shielded t.toList → Respelled s.toList t.toList) ∧
    ∀ s t : String, Respelled s.toList t.toList →
      ReadAlike s t ∧ ∀ library : Library, library.Unrivalled s → library.Unrivalled t →
        library.find? s = library.find? t := by
  refine ⟨fun c before after separator harmless => ?_, fun s ascii unshielded => ?_,
    fun s t => respelled_of_letters_eq, fun s t respelled => ?_⟩
  · rw [keyword_eq_iff, String.toList_ofList, String.toList_ofList]
    exact (keywordChars_insert_iff separator before after).2 harmless
  · rw [keyword_eq_iff, keyword, String.toList_ofList]
    exact keywordChars_keywordChars ascii unshielded
  · have same : keyword s = keyword t := keyword_eq_iff.2 respelled.keywordChars_eq
    exact ⟨readAlike_of_keyword_eq same, fun library => Library.find?_congr same⟩

/-- A name with a tab in front, one with separators at both ends, and a rule that is found under
another spelling of its name. -/
theorem separators_ignored_big_bet :
    let bet : Rule := { name := "Big Bet", tags := [] }
    let library : Library := ⟨[bet]⟩
    (Harmless '_' "\tBig".toList "Bet".toList ∧
      keyword (String.ofList ("\tBig".toList ++ '_' :: "Bet".toList)) =
        keyword (String.ofList ("\tBig".toList ++ "Bet".toList))) ∧
    keyword (keyword "_Big-Bet ") = keyword "_Big-Bet " ∧
      Respelled "Big Bet".toList "_Big - Bet".toList ∧ library.Unrivalled "_Big - Bet" ∧
      library.find? "_Big - Bet" = some bet := by
  intro bet library
  have harmless : Harmless '_' "\tBig".toList "Bet".toList := by
    simp [Harmless, Shields, isBlank]
  have respelled : Respelled "Big Bet".toList "_Big - Bet".toList :=
    separators_ignored.2.2.1 "Big Bet" "_Big - Bet" (by decide +kernel)
      (not_shielded_of_spaces (by simp [isBlank])) (not_shielded_of_spaces (by simp [isBlank]))
  have unrivalled : ∀ name, keyword bet.name = keyword name → library.Unrivalled name := by
    intro name same rule first
    obtain rfl : rule = bet := List.mem_singleton.1 first.mem.1
    exact ⟨[], [], rfl, same, by simp⟩
  have loose : library.Unrivalled "_Big - Bet" := unrivalled _ (by decide +kernel)
  refine ⟨⟨harmless, separators_ignored.1 '_' _ _ rfl harmless⟩, ?_, respelled, loose, ?_⟩
  · exact separators_ignored.2.1 "_Big-Bet " (by simp) (not_shielded_of_spaces (by simp [isBlank]))
  · have found := (separators_ignored.2.2.2 _ _ respelled).2 library (unrivalled _ rfl) loose
    rw [← found]
    decide +kernel

/-- An underscore keeps a tab in the keyword, which is then no keyword of itself, and the name is
unknown. A rule whose name has an underscore is found by exactly this name, not the rule before it
with the same keyword. -/
theorem separators_not_ignored :
    let rock : Rule := { name := "Rock", tags := [] }
    let split : Rule := { name := "Ro_ck", tags := [] }
    let library : Library := ⟨[rock, split]⟩
    (letters "_\tRock".toList = letters "\tRock".toList ∧
      keyword "_\tRock" ≠ keyword "\tRock" ∧
      keyword (keyword "_\tRock") ≠ keyword "_\tRock" ∧
      Choice.ofKeyword? "\tRock" = some .rock ∧ Choice.ofKeyword? "_\tRock" = none) ∧
    letters "Ro_ck".toList = letters "Rock".toList ∧
      library.find? "Rock" = some rock ∧ library.find? "Ro_ck" = some split := by
  decide +kernel

end Roshambo
