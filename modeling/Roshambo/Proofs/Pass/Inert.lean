import Roshambo.Proofs.Pass.Mirror

/-!
# Rules and tags that do nothing

A rule that cannot fire might as well not be active, and a tag that was not understood, but is no
condition for sure, might as well not be written: `actAlike_of_never_fires` and
`actAlike_of_invalid` hold in every pass, diagnostics apart.
-/
namespace Roshambo

/-! ## Rules that cannot fire -/

theorem actAlike_of_never_fires {rule : Rule}
    (never : ∀ (σ : Type) (host : Host σ) (state : σ) (ctx : Context) (pass : Pass),
      rule.verdict host state ctx pass ≠ .fires) : ActAlike [rule] [] := by
  intro σ setting s
  obtain ⟨_, eq⟩ : ∃ found, setting.applyRule rule s = { s with diagnostics := found } :=
    ⟨_, PassSetting.applyRule_of_not_fires (never σ _ _ _ _)⟩
  refine ⟨s.diagnostics, ?_⟩
  show s = (setting.applyRule rule s).image id s.diagnostics
  rw [eq]
  rfl

/-- A tag that may have been a condition keeps its rule from firing. -/
theorem Rule.verdict_ne_fires_of_mem {σ : Type} {rule : Rule} {bad : InvalidTag}
    (mem : Tag.invalid bad ∈ rule.tags) (blocks : bad.mayBeCondition = true) (host : Host σ)
    (state : σ) (ctx : Context) (pass : Pass) : rule.verdict host state ctx pass ≠ .fires := by
  intro fires
  have allowed := (rule.verdict_eq_fires_iff.1 fires).allowed _ mem
  rw [Tag.allows_invalid, blocks] at allowed
  cases allowed

/-! ## Tags that are no conditions -/

section

variable {σ : Type} {bad : InvalidTag} {front back : List Tag}

theorem verdictOfTags_invalid (skipped : bad.mayBeCondition = false) (host : Host σ) (state : σ)
    (ctx : Context) (pass : Pass) (rule : String) (alternatives : Option Bool) :
    verdictOfTags host state ctx pass rule alternatives (front ++ .invalid bad :: back) =
      verdictOfTags host state ctx pass rule alternatives (front ++ back) := by
  induction front generalizing alternatives with
  | nil => simp [verdictOfTags, skipped]
  | cons tag front ih =>
    cases tag with
    | condition c => cases c <;> simp only [List.cons_append, verdictOfTags, ih]
    | _ => simp only [List.cons_append, verdictOfTags, ih]

theorem verdict_invalid {rule : Rule} (tags : rule.tags = front ++ .invalid bad :: back)
    (skipped : bad.mayBeCondition = false) (host : Host σ) (state : σ) (ctx : Context)
    (pass : Pass) :
    ({ rule with tags := front ++ back } : Rule).verdict host state ctx pass =
      rule.verdict host state ctx pass := by
  have timed : ({ rule with tags := front ++ back } : Rule).firesIn pass.phase =
      rule.firesIn pass.phase := by
    simp [Rule.firesIn, tags]
  simp only [Rule.verdict, timed, tags, verdictOfTags_invalid skipped]

/-- What was not understood has at most something to report. -/
theorem PassSetting.mirrors_performTag_invalid (setting : PassSetting σ) (rule : String)
    (bad : InvalidTag) (s : PassState σ) :
    (setting.performTag rule (.invalid bad) s).Mirrors id s := by
  simp only [performTag]
  split <;> exact ⟨s.diagnostics, rfl⟩

end

theorem actAlike_of_invalid {rule : Rule} {bad : InvalidTag} {front back : List Tag}
    (tags : rule.tags = front ++ .invalid bad :: back) (skipped : bad.mayBeCondition = false) :
    ActAlike [rule] [{ rule with tags := front ++ back }] := by
  intro σ setting s
  show (setting.applyRule rule s).Mirrors id (setting.applyRule { rule with tags := front ++ back } s)
  simp only [PassSetting.applyRule, verdict_invalid tags skipped]
  split
  · rw [tags, List.foldl_append, List.foldl_append, List.foldl_cons]
    exact PassSetting.mirrors_performTags (.id setting.host) rule.name back
      (setting.mirrors_performTag_invalid rule.name bad _)
  · exact .refl _

end Roshambo
