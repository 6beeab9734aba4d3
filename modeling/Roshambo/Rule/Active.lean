import Roshambo.Rule.Basic

/-!
# Active rules

The enabled rules in the order of their activation, which is the order of evaluation. Names stay
pairwise distinct: enabling a name that is present is refused, and toggling it removes it.
-/
namespace Roshambo

inductive Toggle where
  | enabled
  | disabled
  deriving DecidableEq

def Toggle.name : Toggle → String
  | enabled => "Enabled"
  | disabled => "Disabled"

structure ActiveRules where
  rules : List Rule := []
  deriving DecidableEq

namespace ActiveRules

def names (active : ActiveRules) : List String := active.rules.map (·.name)

def contains (active : ActiveRules) (name : String) : Bool := active.names.contains name

/-- Appends the rule; false, and no change, if its name is present. -/
def enable (active : ActiveRules) (rule : Rule) : Bool × ActiveRules :=
  if active.contains rule.name then (false, active)
  else (true, ⟨active.rules ++ [rule]⟩)

/-- Removes the rule of this name; false, and no change, if there is none. -/
def disable (active : ActiveRules) (name : String) : Bool × ActiveRules :=
  (active.contains name, ⟨active.rules.filter (·.name != name)⟩)

/-- Removes the rule if its name is present and appends it otherwise. -/
def toggle (active : ActiveRules) (rule : Rule) : Toggle × ActiveRules :=
  match active.disable rule.name with
  | (true, remaining) => (.disabled, remaining)
  | (false, remaining) => (.enabled, ⟨remaining.rules ++ [rule]⟩)

def clear (_ : ActiveRules) : ActiveRules := {}

/-- The rule enabled most recently. -/
def latest? (active : ActiveRules) : Option Rule := active.rules.getLast?

/-- The names joined by arrows, or None. -/
def pipeline (active : ActiveRules) : String :=
  if active.rules.isEmpty then "None" else " -> ".intercalate active.names

/-- There is nothing to remove for a name that is not present. -/
theorem filter_of_not_contains {active : ActiveRules} {name : String}
    (absent : active.contains name = false) :
    active.rules.filter (·.name != name) = active.rules := by
  refine List.filter_eq_self.2 fun rule mem => ?_
  rw [bne_iff_ne]
  rintro rfl
  have present : active.contains rule.name = true :=
    List.contains_iff_mem.2 (List.mem_map_of_mem mem)
  exact absurd (absent.symm.trans present) Bool.false_ne_true

theorem nodup_names_enable {active : ActiveRules} (h : active.names.Nodup) (rule : Rule) :
    (active.enable rule).2.names.Nodup := by
  unfold enable
  split
  · exact h
  · rename_i hc
    simp only [contains, List.contains_iff_mem] at hc
    simp only [names, List.map_append, List.map_cons, List.map_nil] at h hc ⊢
    refine List.nodup_append.2 ⟨h, by simp, ?_⟩
    intro a ha b hb
    rw [List.mem_singleton.1 hb]
    exact fun e => hc (e ▸ ha)

theorem nodup_names_disable {active : ActiveRules} (h : active.names.Nodup) (name : String) :
    (active.disable name).2.names.Nodup :=
  List.Nodup.sublist (List.Sublist.map _ List.filter_sublist) h

theorem nodup_names_toggle {active : ActiveRules} (h : active.names.Nodup) (rule : Rule) :
    (active.toggle rule).2.names.Nodup := by
  by_cases present : active.contains rule.name = true
  · simp only [toggle, disable, present]
    exact nodup_names_disable h rule.name
  · have absent := Bool.eq_false_iff.2 present
    have enabled := nodup_names_enable h rule
    simp only [enable, absent, Bool.false_eq_true, if_false] at enabled
    simpa only [toggle, disable, absent, filter_of_not_contains absent] using enabled

/-- Names tell active rules apart. -/
theorem eq_of_name_eq {active : ActiveRules} (distinct : active.names.Nodup) {a b : Rule}
    (ha : a ∈ active.rules) (hb : b ∈ active.rules) (same : a.name = b.name) : a = b := by
  obtain ⟨rules⟩ := active
  simp only [names] at distinct ha hb
  induction rules with
  | nil => cases ha
  | cons rule rules ih =>
    rw [List.map_cons, List.nodup_cons] at distinct
    obtain ⟨fresh, distinct⟩ := distinct
    rcases List.mem_cons.1 ha with first | later
    · rcases List.mem_cons.1 hb with first' | later'
      · rw [first, first']
      · exact absurd (first ▸ same ▸ List.mem_map_of_mem later') fresh
    · rcases List.mem_cons.1 hb with first' | later'
      · exact absurd (first' ▸ same ▸ List.mem_map_of_mem later) fresh
      · exact ih distinct later later'

end ActiveRules

end Roshambo
