import Mathlib.Data.List.Induction
import Mathlib.Data.List.Nodup
import Roshambo.Proofs.Round.Calls

/-!
# Rules in the order of their activation

What a sequence of operations leaves active, told from the operations alone. A rule is active if
the last operation that did anything to its name enabled it and nothing was cleared since. The
rules stand in the order of the times at which they were enabled, each as it was given at its time
(`lastEnabled_append_singleton` is the step, `rules_after` what one operation does to the list). A
referee keeps its rules in the same way, whatever else it is used for.
-/
namespace Roshambo

/-- An operation on the active rules. -/
inductive RuleMove where
  | enable (rule : Rule)
  | disable (name : String)
  | toggle (rule : Rule)
  | clear
  deriving DecidableEq

namespace RuleMove

/-- The rule that the operation enables if its name is not enabled yet. -/
def rule? : RuleMove → Option Rule
  | enable rule => some rule
  | toggle rule => some rule
  | _ => none

/-- The operation disables this name if it is enabled. -/
def takes (name : String) : RuleMove → Bool
  | enable _ => false
  | disable other => other == name
  | toggle rule => rule.name == name
  | clear => true

/-- Whether the operation leaves the name enabled, which was enabled before or not. -/
def leaves (name : String) (on : Bool) (move : RuleMove) : Bool :=
  if on then !move.takes name else move.rule?.any (·.name == name)

end RuleMove

/-- Whether the name is enabled after the operations. -/
def isOn (moves : List RuleMove) (name : String) : Bool := moves.foldl (RuleMove.leaves name) false

/-- The operation at this time enabled the rule, whose name was not enabled then, and no later one
disabled the name or cleared everything. -/
def LastEnabled (moves : List RuleMove) (time : Nat) (rule : Rule) : Prop :=
  ∃ earlier move later, moves = earlier ++ move :: later ∧ earlier.length = time ∧
    move.rule? = some rule ∧ isOn earlier rule.name = false ∧
    ∀ next ∈ later, next.takes rule.name = false

theorem LastEnabled.time_lt {moves : List RuleMove} {time : Nat} {rule : Rule}
    (h : LastEnabled moves time rule) : time < moves.length := by
  obtain ⟨earlier, move, later, rfl, rfl, -⟩ := h
  simp

/-- With one more operation, a rule was enabled last where it was before, unless it is taken away,
or by this operation. -/
theorem lastEnabled_append_singleton {moves : List RuleMove} {move : RuleMove} {time : Nat}
    {rule : Rule} : LastEnabled (moves ++ [move]) time rule ↔
      LastEnabled moves time rule ∧ move.takes rule.name = false ∨
      time = moves.length ∧ move.rule? = some rule ∧ isOn moves rule.name = false := by
  constructor
  · rintro ⟨earlier, enabling, later, split, length, given, off, since⟩
    rcases List.eq_nil_or_concat later with rfl | ⟨later, last, rfl⟩
    · obtain ⟨rfl, same⟩ := List.append_inj' split rfl
      cases same
      exact .inr ⟨length.symm, given, off⟩
    · rw [List.concat_eq_append, ← List.cons_append, ← List.append_assoc] at split
      obtain ⟨rfl, same⟩ := List.append_inj' split rfl
      cases same
      simp only [List.concat_eq_append, List.forall_mem_append, List.forall_mem_singleton] at since
      exact .inl ⟨⟨earlier, enabling, later, rfl, length, given, off, since.1⟩, since.2⟩
  · rintro (⟨⟨earlier, enabling, later, rfl, length, given, off, since⟩, kept⟩ | ⟨rfl, given, off⟩)
    · refine ⟨earlier, enabling, later ++ [move], by simp, length, given, off, ?_⟩
      simpa only [List.forall_mem_append, List.forall_mem_singleton] using ⟨since, kept⟩
    · exact ⟨moves, move, [], rfl, rfl, given, off, by simp⟩

namespace ActiveRules

/-! ## One operation -/

/-- The active rules after an operation. -/
def after (active : ActiveRules) : RuleMove → ActiveRules
  | .enable rule => (active.enable rule).2
  | .disable name => (active.disable name).2
  | .toggle rule => (active.toggle rule).2
  | .clear => active.clear

/-- The rule that the operation enables, if it enables one here. -/
def added (active : ActiveRules) (move : RuleMove) : List Rule :=
  move.rule?.toList.filter fun rule => !active.contains rule.name

theorem mem_added_iff {active : ActiveRules} {move : RuleMove} {rule : Rule} :
    rule ∈ active.added move ↔ move.rule? = some rule ∧ active.contains rule.name = false := by
  simp [added]

theorem added_eq (active : ActiveRules) (move : RuleMove) :
    active.added move = [] ∨ ∃ rule, active.added move = [rule] := by
  cases given : move.rule? with
  | none => exact .inl (by simp [added, given])
  | some rule =>
    cases present : active.contains rule.name with
    | true => exact .inl (by simp [added, given, present])
    | false => exact .inr ⟨rule, by simp [added, given, present]⟩

/-- What the operation takes away goes, everything else stays in its order, and a rule that is
enabled goes to the end. -/
theorem rules_after (active : ActiveRules) (move : RuleMove) :
    (active.after move).rules =
      active.rules.filter (fun rule => !move.takes rule.name) ++ active.added move := by
  have others (name : String) : active.rules.filter (fun rule => !(name == rule.name)) =
      active.rules.filter (·.name != name) := by
    simp [bne, BEq.comm]
  have all : active.rules.filter (fun _ => true) = active.rules :=
    List.filter_eq_self.2 fun _ _ => rfl
  cases move with
  | enable rule =>
    cases present : active.contains rule.name <;>
      simp [after, enable, added, RuleMove.rule?, RuleMove.takes, present, all]
  | disable name => simp [after, disable, added, RuleMove.rule?, RuleMove.takes, others]
  | toggle rule =>
    cases present : active.contains rule.name <;>
      simp [after, toggle, disable, added, RuleMove.rule?, RuleMove.takes, present, others]
  | clear => simp [after, clear, added, RuleMove.rule?, RuleMove.takes]

theorem contains_iff {active : ActiveRules} {name : String} :
    active.contains name = true ↔ ∃ rule ∈ active.rules, rule.name = name := by
  simp [contains, names]

theorem contains_after (active : ActiveRules) (move : RuleMove) (name : String) :
    (active.after move).contains name = move.leaves name (active.contains name) := by
  rw [Bool.eq_iff_iff, contains_iff, rules_after]
  cases present : active.contains name with
  | true =>
    obtain ⟨holder, mem, named⟩ := contains_iff.1 present
    have stays : (move.leaves name true = true) ↔ move.takes name = false := by
      simp [RuleMove.leaves]
    rw [stays]
    constructor
    · rintro ⟨rule, left, rfl⟩
      rcases List.mem_append.1 left with left | new
      · simpa using (List.mem_filter.1 left).2
      · simpa [present] using (List.mem_filter.1 new).2
    · intro kept
      exact ⟨holder, List.mem_append_left _ (List.mem_filter.2 ⟨mem, by simp [named, kept]⟩), named⟩
  | false =>
    have comes : (move.leaves name false = true) ↔
        ∃ rule, move.rule? = some rule ∧ rule.name = name := by
      simp [RuleMove.leaves, Option.any_eq_true]
    rw [comes]
    constructor
    · rintro ⟨rule, left, rfl⟩
      rcases List.mem_append.1 left with left | new
      · exact absurd (contains_iff.2 ⟨rule, (List.mem_filter.1 left).1, rfl⟩) (by simp [present])
      · exact ⟨rule, by simpa using (List.mem_filter.1 new).1, rfl⟩
    · rintro ⟨rule, given, rfl⟩
      refine ⟨rule, List.mem_append_right _ (List.mem_filter.2 ⟨?_, by simp [present]⟩), rfl⟩
      simp [given]

/-! ## All operations -/

/-- The active rules after operations on none. -/
def run (moves : List RuleMove) : ActiveRules := moves.foldl after {}

theorem run_append_singleton (moves : List RuleMove) (move : RuleMove) :
    run (moves ++ [move]) = (run moves).after move := by
  simp [run]

theorem contains_run (moves : List RuleMove) (name : String) :
    (run moves).contains name = isOn moves name := by
  induction moves using List.reverseRecOn with
  | nil => rfl
  | append_singleton moves move ih =>
    rw [run_append_singleton, contains_after, ih]
    simp [isOn]

/-- The active rules with the times at which they were enabled, earlier ones first. -/
structure Dated (moves : List RuleMove) (active : ActiveRules) (dated : List (Nat × Rule)) :
    Prop where
  rules : dated.map Prod.snd = active.rules
  ascending : dated.Pairwise (·.1 < ·.1)
  mem_iff : ∀ time rule, (time, rule) ∈ dated ↔ LastEnabled moves time rule

theorem dated_run (moves : List RuleMove) : ∃ dated, Dated moves (run moves) dated := by
  induction moves using List.reverseRecOn with
  | nil =>
    refine ⟨[], rfl, .nil, fun time rule => ⟨by simp, ?_⟩⟩
    rintro ⟨earlier, move, later, split, -⟩
    simp at split
  | append_singleton moves move ih =>
    obtain ⟨dated, rules, ascending, mem_iff⟩ := ih
    have new_mem {time : Nat} {rule : Rule} :
        (time, rule) ∈ ((run moves).added move).map (moves.length, ·) ↔
          time = moves.length ∧ move.rule? = some rule ∧ isOn moves rule.name = false := by
      simp only [List.mem_map, mem_added_iff, contains_run, Prod.mk.injEq]
      constructor
      · rintro ⟨_, fresh, rfl, rfl⟩
        exact ⟨rfl, fresh⟩
      · rintro ⟨rfl, fresh⟩
        exact ⟨rule, fresh, rfl, rfl⟩
    refine ⟨dated.filter (fun entry => !move.takes entry.2.name) ++
      ((run moves).added move).map (moves.length, ·), ?_, ?_, ?_⟩
    · rw [run_append_singleton, rules_after, ← rules, List.filter_map, List.map_append]
      simp [Function.comp_def]
    · refine List.pairwise_append.2 ⟨ascending.filter _, ?_, ?_⟩
      · rcases (run moves).added_eq move with none_new | ⟨rule, one_new⟩
        · simp [none_new]
        · simp [one_new]
      · rintro ⟨time, rule⟩ old ⟨time', rule'⟩ new
        obtain ⟨rfl, -⟩ := new_mem.1 new
        exact ((mem_iff time rule).1 (List.mem_filter.1 old).1).time_lt
    · intro time rule
      rw [lastEnabled_append_singleton, List.mem_append, new_mem, List.mem_filter, mem_iff]
      simp

theorem nodup_names_after {active : ActiveRules} (distinct : active.names.Nodup)
    (move : RuleMove) : (active.after move).names.Nodup := by
  cases move with
  | enable rule => exact nodup_names_enable distinct rule
  | disable name => exact nodup_names_disable distinct name
  | toggle rule => exact nodup_names_toggle distinct rule
  | clear => exact .nil

theorem nodup_names_run (moves : List RuleMove) : (run moves).names.Nodup := by
  induction moves using List.reverseRecOn with
  | nil => exact .nil
  | append_singleton moves move ih =>
    rw [run_append_singleton]
    exact nodup_names_after ih move

/-- Toggled once, the rule of this name is gone; toggled again, it is the last. -/
theorem toggle_toggle {active : ActiveRules} (distinct : active.names.Nodup)
    {earlier later : List Rule} {rule again : Rule}
    (split : active.rules = earlier ++ rule :: later) (same : again.name = rule.name) :
    active.toggle again = (.disabled, ⟨earlier ++ later⟩) ∧
      toggle ⟨earlier ++ later⟩ again = (.enabled, ⟨earlier ++ later ++ [again]⟩) := by
  have present : active.contains again.name = true :=
    contains_iff.2 ⟨rule, by simp [split], same.symm⟩
  have absent : contains ⟨earlier ++ later⟩ again.name = false := by
    rw [names, split, List.map_append, List.map_cons, List.nodup_middle, List.nodup_cons,
      ← List.map_append] at distinct
    rw [← Bool.not_eq_true, contains_iff, same]
    simpa [or_imp, forall_and] using distinct.1
  have others := filter_of_not_contains absent
  have kept : active.rules.filter (·.name != again.name) = earlier ++ later := by
    rw [split, List.filter_append, List.filter_cons_of_neg (by simp [same]), ← List.filter_append]
    exact others
  constructor
  · simp only [toggle, disable, present, kept]
  · simp only [toggle, disable, absent, others]

/-- The active rules are what the operations tell, and they go on as a list in the order of
activation does: a name that is present is not enabled again, and a rule that is toggled twice
moves to the end. -/
structure Reflects (moves : List RuleMove) (active : ActiveRules) : Prop where
  distinct : active.names.Nodup
  present : ∀ name, active.contains name = true ↔
    ∃ time rule, LastEnabled moves time rule ∧ rule.name = name
  ordered : ∃ dated, Dated moves active dated
  refused : ∀ rule, active.contains rule.name = true → active.enable rule = (false, active)
  moved : ∀ earlier rule later again, active.rules = earlier ++ rule :: later →
    again.name = rule.name → active.toggle again = (.disabled, ⟨earlier ++ later⟩) ∧
      toggle ⟨earlier ++ later⟩ again = (.enabled, ⟨earlier ++ later ++ [again]⟩)

theorem reflects_run (moves : List RuleMove) : Reflects moves (run moves) where
  distinct := nodup_names_run moves
  present name := by
    obtain ⟨dated, rules, -, mem_iff⟩ := dated_run moves
    rw [contains_iff, ← rules]
    constructor
    · rintro ⟨rule, mem, named⟩
      obtain ⟨⟨time, _⟩, entry, rfl⟩ := List.mem_map.1 mem
      exact ⟨time, _, (mem_iff _ _).1 entry, named⟩
    · rintro ⟨time, rule, last, named⟩
      exact ⟨rule, List.mem_map.2 ⟨(time, rule), (mem_iff _ _).2 last, rfl⟩, named⟩
  ordered := dated_run moves
  refused rule present := by rw [enable, present, if_pos rfl]
  moved _ _ _ _ split same := toggle_toggle (nodup_names_run moves) split same

end ActiveRules

/-! ## Referees -/

namespace Referee

variable {σ : Type}

/-- What a use of a referee does to its active rules. -/
def Use.ruleMoves : Use σ → List RuleMove
  | enable rule => [.enable rule]
  | disable name => [.disable name]
  | toggle rule => [.toggle rule]
  | setOnly (some rule) => [.clear, .enable rule]
  | setOnly none => [.clear]
  | clear => [.clear]
  | _ => []

theorem active_enable (ref : Referee) (rule : Rule) :
    (ref.enable rule).2.active = (ref.active.enable rule).2 := by
  unfold enable
  split
  · rename_i eq
    rw [eq]
    rfl
  · rename_i eq
    rw [eq]

theorem active_disable (ref : Referee) (name : String) :
    (ref.disable name).2.active = (ref.active.disable name).2 := by
  unfold disable
  split
  · rename_i eq
    rw [eq]
    rfl
  · rename_i eq
    rw [eq]

theorem active_after (ref : Referee) (use : Use σ) :
    (ref.after use).active = use.ruleMoves.foldl ActiveRules.after ref.active := by
  cases use with
  | enable rule => exact ref.active_enable rule
  | disable name => exact ref.active_disable name
  | setOnly rule =>
    cases rule with
    | none => rfl
    | some rule => exact active_enable { ref with active := ref.active.clear } rule
  | enter entry host ctx state => exact ref.active_enter entry host ctx state
  | _ => rfl

theorem active_used (uses : List (Use σ)) :
    (used uses).active = ActiveRules.run (uses.flatMap (·.ruleMoves)) := by
  induction uses using List.reverseRecOn with
  | nil => rfl
  | append_singleton uses use ih =>
    rw [used_append_singleton, active_after, ih]
    simp [ActiveRules.run, List.flatMap_append]

end Referee

/-- The rules that operations leave active, on their own or as the rules of a referee in use. -/
theorem reflects_operations : (∀ moves, ActiveRules.Reflects moves (ActiveRules.run moves)) ∧
    ∀ (σ : Type) (uses : List (Referee.Use σ)),
      ActiveRules.Reflects (uses.flatMap (·.ruleMoves)) (Referee.used uses).active := by
  refine ⟨ActiveRules.reflects_run, fun σ uses => ?_⟩
  rw [Referee.active_used]
  exact ActiveRules.reflects_run _

end Roshambo
