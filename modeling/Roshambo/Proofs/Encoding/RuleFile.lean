import Roshambo.Proofs.Encoding.RoundTrip

/-!
# Rule files are read in one way

A rule may be given by its fields in order, so an array may stand for a rule as well as for a list
of them, and a file is read as whichever of the two comes first. The order is of no account, though:
what begins a list is itself an object or an array, what begins a rule is its name. Only the empty
array is both (`read_in_one_way`), and is read as no rules.
-/
namespace Roshambo

open Json

/-! ## Written rules can be held -/

section

variable (depth : Nat)

theorem holdable_encode_word (n : UInt32) : (encode n).holdable depth = true :=
  Value.holdable_int (by have := n.toNat_lt; simp only [UInt64.size]; omega) depth

theorem holdable_encode_int (n : Int64) : (encode n).holdable depth = true :=
  Value.holdable_int (by
    have low := n.le_toInt
    have high := n.toInt_lt
    simp only [UInt64.size]; omega) depth

theorem holdable_encode_option {α : Type} [Codec α] (all : ∀ a : α, (encode a).holdable depth)
    (o : Option α) : (encode o).holdable depth = true := by
  cases o with
  | none => rfl
  | some a => exact all a

theorem holdable_encode_list {α : Type} [Codec α] (all : ∀ a : α, (encode a).holdable depth)
    (as : List α) : (encode as).holdable (depth + 1) = true := by
  simp only [encode, Value.holdable_arr, List.all_map, List.all_eq_true]
  exact fun a _ => all a

theorem holdable_encode_text (s : String) : (encode s).holdable depth = true := rfl

theorem holdable_encode_switch (b : Bool) : (encode b).holdable depth = true := rfl

theorem holdable_encode_tag (tag : AuthoredTag) : (encode tag).holdable (depth + 1) = true := by
  have texts := holdable_encode_option depth (holdable_encode_text depth)
  have ints := holdable_encode_option depth (holdable_encode_int depth)
  delta instCodecAuthoredTag
  simp [Value.holdable_obj, texts, ints, holdable_encode_switch]

theorem holdable_encode_rule (rule : AuthoredRule) :
    (encode rule).holdable (depth + 3) = true := by
  have tags := holdable_encode_list _ (holdable_encode_tag depth)
  have texts := holdable_encode_list _ (holdable_encode_text (depth + 1))
  have words := holdable_encode_option _ (holdable_encode_word (depth + 2))
  delta instCodecAuthoredRule
  simp [Value.holdable_obj, tags, texts, words, holdable_encode_text]

end

/-! ## One reading at most -/

/-- A value that can be read as a list of rules and as a rule is the empty array. -/
theorem read_in_one_way (v : Value) :
    v = .arr [] ∨ (decode? v : Option (List AuthoredRule)) = none ∨
      (decode? v : Option AuthoredRule) = none := by
  cases v with
  | arr items =>
    cases items with
    | nil => exact .inl rfl
    | cons item items =>
      cases item with
      -- a name is no rule, and nothing else is a name
      | str name => exact .inr (.inl rfl)
      | _ => exact .inr (.inr rfl)
  | _ => exact .inr (.inl rfl)

/-- The rules of a file are those of either reading, whichever is tried first. -/
theorem decodeRuleFile?_eq_some_iff {v : Value} {rules : List AuthoredRule} :
    decodeRuleFile? v = some rules ↔ v.holdable ruleFileDepth ∧
      (decode? v = some rules ∨ v ≠ .arr [] ∧ ∃ rule, decode? v = some rule ∧ [rule] = rules) := by
  unfold decodeRuleFile?
  by_cases held : v.holdable ruleFileDepth
  · rw [if_pos held]
    cases listed : (decode? v : Option (List AuthoredRule)) with
    | some found =>
      have single : v = .arr [] ∨ (decode? v : Option AuthoredRule) = none := by
        simpa [listed] using read_in_one_way v
      obtain rfl | single := single <;> simp [*]
    | none =>
      have filled : v ≠ .arr [] := by rintro rfl; cases listed
      simp [held, filled, Option.map_eq_some_iff]
  · simp [held]

/-- Lists of rules and single rules that are written are read back, the empty array is no rules,
and no other value can be read in both ways; so a file holds what either reading finds in it. -/
theorem read_unambiguously :
    (∀ rules : List AuthoredRule, decodeRuleFile? (encode rules) = some rules) ∧
    (∀ rule : AuthoredRule, decodeRuleFile? (encode rule) = some [rule]) ∧
    decodeRuleFile? (.arr []) = some [] ∧
    (∀ v : Value, v = .arr [] ∨ (decode? v : Option (List AuthoredRule)) = none ∨
      (decode? v : Option AuthoredRule) = none) ∧
    ∀ (v : Value) (rules : List AuthoredRule),
      decodeRuleFile? v = some rules ↔ v.holdable ruleFileDepth ∧
        (decode? v = some rules ∨
          v ≠ .arr [] ∧ ∃ rule, decode? v = some rule ∧ [rule] = rules) := by
  refine ⟨fun rules => ?_, fun rule => ?_, rfl, read_in_one_way,
    fun _ _ => decodeRuleFile?_eq_some_iff⟩
  · have held := holdable_encode_list _ (holdable_encode_rule 123) rules
    exact decodeRuleFile?_eq_some_iff.2 ⟨held, .inl (decode?_encode rules)⟩
  · have held := holdable_encode_rule 124 rule
    exact decodeRuleFile?_eq_some_iff.2 ⟨held, .inr ⟨nofun, rule, decode?_encode rule, rfl⟩⟩

/-- An array that begins with a name is one rule, an array that begins with an array a list. -/
example :
    decodeRuleFile? (.arr [.str "Ante"]) = some [{ name := "Ante" }] ∧
    decodeRuleFile? (.arr [.arr [], .arr [.str "Ante"]]) = some [{}, { name := "Ante" }] :=
  ⟨rfl, rfl⟩

end Roshambo
