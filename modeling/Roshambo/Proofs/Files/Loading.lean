import Mathlib.Control.Monad.Basic
import Roshambo.Files.Assets
import Roshambo.Round.Referee

/-!
# Loading a directory of rules

The rule files of a directory are read in ascending order, and their rules are looked at one after
another. A rule is loaded under its trimmed name if it has one and no rule before it has the same.
`loadRuleFiles_eq_ok_iff` tells a load from what the directory holds, and the steps for a single
rule, `rules_add` and `warnings_add`, are carried through all rules of all files.
-/
namespace Roshambo

namespace AuthoredRule

/-- The name under which a rule is loaded. -/
def title (raw : AuthoredRule) : String := Text.trim raw.name

/-- Nothing about the rule calls for a warning. -/
structure Flawless (raw : AuthoredRule) : Prop where
  archetypes : ∀ keyword ∈ raw.archetypes, (Archetype.ofKeyword? keyword).isSome = true
  findings : raw.typed.1.findings = []

theorem warnings_sortArchetypes (rule : String) (found : List Archetype) (keywords : List String) :
    (sortArchetypes rule found keywords).2 = [] ↔
      ∀ keyword ∈ keywords, (Archetype.ofKeyword? keyword).isSome = true := by
  induction keywords generalizing found with
  | nil => simp [sortArchetypes]
  | cons keyword keywords ih =>
    rw [List.forall_mem_cons]
    cases known : Archetype.ofKeyword? keyword with
    | some archetype => simp [sortArchetypes, known, ih]
    | none => simp [sortArchetypes, known]

theorem flawless_iff (raw : AuthoredRule) :
    raw.Flawless ↔ raw.typed.2 = [] ∧ raw.typed.1.findings = [] := by
  have sorted := warnings_sortArchetypes raw.name [] raw.archetypes
  exact ⟨fun h => ⟨sorted.2 h.archetypes, h.findings⟩, fun h => ⟨sorted.1 h.1, h.2⟩⟩

/-! ## Rules that are kept -/

/-- The rules with a name; of those with the same name only the first. -/
def kept (raws : List AuthoredRule) : List AuthoredRule :=
  (raws.filter fun raw => raw.title ≠ "").eraseDupsBy fun raw earlier => raw.title == earlier.title

@[simp] theorem kept_nil : kept [] = [] := rfl

theorem kept_cons_of_nameless {raw : AuthoredRule} (nameless : raw.title = "")
    (raws : List AuthoredRule) : kept (raw :: raws) = kept raws := by
  simp [kept, nameless]

/-- A rule that is kept shuts out the later ones of its name. -/
theorem kept_cons_of_named {raw : AuthoredRule} (named : raw.title ≠ "")
    (raws : List AuthoredRule) :
    kept (raw :: raws) = raw :: kept (raws.filter fun other => other.title ≠ raw.title) := by
  have first : (raw :: raws).filter (fun raw => raw.title ≠ "") =
      raw :: raws.filter fun raw => raw.title ≠ "" :=
    List.filter_cons_of_pos (by simpa using named)
  have later : (raws.filter fun raw => raw.title ≠ "").filter
        (fun other => (other.title == raw.title) = false) =
      (raws.filter fun other => other.title ≠ raw.title).filter fun raw => raw.title ≠ "" := by
    rw [List.filter_filter, List.filter_filter]
    refine List.filter_congr fun other _ => ?_
    simp [Bool.and_comm]
  rw [kept, kept, first, List.eraseDupsBy_cons, later]

theorem kept_sublist_named (raws : List AuthoredRule) :
    (kept raws).Sublist (raws.filter fun raw => raw.title ≠ "") := by
  match raws with
  | [] => exact .slnil
  | raw :: raws =>
    by_cases named : raw.title = ""
    · rw [kept_cons_of_nameless named, List.filter_cons_of_neg (by simpa using named)]
      exact kept_sublist_named raws
    · rw [kept_cons_of_named named, List.filter_cons_of_pos (by simpa using named)]
      have later := kept_sublist_named (raws.filter fun other => other.title ≠ raw.title)
      exact (later.trans (List.filter_sublist.filter _)).cons_cons raw
termination_by raws.length
decreasing_by
  · simp
  · exact Nat.lt_succ_of_le (List.length_filter_le _ _)

theorem kept_sublist (raws : List AuthoredRule) : (kept raws).Sublist raws :=
  (kept_sublist_named raws).trans List.filter_sublist

theorem title_ne_of_mem_kept {raw : AuthoredRule} {raws : List AuthoredRule}
    (mem : raw ∈ kept raws) : raw.title ≠ "" := by
  simpa using (List.mem_filter.1 ((kept_sublist_named raws).subset mem)).2

/-- No rule is dropped when all have names and no two have the same. -/
theorem kept_eq_self_iff (raws : List AuthoredRule) :
    kept raws = raws ↔ (∀ raw ∈ raws, raw.title ≠ "") ∧ (raws.map title).Nodup := by
  induction raws with
  | nil => simp
  | cons raw raws ih =>
    by_cases named : raw.title = ""
    · have shorter := (kept_sublist raws).length_le
      rw [kept_cons_of_nameless named]
      constructor
      · intro eq
        rw [eq, List.length_cons] at shorter
        omega
      · exact fun h => absurd named (h.1 raw List.mem_cons_self)
    · have alone : raws.filter (fun other => other.title ≠ raw.title) = raws ↔
          raw.title ∉ raws.map title := by
        simp [List.filter_eq_self]
      have split : kept (raws.filter fun other => other.title ≠ raw.title) = raws ↔
          raws.filter (fun other => other.title ≠ raw.title) = raws ∧ kept raws = raws := by
        constructor
        · intro eq
          have inner := kept_sublist (raws.filter fun other => other.title ≠ raw.title)
          rw [eq] at inner
          have all := List.filter_sublist.eq_of_length_le inner.length_le
          rw [all] at eq
          exact ⟨all, eq⟩
        · rintro ⟨all, eq⟩
          rw [all, eq]
      rw [kept_cons_of_named named, List.cons.injEq, split, alone, ih]
      simp [named, and_left_comm]

end AuthoredRule

namespace LoadedRules

open AuthoredRule

/-! ## One rule -/

theorem rules_add (path : String) (l : LoadedRules) (raw : AuthoredRule) :
    (l.add path raw).rules =
      if raw.title = "" ∨ raw.title ∈ l.names then l.rules else l.rules ++ [raw.typed.1] := by
  show (l.add path raw).rules = if raw.title = "" ∨ raw.typed.1.name ∈ l.names then _ else _
  simp only [add, title, String.isEmpty_iff, List.contains_iff_mem]
  by_cases nameless : Text.trim raw.name = ""
  · simp only [nameless, if_true, true_or]
    rfl
  · by_cases taken : raw.typed.1.name ∈ l.names
    · simp only [nameless, taken, if_true, if_false, or_true]
      rfl
    · simp only [nameless, taken, if_false, or_self]
      rfl

/-- A rule comes without a warning if it has a name of its own and no flaw. -/
theorem warnings_add (path : String) (l : LoadedRules) (raw : AuthoredRule) :
    (l.add path raw).warnings = [] ↔
      l.warnings = [] ∧ raw.title ≠ "" ∧ raw.title ∉ l.names ∧ raw.Flawless := by
  show _ ↔ l.warnings = [] ∧ raw.title ≠ "" ∧ raw.typed.1.name ∉ l.names ∧ raw.Flawless
  simp only [add, title, String.isEmpty_iff, List.contains_iff_mem, flawless_iff]
  by_cases nameless : Text.trim raw.name = ""
  · simp [nameless, warn]
  · by_cases taken : raw.typed.1.name ∈ l.names
    · simp [nameless, taken, warn]
    · simp [nameless, taken, warn]

theorem names_add (path : String) (l : LoadedRules) (raw : AuthoredRule) :
    (l.add path raw).names =
      if raw.title = "" ∨ raw.title ∈ l.names then l.names else l.names ++ [raw.title] := by
  rw [names, rules_add]
  split
  · rfl
  · rw [List.map_append]
    rfl

/-! ## One rule after another -/

/-- Adds rules one after another, each with the path of its file. -/
def addAll (l : LoadedRules) (entries : List (String × AuthoredRule)) : LoadedRules :=
  entries.foldl (fun l entry => l.add entry.1 entry.2) l

theorem addAll_cons (l : LoadedRules) (path : String) (raw : AuthoredRule)
    (entries : List (String × AuthoredRule)) :
    l.addAll ((path, raw) :: entries) = (l.add path raw).addAll entries := by
  rw [addAll, List.foldl_cons, addAll]

theorem addAll_append (l : LoadedRules) (first second : List (String × AuthoredRule)) :
    l.addAll (first ++ second) = (l.addAll first).addAll second :=
  List.foldl_append

theorem rules_addAll (l : LoadedRules) (entries : List (String × AuthoredRule)) :
    (l.addAll entries).rules = l.rules ++
      (kept ((entries.map Prod.snd).filter fun raw => raw.title ∉ l.names)).map (·.typed.1) := by
  induction entries generalizing l with
  | nil => simp [addAll]
  | cons entry entries ih =>
    obtain ⟨path, raw⟩ := entry
    rw [addAll_cons, ih, rules_add, names_add, List.map_cons]
    by_cases taken : raw.title ∈ l.names
    · rw [if_pos (.inr taken), if_pos (.inr taken), List.filter_cons_of_neg (by simpa using taken)]
    · rw [List.filter_cons_of_pos (by simpa using taken)]
      by_cases nameless : raw.title = ""
      · rw [if_pos (.inl nameless), if_pos (.inl nameless), kept_cons_of_nameless nameless]
      · have added : ¬ (raw.title = "" ∨ raw.title ∈ l.names) := not_or.2 ⟨nameless, taken⟩
        -- The new name shuts out what the rule that is kept does.
        have rest : (entries.map Prod.snd).filter
              (fun other => other.title ∉ l.names ++ [raw.title]) =
            ((entries.map Prod.snd).filter fun other => other.title ∉ l.names).filter
              fun other => other.title ≠ raw.title := by
          rw [List.filter_filter]
          refine List.filter_congr fun other _ => ?_
          simp [Bool.and_comm]
        rw [if_neg added, if_neg added, kept_cons_of_named nameless, rest, List.append_assoc]
        rfl

/-- Rules come without a warning if they have names of their own, all different, and no flaw. -/
theorem warnings_addAll (l : LoadedRules) (entries : List (String × AuthoredRule)) :
    (l.addAll entries).warnings = [] ↔ l.warnings = [] ∧
      (∀ entry ∈ entries, entry.2.title ≠ "" ∧ entry.2.title ∉ l.names ∧ entry.2.Flawless) ∧
      (entries.map (·.2.title)).Nodup := by
  induction entries generalizing l with
  | nil => simp [addAll]
  | cons entry entries ih =>
    obtain ⟨path, raw⟩ := entry
    rw [addAll_cons, ih, warnings_add, names_add, List.forall_mem_cons, List.map_cons,
      List.nodup_cons]
    constructor
    · rintro ⟨⟨silent, named, fresh, flawless⟩, rest, distinct⟩
      rw [if_neg (not_or.2 ⟨named, fresh⟩)] at rest
      refine ⟨silent, ⟨⟨named, fresh, flawless⟩, fun other mem => ?_⟩, ?_, distinct⟩
      · obtain ⟨otherNamed, otherFresh, otherFlawless⟩ := rest other mem
        exact ⟨otherNamed, fun old => otherFresh (List.mem_append_left _ old), otherFlawless⟩
      · intro again
        obtain ⟨other, mem, same⟩ := List.mem_map.1 again
        exact (rest other mem).2.1 (List.mem_append_right _ (List.mem_singleton.2 same))
    · rintro ⟨silent, ⟨⟨named, fresh, flawless⟩, rest⟩, alone, distinct⟩
      refine ⟨⟨silent, named, fresh, flawless⟩, fun other mem => ?_, distinct⟩
      obtain ⟨otherNamed, otherFresh, otherFlawless⟩ := rest other mem
      refine ⟨otherNamed, ?_, otherFlawless⟩
      rw [if_neg (not_or.2 ⟨named, fresh⟩), List.mem_append, List.mem_singleton]
      rintro (old | same)
      · exact otherFresh old
      · exact alone (same ▸ List.mem_map_of_mem mem)

theorem nodup_names_addAll {l : LoadedRules} (h : l.names.Nodup)
    (entries : List (String × AuthoredRule)) : (l.addAll entries).names.Nodup := by
  induction entries generalizing l with
  | nil => exact h
  | cons entry entries ih =>
    rw [addAll_cons]
    exact ih (nodup_names_add h entry.1 entry.2)

end LoadedRules

/-! ## Rule files -/

theorem Path.join_le_join (dir : String) {a b : String} (h : a ≤ b) :
    Path.join dir a ≤ Path.join dir b := by
  have prepend : ∀ front : String, front ++ a ≤ front ++ b := by
    intro front less
    rw [String.lt_iff, String.toList_append, String.toList_append] at less
    exact List.append_left_le (fun other => h (String.lt_iff.2 other)) less
  unfold join
  split
  · exact prepend dir
  · exact prepend (dir ++ "/")

/-- Rule files come in the order of their paths. -/
theorem ascending_ruleFileNames (dir : String) (names : List String) :
    ((ruleFileNames names).map (Path.join dir)).Pairwise (· ≤ ·) := by
  have order : ∀ a b : String, (!decide (b < a)) = true ↔ a ≤ b := by
    intro a b
    rw [Bool.not_eq_true', decide_eq_false_iff_not, String.not_lt]
  have sorted := @List.pairwise_mergeSort String (fun a b => !decide (b < a))
    (fun a b c first second =>
      (order a c).2 (String.le_trans ((order a b).1 first) ((order b c).1 second)))
    (fun a b => by
      rw [Bool.or_eq_true, order, order]
      exact String.le_total a b)
    (names.filter (Path.extension? · == some "json"))
  rw [List.pairwise_map]
  exact sorted.imp fun le => Path.join_le_join dir ((order _ _).1 le)

/-- Rule files by name, each with the rules that it holds. -/
abbrev RuleListing := List (String × List AuthoredRule)

namespace RuleListing

/-- All authored rules, file after file. -/
def raws (listing : RuleListing) : List AuthoredRule := listing.flatMap Prod.snd

/-- All authored rules, each with the path of its file. -/
def entries (dir : String) (listing : RuleListing) : List (String × AuthoredRule) :=
  listing.flatMap fun file => file.2.map fun raw => (Path.join dir file.1, raw)

theorem map_snd_entries (dir : String) (listing : RuleListing) :
    (listing.entries dir).map Prod.snd = listing.raws := by
  simp [entries, raws, List.map_flatMap, Function.comp_def]

theorem addAll_entries_cons (l : LoadedRules) (dir name : String) (raws : List AuthoredRule)
    (listing : RuleListing) :
    l.addAll (entries dir ((name, raws) :: listing)) =
      (raws.foldl (LoadedRules.add (Path.join dir name)) l).addAll (listing.entries dir) := by
  have first : l.addAll (raws.map fun raw => (Path.join dir name, raw)) =
      raws.foldl (LoadedRules.add (Path.join dir name)) l := List.foldl_map
  rw [entries, List.flatMap_cons, LoadedRules.addAll_append, ← first]
  rfl

end RuleListing

theorem readRuleFiles_eq_ok_iff (files : Files) (dir : String) (names : List String)
    (l loaded : LoadedRules) :
    names.foldlM (fun l name => do
        let path := Path.join dir name
        return (← readRuleFile files path).foldl (LoadedRules.add path) l) l = .ok loaded ↔
      ∃ listing : RuleListing, listing.map Prod.fst = names ∧
        (∀ file ∈ listing, readRuleFile files (Path.join dir file.1) = .ok file.2) ∧
        loaded = l.addAll (listing.entries dir) := by
  induction names generalizing l with
  | nil =>
    constructor
    · intro h
      exact ⟨[], rfl, by simp, (Except.ok.inj h).symm⟩
    · rintro ⟨listing, empty, -, rfl⟩
      rw [List.map_eq_nil_iff.1 empty]
      rfl
  | cons name names ih =>
    rw [List.foldlM_cons]
    cases read : readRuleFile files (Path.join dir name) with
    | error cause =>
      constructor
      · intro h
        simp only [read] at h
        cases h
      · rintro ⟨listing, same, reads, -⟩
        obtain ⟨file, rest, rfl, rfl, -⟩ := List.map_eq_cons_iff.1 same
        rw [reads file List.mem_cons_self] at read
        cases read
    | ok raws =>
      simp only [read]
      refine (ih (raws.foldl (LoadedRules.add (Path.join dir name)) l)).trans ?_
      constructor
      · rintro ⟨listing, rfl, reads, rfl⟩
        refine ⟨(name, raws) :: listing, rfl, List.forall_mem_cons.2 ⟨read, reads⟩, ?_⟩
        rw [RuleListing.addAll_entries_cons]
      · rintro ⟨listing, same, reads, rfl⟩
        obtain ⟨file, rest, rfl, rfl, rfl⟩ := List.map_eq_cons_iff.1 same
        rw [List.forall_mem_cons] at reads
        have held : raws = file.2 := Except.ok.inj (read.symm.trans reads.1)
        refine ⟨rest, rfl, reads.2, ?_⟩
        rw [held, ← RuleListing.addAll_entries_cons]

theorem loadRuleFiles_eq_ok_iff (files : Files) (dir : String) (loaded : LoadedRules) :
    loadRuleFiles files dir = .ok loaded ↔
      ∃ names, ∃ listing : RuleListing, files dir = .directory names ∧
        listing.map Prod.fst = ruleFileNames names ∧
        (∀ file ∈ listing, readRuleFile files (Path.join dir file.1) = .ok file.2) ∧
        loaded = LoadedRules.addAll {} (listing.entries dir) := by
  unfold loadRuleFiles
  split
  · rename_i names found
    rw [readRuleFiles_eq_ok_iff]
    constructor
    · rintro ⟨listing, same, reads, eq⟩
      exact ⟨names, listing, found, same, reads, eq⟩
    · rintro ⟨names', listing, found', same, reads, eq⟩
      obtain rfl := Entry.directory.inj (found.symm.trans found')
      exact ⟨listing, same, reads, eq⟩
  · rename_i other
    constructor
    · intro h
      cases h
    · rintro ⟨names, _, found, -⟩
      exact absurd found (other names)

/-! ## Enabling what was loaded -/

namespace Referee

/-- A referee after these rules were enabled, one after another. -/
def enableAll (ref : Referee) (rules : List Rule) : Referee :=
  rules.foldl (fun ref rule => (ref.enable rule).2) ref

theorem enable_of_fresh {ref : Referee} {rule : Rule} (fresh : rule.name ∉ ref.active.names) :
    (ref.enable rule).1 = true ∧ (ref.enable rule).2.active.rules = ref.active.rules ++ [rule] := by
  have absent : ref.active.contains rule.name = false := by
    simpa [ActiveRules.contains] using fresh
  simp [enable, ActiveRules.enable, absent, emit]

/-- Rules with new names become active in their order. -/
theorem active_enableAll (ref : Referee) (rules : List Rule)
    (distinct : (ref.active.names ++ rules.map (·.name)).Nodup) :
    (ref.enableAll rules).active.rules = ref.active.rules ++ rules := by
  induction rules generalizing ref with
  | nil => simp [enableAll]
  | cons rule rules ih =>
    have fresh : rule.name ∉ ref.active.names := fun old =>
      (List.nodup_append.1 distinct).2.2 _ old _ List.mem_cons_self rfl
    have active := (enable_of_fresh fresh).2
    have names : (ref.enable rule).2.active.names = ref.active.names ++ [rule.name] := by
      rw [ActiveRules.names, active, List.map_append]
      rfl
    refine (ih (ref.enable rule).2 ?_).trans ?_
    · rw [names, List.append_assoc]
      exact distinct
    · rw [active, List.append_assoc]
      rfl

end Referee

/-! ## The whole directory -/

/-- What loading makes of authored rules that are looked at in this order. -/
structure LoadedRules.Of (raws : List AuthoredRule) (loaded : LoadedRules) : Prop where
  rules : loaded.library.rules = (AuthoredRule.kept raws).map (·.typed.1)
  trimmed : ∀ name ∈ loaded.library.names, Text.trim name = name ∧ name ≠ ""
  distinct : loaded.library.names.Nodup
  /-- A new referee accepts every rule, whichever were enabled before it. -/
  accepted : ∀ before rule after, loaded.library.rules = before ++ rule :: after →
    ((Referee.enableAll {} before).enable rule).1 = true
  active : (Referee.enableAll {} loaded.library.rules).active.rules = loaded.library.rules
  silent : loaded.warnings = [] ↔
    AuthoredRule.kept raws = raws ∧ ∀ raw ∈ AuthoredRule.kept raws, raw.Flawless

theorem LoadedRules.of_addAll (entries : List (String × AuthoredRule)) :
    LoadedRules.Of (entries.map Prod.snd) (LoadedRules.addAll {} entries) := by
  have distinct := @nodup_names_addAll {} List.nodup_nil entries
  have rules := rules_addAll {} entries
  have silent := warnings_addAll {} entries
  obtain ⟨loaded, eq⟩ : ∃ loaded, LoadedRules.addAll {} entries = loaded := ⟨_, rfl⟩
  obtain ⟨raws, same⟩ : ∃ raws, entries.map Prod.snd = raws := ⟨_, rfl⟩
  rw [eq] at distinct rules silent ⊢
  have all : raws.filter (fun raw => raw.title ∉ ([] : List String)) = raws := by simp
  rw [same]
  simp only [same, names, List.map_nil, all, List.nil_append] at rules
  refine ⟨rules, ?_, distinct, ?_, ?_, ?_⟩
  · intro name mem
    obtain ⟨rule, isRule, rfl⟩ := List.mem_map.1 mem
    rw [library, rules] at isRule
    obtain ⟨raw, isKept, rfl⟩ := List.mem_map.1 isRule
    exact ⟨Text.trim_trim raw.name, AuthoredRule.title_ne_of_mem_kept isKept⟩
  · intro before rule after order
    have split : loaded.rules = before ++ rule :: after := order
    rw [names, split, List.map_append, List.map_cons] at distinct
    obtain ⟨earlier, -, apart⟩ := List.nodup_append.1 distinct
    have active := Referee.active_enableAll {} before earlier
    refine (Referee.enable_of_fresh fun taken => ?_).1
    rw [ActiveRules.names, active] at taken
    exact apart _ taken _ List.mem_cons_self rfl
  · exact Referee.active_enableAll {} loaded.rules distinct
  · have titles : entries.map (·.2.title) = raws.map AuthoredRule.title := by
      rw [← same, List.map_map]
      rfl
    have each : (∀ entry ∈ entries, entry.2.title ≠ "" ∧
        entry.2.title ∉ ({} : LoadedRules).names ∧ entry.2.Flawless) ↔
          (∀ raw ∈ raws, raw.title ≠ "") ∧ ∀ raw ∈ raws, raw.Flawless := by
      rw [← same, List.forall_mem_map, List.forall_mem_map]
      exact ⟨fun h => ⟨fun entry mem => (h entry mem).1, fun entry mem => (h entry mem).2.2⟩,
        fun h entry mem => ⟨h.1 entry mem, List.not_mem_nil, h.2 entry mem⟩⟩
    rw [silent, titles, each]
    constructor
    · rintro ⟨-, ⟨named, flawless⟩, apart⟩
      have all := (AuthoredRule.kept_eq_self_iff raws).2 ⟨named, apart⟩
      exact ⟨all, all.symm ▸ flawless⟩
    · rintro ⟨all, flawless⟩
      obtain ⟨named, apart⟩ := (AuthoredRule.kept_eq_self_iff raws).1 all
      exact ⟨rfl, ⟨named, all ▸ flawless⟩, apart⟩

/-- The rule files of a directory, all of them and in the order of their paths, each with the rules
that are read from it. -/
structure RuleListing.HeldBy (files : Files) (dir : String) (listing : RuleListing) : Prop where
  complete : ∃ names, files dir = .directory names ∧
    (listing.map Prod.fst).Perm (names.filter fun name => Path.extension? name = some "json")
  ascending : (listing.map fun file => Path.join dir file.1).Pairwise (· ≤ ·)
  read : ∀ file ∈ listing, readRuleFile files (Path.join dir file.1) = .ok file.2

/-- A directory that is loaded holds rule files, and the library is made of their rules. -/
theorem loaded_of_loadRuleFiles {files : Files} {dir : String} {loaded : LoadedRules}
    (loads : loadRuleFiles files dir = .ok loaded) :
    ∃ listing : RuleListing, listing.HeldBy files dir ∧ loaded.Of listing.raws := by
  obtain ⟨names, listing, found, order, reads, rfl⟩ :=
    (loadRuleFiles_eq_ok_iff files dir loaded).1 loads
  refine ⟨listing, ⟨⟨names, found, ?_⟩, ?_, reads⟩, ?_⟩
  · rw [order]
    refine (List.mergeSort_perm _ _).trans (.of_eq ?_)
    exact List.filter_congr fun name _ => Bool.beq_eq_decide_eq _ _
  · have ascending := ascending_ruleFileNames dir names
    rw [← order, List.map_map] at ascending
    exact ascending
  · rw [← listing.map_snd_entries dir]
    exact LoadedRules.of_addAll (listing.entries dir)

/-- Two files, read in the order of their names, with one name used twice and one left out. -/
theorem loaded_of_loadRuleFiles_bets :
    let files : Files := fun path =>
      if path = "rules" then .directory ["b.json", "notes.txt", "a.json"]
      else if path = "rules/a.json" then
        .file "[\x7b\"name\":\" Bet \"\x7d,\x7b\x7d]".toUTF8
      else if path = "rules/b.json" then .file "\x7b\"name\":\"Bet\",\"weight\":2\x7d".toUTF8
      else .missing
    let loaded : LoadedRules :=
      { rules := [{ name := "Bet", tags := [] }]
        warnings := ["rules/a.json: Bet: no tags defined",
          "rules/a.json: rule without a name skipped",
          "rules/b.json: duplicate rule `Bet` ignored"] }
    loadRuleFiles files "rules" = .ok loaded ∧
      ∃ listing : RuleListing, listing.HeldBy files "rules" ∧ loaded.Of listing.raws := by
  intro files loaded
  have first : readRuleFile files (Path.join "rules" "a.json") = .ok [{ name := " Bet " }, {}] := by
    decide +kernel
  have second : readRuleFile files (Path.join "rules" "b.json") =
      .ok [{ name := "Bet", weight := some 2 }] := by
    decide +kernel
  have order : ruleFileNames ["b.json", "notes.txt", "a.json"] = ["a.json", "b.json"] := by
    have found : ["b.json", "notes.txt", "a.json"].filter (Path.extension? · == some "json") =
        ["b.json", "a.json"] := by decide +kernel
    have swapped : ∀ le : String → String → Bool, le "b.json" "a.json" = false →
        ["b.json", "a.json"].mergeSort le = ["a.json", "b.json"] := by
      intro le less
      simp [List.mergeSort, List.MergeSort.Internal.splitInTwo, less]
    rw [ruleFileNames, found]
    exact swapped _ (by decide +kernel)
  have loads : loadRuleFiles files "rules" = .ok loaded := by
    refine (loadRuleFiles_eq_ok_iff files "rules" loaded).2 ⟨["b.json", "notes.txt", "a.json"],
      [("a.json", [{ name := " Bet " }, {}]), ("b.json", [{ name := "Bet", weight := some 2 }])],
      rfl, order.symm, ?_, by decide +kernel⟩
    exact List.forall_mem_cons.2 ⟨first, List.forall_mem_singleton.2 second⟩
  exact ⟨loads, loaded_of_loadRuleFiles loads⟩

end Roshambo
