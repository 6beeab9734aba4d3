import Roshambo.Proofs.Results
import Roshambo.Rule.Library

/-!
# Rules selected by name

A selection is a text with names between commas. Blanks around a name and pieces without a name do
not count, so a text lists exactly one sequence of names (`lists_iff`), and rules written down by
their names are found again. Each name stands for the rule of exactly this name; only where there
is none is it read as a loose spelling.
-/
namespace Roshambo

namespace Text

/-! ## Texts cut at commas -/

theorem pieces_eq_splitOnP (isBreak : Char → Bool) (cs : List Char) :
    pieces isBreak cs = cs.splitOnP isBreak := by
  induction cs with
  | nil => rfl
  | cons c cs ih =>
    rw [List.splitOnP_cons_eq_if_modifyHead, ← ih, pieces]
    cases rest : pieces isBreak cs with
    | nil => exact absurd rest (pieces_ne_nil isBreak cs)
    | cons piece rest => rfl

/-- The pieces are all that stands between the commas of the text. -/
structure CutAtCommas (text : String) (pieces : List String) : Prop where
  nonempty : pieces ≠ []
  commaless : ∀ piece ∈ pieces, ',' ∉ piece.toList
  joined : ",".intercalate pieces = text

theorem cutAtCommas_commaPieces (text : String) : CutAtCommas text (commaPieces text) where
  nonempty := by simpa [commaPieces] using pieces_ne_nil _ text.toList
  commaless piece mem comma := by
    obtain ⟨chars, found, rfl⟩ := List.mem_map.1 mem
    rw [String.toList_ofList] at comma
    have noBreak := not_isBreak_of_mem_pieces found comma
    simp at noBreak
  joined := by
    have back := flatten_intersperse_pieces ',' text.toList
    rw [← String.toList_inj, String.toList_intercalate]
    simpa [commaPieces, List.intercalate, Function.comp_def] using back

/-- There is only one way to cut a text at its commas. -/
theorem CutAtCommas.eq_commaPieces {text : String} {pieces : List String}
    (cut : CutAtCommas text pieces) : pieces = commaPieces text := by
  have chars : ∀ piece ∈ pieces.map String.toList, ',' ∉ piece := by
    simpa using cut.commaless
  have back := List.splitOn_intercalate ',' chars (by simpa using cut.nonempty)
  rw [commaPieces, pieces_eq_splitOnP, ← cut.joined, String.toList_intercalate]
  show pieces = (([','].intercalate (pieces.map String.toList)).splitOn ',').map String.ofList
  rw [back, List.map_map]
  simp [Function.comp_def]

/-! ## Names in blanks -/

def Blank (s : String) : Prop := ∀ c ∈ s.toList, isBlank c = true

theorem trim_of_blank {s : String} (blank : Blank s) : trim s = "" := by
  have gone := trimChars_blanks_append blank []
  rw [List.append_nil] at gone
  rw [trim, gone]
  rfl

theorem trim_in_blanks {before after : String} (front : Blank before) (back : Blank after)
    (s : String) : trim (before ++ s ++ after) = trim s := by
  rw [trim, String.toList_append, String.toList_append, trimChars_append_blanks back,
    trimChars_blanks_append front, ← trim]

theorem exists_eq_append_trim (s : String) :
    ∃ before after, s = before ++ trim s ++ after ∧ Blank before ∧ Blank after := by
  obtain ⟨before, after, eq, front, back⟩ := exists_eq_append_trimChars s.toList
  refine ⟨String.ofList before, String.ofList after, ?_, ?_, ?_⟩
  · rw [← String.toList_inj]
    simpa [trim] using eq
  · simpa [Blank] using front
  · simpa [Blank] using back

end Text

namespace Library

open Text

/-! ## Texts that list names -/

/-- A name that a selection can hold as it is. -/
structure Selectable (name : String) : Prop where
  trimmed : trim name = name
  nonempty : name ≠ ""
  commaless : ',' ∉ name.toList

/-- The pieces hold these names in this order: a piece is a name in blanks, or it is blank. -/
inductive Holds : (pieces names : List String) → Prop
  | nil : Holds [] []
  | blank {piece : String} {pieces names : List String} :
    Blank piece → Holds pieces names → Holds (piece :: pieces) names
  | name {before after name : String} {pieces names : List String} :
    Blank before → Blank after → Holds pieces names →
      Holds ((before ++ name ++ after) :: pieces) (name :: names)

theorem Holds.names_eq {pieces names : List String} (holds : Holds pieces names)
    (selectable : ∀ name ∈ names, Selectable name) :
    (pieces.map trim).filter (!·.isEmpty) = names := by
  induction holds with
  | nil => rfl
  | blank blank _ ih => simp [trim_of_blank blank, ih selectable]
  | @name before after name _ _ front back _ ih =>
    obtain ⟨first, rest⟩ := List.forall_mem_cons.1 selectable
    have trimmed : trim (before ++ name ++ after) = name := by
      rw [trim_in_blanks front back, first.trimmed]
    simp [trimmed, first.nonempty, ih rest]

theorem Holds.commaless {pieces names : List String} (holds : Holds pieces names)
    (selectable : ∀ name ∈ names, Selectable name) : ∀ piece ∈ pieces, ',' ∉ piece.toList := by
  have blank_commaless {s : String} (blank : Blank s) : ',' ∉ s.toList := fun comma =>
    absurd (blank ',' comma) (by decide)
  induction holds with
  | nil => simp
  | blank blank _ ih => exact List.forall_mem_cons.2 ⟨blank_commaless blank, ih selectable⟩
  | name front back _ ih =>
    obtain ⟨first, rest⟩ := List.forall_mem_cons.1 selectable
    refine List.forall_mem_cons.2 ⟨?_, ih rest⟩
    simp [blank_commaless front, blank_commaless back, first.commaless]

/-- The pieces of any text hold the names that are left of them after trimming. -/
theorem holds_trimmed (pieces : List String) :
    Holds pieces ((pieces.map trim).filter (!·.isEmpty)) := by
  induction pieces with
  | nil => exact .nil
  | cons piece pieces ih =>
    obtain ⟨before, after, eq, front, back⟩ := exists_eq_append_trim piece
    by_cases empty : trim piece = ""
    · have blank : Blank piece := by
        rw [empty] at eq
        intro c mem
        rw [eq] at mem
        rcases (by simpa using mem : c ∈ before.toList ∨ c ∈ after.toList) with mem | mem
        · exact front c mem
        · exact back c mem
      simpa [empty] using Holds.blank blank ih
    · rw [List.map_cons, List.filter_cons_of_pos (by simpa using empty)]
      have held : Holds ((before ++ trim piece ++ after) :: pieces) (trim piece :: _) :=
        .name front back ih
      rwa [← eq] at held

/-- The text lists these names, with commas between them. -/
def Lists (text : String) (names : List String) : Prop :=
  ∃ pieces, CutAtCommas text pieces ∧ Holds pieces names ∧ ∀ name ∈ names, Selectable name

theorem selectable_of_mem_selectionNames {text name : String}
    (mem : name ∈ selectionNames text) : Selectable name := by
  obtain ⟨trimmed, nonempty⟩ := List.mem_filter.1 mem
  obtain ⟨piece, cut, rfl⟩ := List.mem_map.1 trimmed
  refine ⟨trim_trim piece, by simpa using nonempty, fun comma => ?_⟩
  obtain ⟨before, after, eq, -, -⟩ := exists_eq_append_trim piece
  refine (cutAtCommas_commaPieces text).commaless piece cut ?_
  rw [eq]
  simp [comma]

theorem lists_iff {text : String} {names : List String} :
    Lists text names ↔ names = selectionNames text := by
  constructor
  · rintro ⟨pieces, cut, holds, selectable⟩
    rw [selectionNames, ← cut.eq_commaPieces, holds.names_eq selectable]
  · rintro rfl
    exact ⟨commaPieces text, cutAtCommas_commaPieces text, holds_trimmed _,
      fun name mem => selectable_of_mem_selectionNames mem⟩

/-- Joining pieces that hold names makes a text that lists them. -/
theorem Holds.lists {pieces names : List String} (holds : Holds pieces names)
    (selectable : ∀ name ∈ names, Selectable name) : Lists (",".intercalate pieces) names := by
  cases pieces with
  | nil =>
    cases holds
    exact ⟨[""], ⟨by simp, by simp, rfl⟩, .blank (by simp [Blank]) .nil, by simp⟩
  | cons piece pieces =>
    exact ⟨piece :: pieces, ⟨by simp, holds.commaless selectable, rfl⟩, holds, selectable⟩

/-! ## Rules that names stand for -/

/-- The first of the rules with this property. -/
def FirstWith (rules : List Rule) (p : Rule → Prop) (rule : Rule) : Prop :=
  ∃ earlier later, rules = earlier ++ rule :: later ∧ p rule ∧ ∀ other ∈ earlier, ¬ p other

variable (library : Library)

/-- The name stands for this rule: the first of exactly this name or, where there is none, the
first whose name has the same keyword. -/
def Means (name : String) (rule : Rule) : Prop :=
  FirstWith library.rules (·.name = name) rule ∨
    (∀ other ∈ library.rules, other.name ≠ name) ∧
      FirstWith library.rules (keyword ·.name = keyword name) rule

/-- Some rule has this name, exactly or in a loose spelling. -/
def Knows (name : String) : Prop :=
  ∃ rule ∈ library.rules, rule.name = name ∨ keyword rule.name = keyword name

/-- The first of the names that no rule has. -/
def FirstUnknown (names : List String) (name : String) : Prop :=
  ∃ known rest, names = known ++ name :: rest ∧ (∀ other ∈ known, library.Knows other) ∧
    ¬ library.Knows name

theorem find?_eq_some_iff_firstWith {rules : List Rule} {p : Rule → Prop} [DecidablePred p]
    {rule : Rule} : rules.find? (fun other => p other) = some rule ↔ FirstWith rules p rule := by
  simp [List.find?_eq_some_iff_append, FirstWith, and_left_comm]

theorem FirstWith.mem {rules : List Rule} {p : Rule → Prop} {rule : Rule}
    (first : FirstWith rules p rule) : rule ∈ rules ∧ p rule := by
  obtain ⟨earlier, later, rfl, holds, -⟩ := first
  exact ⟨by simp, holds⟩

/-- Looking up a name finds the rule that it stands for. -/
theorem find?_eq_some_iff {name : String} {rule : Rule} :
    library.find? name = some rule ↔ library.Means name rule := by
  rw [find?]
  cases found : library.rules.find? (·.name == name) with
  | some first =>
    have exact_first : FirstWith library.rules (·.name = name) first :=
      find?_eq_some_iff_firstWith.1 found
    constructor
    · intro eq
      exact .inl (Option.some.inj eq ▸ exact_first)
    · rintro (other | ⟨nameless, -⟩)
      · exact found.symm.trans (find?_eq_some_iff_firstWith.2 other)
      · exact absurd exact_first.mem.2 (nameless first exact_first.mem.1)
  | none =>
    have nameless : ∀ other ∈ library.rules, other.name ≠ name := by
      simpa using List.find?_eq_none.1 found
    constructor
    · intro loose
      exact .inr ⟨nameless, find?_eq_some_iff_firstWith.1 loose⟩
    · rintro (exact_rule | ⟨-, loose⟩)
      · exact absurd exact_rule.mem.2 (nameless rule exact_rule.mem.1)
      · exact find?_eq_some_iff_firstWith.2 loose

theorem knows_iff {name : String} :
    library.Knows name ↔ ∃ rule, library.find? name = some rule := by
  constructor
  · rintro ⟨rule, mem, same⟩
    rw [find?]
    split
    · exact ⟨_, rfl⟩
    · rename_i unnamed
      rcases same with exact_name | loose
      · exact absurd exact_name (by simpa using List.find?_eq_none.1 unnamed rule mem)
      · exact Option.isSome_iff_exists.1 (List.find?_isSome.2 ⟨rule, mem, by simpa using loose⟩)
  · rintro ⟨rule, found⟩
    rcases library.find?_eq_some_iff.1 found with first | ⟨-, first⟩
    · exact ⟨rule, first.mem.1, .inl first.mem.2⟩
    · exact ⟨rule, first.mem.1, .inr first.mem.2⟩

/-- In a library of distinct names a rule is found by its name. -/
theorem means_name {rule : Rule} (distinct : library.names.Nodup) (mem : rule ∈ library.rules) :
    library.Means rule.name rule := by
  obtain ⟨earlier, later, split⟩ := List.append_of_mem mem
  refine .inl ⟨earlier, later, split, rfl, fun other before same => ?_⟩
  rw [names, split, List.map_append, List.map_cons] at distinct
  have apart := (List.nodup_append.1 distinct).2.2 other.name (List.mem_map_of_mem before)
  exact apart rule.name List.mem_cons_self same

/-! ## Selections -/

/-- The rule that a name stands for, or the name itself when there is none. -/
def lookup (name : String) : Except String Rule :=
  match library.find? name with
  | some rule => .ok rule
  | none => .error name

theorem lookup_eq_ok_iff {name : String} {rule : Rule} :
    library.lookup name = .ok rule ↔ library.Means name rule := by
  rw [← find?_eq_some_iff, lookup]
  cases library.find? name <;> simp

theorem lookup_eq_error_iff {name failed : String} :
    library.lookup name = .error failed ↔ name = failed ∧ ¬ library.Knows name := by
  rw [knows_iff, lookup]
  cases library.find? name <;> simp

theorem select_eq (text : String) :
    library.select text = (selectionNames text).mapM library.lookup := rfl

theorem select_eq_ok_iff {text : String} {rules : List Rule} :
    library.select text = .ok rules ↔
      List.Forall₂ library.Means (selectionNames text) rules := by
  simp only [select_eq, mapM_eq_ok_iff, lookup_eq_ok_iff]

theorem select_eq_error_iff {text name : String} :
    library.select text = .error name ↔ library.FirstUnknown (selectionNames text) name := by
  have known : ∀ other, (∃ rule, library.lookup other = .ok rule) ↔ library.Knows other := by
    simp [lookup_eq_ok_iff, knows_iff, find?_eq_some_iff]
  rw [select_eq, mapM_eq_error_iff, FirstUnknown]
  simp only [known, lookup_eq_error_iff]
  constructor
  · rintro ⟨before, _, after, split, found, rfl, unknown⟩
    exact ⟨before, after, split, found, unknown⟩
  · rintro ⟨before, after, split, found, unknown⟩
    exact ⟨before, name, after, split, found, rfl, unknown⟩

theorem knows_of_means {names : List String} {rules : List Rule}
    (all : List.Forall₂ library.Means names rules) : ∀ name ∈ names, library.Knows name := by
  induction all with
  | nil => simp
  | cons first _ ih =>
    have known := library.knows_iff.2 ⟨_, library.find?_eq_some_iff.2 first⟩
    exact List.forall_mem_cons.2 ⟨known, ih⟩

theorem exists_select_eq_error_iff {text : String} :
    (∃ name, library.select text = .error name) ↔
      ∃ name ∈ selectionNames text, ¬ library.Knows name := by
  constructor
  · rintro ⟨name, failed⟩
    obtain ⟨known, rest, split, -, unknown⟩ := library.select_eq_error_iff.1 failed
    exact ⟨name, by simp [split], unknown⟩
  · rintro ⟨name, mem, unknown⟩
    cases selected : library.select text with
    | error failed => exact ⟨failed, rfl⟩
    | ok rules =>
      have all := library.select_eq_ok_iff.1 selected
      exact absurd (library.knows_of_means all name mem) unknown

/-- Rules written down by their names, with any blanks and commas between, are selected in the
order written. Whatever a text says, it lists names; the first that no rule has is refused, and
otherwise every name selects the rule that it stands for. -/
theorem select_lists :
    (library.names.Nodup → ∀ (rules : List Rule) (pieces : List String),
      (∀ rule ∈ rules, rule ∈ library.rules ∧ Selectable rule.name) →
      Holds pieces (rules.map (·.name)) →
      library.select (",".intercalate pieces) = .ok rules) ∧
    ∀ text, (∃ names, Lists text names) ∧ ∀ names, Lists text names →
      ((∃ name, library.select text = .error name) ↔ ∃ name ∈ names, ¬ library.Knows name) ∧
      (∀ name, library.select text = .error name ↔ library.FirstUnknown names name) ∧
      ∀ rules, library.select text = .ok rules ↔ List.Forall₂ library.Means names rules := by
  constructor
  · intro distinct rules pieces writable holds
    have selectable : ∀ name ∈ rules.map (·.name), Selectable name := by
      simpa using fun rule mem => (writable rule mem).2
    rw [select_eq_ok_iff, ← lists_iff.1 (holds.lists selectable), List.forall₂_map_left_iff,
      List.forall₂_same]
    exact fun rule mem => library.means_name distinct (writable rule mem).1
  · refine fun text => ⟨⟨_, lists_iff.2 rfl⟩, fun names lists => ?_⟩
    rw [lists_iff.1 lists]
    exact ⟨library.exists_select_eq_error_iff, fun name => library.select_eq_error_iff,
      fun rules => library.select_eq_ok_iff⟩

/-- Two rules whose names have the same keyword, a text that selects both, and one that names no
rule in its second place. -/
theorem select_lists_colliding :
    let big : Rule := { name := "big_bet", tags := [] }
    let bet : Rule := { name := "Big Bet", tags := [] }
    let library : Library := ⟨[big, bet]⟩
    (library.names.Nodup ∧ keyword big.name = keyword bet.name ∧
      library.select " Big Bet,, big_bet,Big Bet" = .ok [bet, big, bet]) ∧
    Lists "bigbet, Bluff, Fold" ["bigbet", "Bluff", "Fold"] ∧
      library.select "bigbet, Bluff, Fold" = .error "Bluff" := by
  intro big bet library
  have distinct : library.names.Nodup := by decide
  have space : Blank " " := by simp [Blank, isBlank]
  have empty : Blank "" := by simp [Blank]
  have writable : ∀ rule ∈ [bet, big, bet], rule ∈ library.rules ∧ Selectable rule.name := by
    have first : Selectable big.name := ⟨by decide +kernel, by decide, by decide⟩
    have second : Selectable bet.name := ⟨by decide +kernel, by decide, by decide⟩
    simp [library, first, second]
  have holds : Holds [" " ++ bet.name ++ "", "", " " ++ big.name ++ "", "" ++ bet.name ++ ""]
      ([bet, big, bet].map (·.name)) :=
    .name space empty (.blank empty (.name space empty (.name empty empty .nil)))
  have lists : Lists "bigbet, Bluff, Fold" ["bigbet", "Bluff", "Fold"] :=
    lists_iff.2 (by decide +kernel)
  have unknown : library.FirstUnknown ["bigbet", "Bluff", "Fold"] "Bluff" :=
    ⟨["bigbet"], ["Fold"], rfl, by unfold Knows; decide +kernel, by unfold Knows; decide +kernel⟩
  have text : ",".intercalate
      [" " ++ bet.name ++ "", "", " " ++ big.name ++ "", "" ++ bet.name ++ ""] =
        " Big Bet,, big_bet,Big Bet" := by
    decide +kernel
  refine ⟨⟨distinct, by decide +kernel, ?_⟩, lists, ?_⟩
  · rw [← text]
    exact (select_lists library).1 distinct _ _ writable holds
  · exact (((select_lists library).2 _).2 _ lists).2.1 "Bluff" |>.2 unknown

end Library

end Roshambo
