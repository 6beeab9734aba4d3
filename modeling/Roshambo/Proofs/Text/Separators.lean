import Mathlib.Data.List.Basic
import Mathlib.Data.List.TakeWhile
import Mathlib.Logic.Relation
import Mathlib.Tactic.Tauto
import Roshambo.Text.Keyword

/-!
# Separators in names

A keyword has no separators, but a text is trimmed before they are dropped, and an underscore or a
hyphen at an end keeps the blanks behind it from being trimmed. Such blanks other than spaces are
shielded: they stay in the keyword. Anywhere else a separator may be put in or left out
(`keywordChars_insert_iff`), so spellings that differ in nothing else are read alike. What a keyword
keeps of a text without shielded blanks has no blanks at its ends (`trimChars_kept`), so in ASCII it
is read as itself.
-/
namespace Roshambo.Text

/-! ## What a keyword keeps -/

/-- The characters that are no separators. -/
def letters (cs : List Char) : List Char := cs.filter (!isSeparator ·)

/-- What a keyword keeps of a text, before it is put in lower case. -/
def kept (cs : List Char) : List Char := letters (trimChars cs)

/-- The blanks other than spaces that trimming takes from the front of a text. -/
def margin (cs : List Char) : List Char := letters (cs.takeWhile isBlank)

theorem keywordChars_eq (cs : List Char) : keywordChars cs = (kept cs).flatMap lower := rfl

@[simp] theorem letters_append (xs ys : List Char) :
    letters (xs ++ ys) = letters xs ++ letters ys := List.filter_append xs ys

@[simp] theorem letters_reverse (cs : List Char) : letters cs.reverse = (letters cs).reverse :=
  List.filter_reverse

theorem mem_letters {cs : List Char} {c : Char} :
    c ∈ letters cs ↔ c ∈ cs ∧ isSeparator c = false := by
  simp [letters]

theorem letters_insert {c : Char} (separator : isSeparator c = true) (xs ys : List Char) :
    letters (xs ++ c :: ys) = letters (xs ++ ys) := by
  simp [letters, separator]

theorem kept_reverse (cs : List Char) : kept cs.reverse = (kept cs).reverse := by
  rw [kept, trimChars_reverse, letters_reverse, ← kept]

/-- The space is the only separator that is blank. -/
theorem isBlank_iff_of_isSeparator {c : Char} (separator : isSeparator c = true) :
    isBlank c = true ↔ c = ' ' := by
  simp only [isSeparator, Bool.or_eq_true, beq_iff_eq] at separator
  obtain (rfl | rfl) | rfl := separator <;> decide

theorem isBlank_eq_false_of_isSeparator {c : Char} (separator : isSeparator c = true)
    (other : c ≠ ' ') : isBlank c = false := by
  simpa using mt (isBlank_iff_of_isSeparator separator).1 other

theorem kept_of_blank {cs : List Char} (blank : ∀ c ∈ cs, isBlank c = true) : kept cs = [] := by
  have gone := trimChars_blanks_append blank []
  rw [List.append_nil] at gone
  rw [kept, gone]
  rfl

/-- The blanks in front end where something else comes. -/
theorem takeWhile_append_of_solid {xs : List Char} (solid : ¬ ∀ c ∈ xs, isBlank c = true)
    (ys : List Char) : (xs ++ ys).takeWhile isBlank = xs.takeWhile isBlank := by
  rw [List.takeWhile_append, if_neg]
  intro whole
  have all := (List.takeWhile_prefix isBlank).eq_of_length whole
  exact solid (List.takeWhile_eq_self_iff.1 all)

/-- A text that is not all blank is what trimming leaves between the blanks at its ends. -/
theorem eq_blanks_append_trimChars {cs : List Char} (solid : ¬ ∀ c ∈ cs, isBlank c = true) :
    cs = cs.takeWhile isBlank ++ trimChars cs ++ (cs.reverse.takeWhile isBlank).reverse := by
  let middle := cs.dropWhile isBlank
  have front : cs.takeWhile isBlank ++ middle = cs := List.takeWhile_append_dropWhile
  have some : ¬ ∀ c ∈ middle.reverse, isBlank c = true := by
    intro blank
    refine solid fun c mem => ?_
    rw [← front] at mem
    rcases List.mem_append.1 mem with mem | mem
    · exact List.mem_takeWhile_imp mem
    · exact blank c (List.mem_reverse.2 mem)
  have tail : cs.reverse.takeWhile isBlank = middle.reverse.takeWhile isBlank := by
    have turned : cs.reverse = middle.reverse ++ (cs.takeWhile isBlank).reverse := by
      rw [← List.reverse_append, front]
    rw [turned, takeWhile_append_of_solid some]
  have back : trimChars cs ++ (middle.reverse.takeWhile isBlank).reverse = middle := by
    rw [trimChars, ← List.reverse_append, List.takeWhile_append_dropWhile, List.reverse_reverse]
  calc cs
    _ = cs.takeWhile isBlank ++ middle := front.symm
    _ = cs.takeWhile isBlank ++ (trimChars cs ++ (middle.reverse.takeWhile isBlank).reverse) := by
      rw [back]
    _ = cs.takeWhile isBlank ++ trimChars cs ++ (cs.reverse.takeWhile isBlank).reverse := by
      rw [tail, List.append_assoc]

theorem letters_eq_margins {cs : List Char} (solid : ¬ ∀ c ∈ cs, isBlank c = true) :
    letters cs = margin cs ++ kept cs ++ (margin cs.reverse).reverse := by
  have split := congrArg letters (eq_blanks_append_trimChars solid)
  rwa [letters_append, letters_append, letters_reverse] at split

/-! ## One more separator -/

/-- The part of the margin that `inner` adds behind `outer`: something between the two would keep
it from being trimmed. -/
def innerMargin (outer inner : List Char) : List Char :=
  if outer.all isBlank then margin inner else []

theorem margin_append (xs ys : List Char) : margin (xs ++ ys) = margin xs ++ innerMargin xs ys := by
  unfold margin innerMargin
  by_cases blank : ∀ c ∈ xs, isBlank c = true
  · rw [if_pos (List.all_eq_true.2 blank), List.takeWhile_append_of_pos blank,
      List.takeWhile_eq_self_iff.2 blank, letters_append, margin]
  · rw [if_neg (mt List.all_eq_true.1 blank), List.append_nil, takeWhile_append_of_solid blank]

theorem innerMargin_space (outer inner : List Char) :
    innerMargin outer (' ' :: inner) = innerMargin outer inner := rfl

theorem innerMargin_of_solid {c : Char} (solid : isBlank c = false) (outer inner : List Char) :
    innerMargin outer (c :: inner) = [] := by
  simp [innerMargin, margin, solid, letters]

theorem reverse_insert (xs ys : List Char) (c : Char) :
    (xs ++ c :: ys).reverse = ys.reverse ++ c :: xs.reverse := by
  simp

theorem forall_mem_insert {P : Char → Prop} {xs ys : List Char} {c : Char} :
    (∀ d ∈ xs ++ c :: ys, P d) ↔ P c ∧ ∀ d ∈ xs ++ ys, P d := by
  simp only [List.forall_mem_append, List.forall_mem_cons]
  tauto

/-- A space more is not kept. -/
theorem kept_insert_space (xs ys : List Char) : kept (xs ++ ' ' :: ys) = kept (xs ++ ys) := by
  by_cases blank : ∀ c ∈ xs ++ ys, isBlank c = true
  · rw [kept_of_blank blank, kept_of_blank (forall_mem_insert.2 ⟨rfl, blank⟩)]
  · have still : ¬ ∀ c ∈ xs ++ ' ' :: ys, isBlank c = true := fun more =>
      blank (forall_mem_insert.1 more).2
    have before := letters_eq_margins blank
    have after := letters_eq_margins still
    -- A space belongs to the margins, but is no letter, so the three parts are what they were.
    rw [letters_insert rfl, reverse_insert, margin_append, innerMargin_space, ← margin_append,
      margin_append ys.reverse, innerMargin_space, ← margin_append, ← List.reverse_append,
      before] at after
    simpa using after.symm

/-- Another separator in a text that is not all blank is not kept, but what it shields is. -/
theorem kept_insert {c : Char} (separator : isSeparator c = true) (unblank : isBlank c = false)
    {xs ys : List Char} (solid : ¬ ∀ d ∈ xs ++ ys, isBlank d = true) :
    kept (xs ++ c :: ys) =
      innerMargin xs ys ++ kept (xs ++ ys) ++ (innerMargin ys.reverse xs.reverse).reverse := by
  have still : ¬ ∀ d ∈ xs ++ c :: ys, isBlank d = true := fun more =>
    solid (forall_mem_insert.1 more).2
  have before := letters_eq_margins solid
  have after := letters_eq_margins still
  -- The letters are the same; the margins end at the separator now, and the rest is kept.
  rw [letters_insert separator, reverse_insert, margin_append, innerMargin_of_solid unblank,
    margin_append ys.reverse, innerMargin_of_solid unblank, before, List.reverse_append,
    margin_append, margin_append] at after
  have inMargins : margin xs ++ (kept (xs ++ c :: ys) ++ (margin ys.reverse).reverse) =
      margin xs ++ (innerMargin xs ys ++ kept (xs ++ ys) ++
        (innerMargin ys.reverse xs.reverse).reverse ++ (margin ys.reverse).reverse) := by
    simpa using after.symm
  exact List.append_cancel_right (List.append_cancel_left inMargins)

/-- Something between `outer` and `inner` would shield a blank other than a space: up to the end on
its one side all is blank, and on the other a blank other than a space comes before the rest. -/
def Shields (outer inner : List Char) : Prop :=
  (∀ c ∈ outer, isBlank c = true) ∧ (∃ c ∈ inner.takeWhile isBlank, c ≠ ' ') ∧
    ∃ c ∈ inner, isBlank c = false

/-- The separator may stand between these parts of a text: it is a space, or it shields nothing
from being trimmed at either end. -/
def Harmless (c : Char) (before after : List Char) : Prop :=
  c = ' ' ∨ ¬ Shields before after ∧ ¬ Shields after.reverse before.reverse

theorem margin_eq_nil_iff {cs : List Char} :
    margin cs = [] ↔ ¬ ∃ c ∈ cs.takeWhile isBlank, c ≠ ' ' := by
  simp only [List.eq_nil_iff_forall_not_mem, margin, mem_letters, not_exists, not_and, ne_eq,
    not_not]
  refine forall_congr' fun c => ⟨fun none mem => ?_, fun space mem => ?_⟩
  · have separator : isSeparator c = true := by simpa using none mem
    exact (isBlank_iff_of_isSeparator separator).1 (List.mem_takeWhile_imp mem)
  · rw [space mem]
    decide

theorem innerMargin_eq_nil_iff {outer inner : List Char}
    (solid : ¬ ∀ c ∈ outer ++ inner, isBlank c = true) :
    innerMargin outer inner = [] ↔ ¬ Shields outer inner := by
  unfold innerMargin Shields
  by_cases blank : ∀ c ∈ outer, isBlank c = true
  · have some : ¬ ∀ c ∈ inner, isBlank c = true := fun all =>
      solid (List.forall_mem_append.2 ⟨blank, all⟩)
    rw [if_pos (List.all_eq_true.2 blank), margin_eq_nil_iff, not_iff_not]
    exact ⟨fun first => ⟨blank, first, by simpa using some⟩, fun shields => shields.2.1⟩
  · rw [if_neg (mt List.all_eq_true.1 blank)]
    exact iff_of_true rfl fun shields => blank shields.1

/-- Lower case loses no character. -/
theorem flatMap_lower_eq_iff {before cs after : List Char} :
    (before ++ cs ++ after).flatMap lower = cs.flatMap lower ↔ before = [] ∧ after = [] := by
  have empty : ∀ {cs : List Char}, cs.flatMap lower = [] → cs = [] := by
    intro cs none
    refine List.eq_nil_iff_forall_not_mem.2 fun c mem => lower_ne_nil c ?_
    exact List.flatMap_eq_nil_iff.1 none c mem
  constructor
  · intro same
    have length := congrArg List.length same
    simp only [List.flatMap_append, List.length_append] at length
    exact ⟨empty (List.length_eq_zero_iff.1 (by omega)),
      empty (List.length_eq_zero_iff.1 (by omega))⟩
  · rintro ⟨rfl, rfl⟩
    simp

/-- A separator can be put into a text without changing its keyword just where it is harmless. -/
theorem keywordChars_insert_iff {c : Char} (separator : isSeparator c = true)
    (xs ys : List Char) :
    keywordChars (xs ++ c :: ys) = keywordChars (xs ++ ys) ↔ Harmless c xs ys := by
  by_cases space : c = ' '
  · simp [Harmless, space, keywordChars_eq, kept_insert_space]
  · have unblank : isBlank c = false := isBlank_eq_false_of_isSeparator separator space
    rw [keywordChars_eq, keywordChars_eq]
    -- Among nothing but blanks the separator shields none: they go from both sides of it.
    by_cases blank : ∀ d ∈ xs ++ ys, isBlank d = true
    · obtain ⟨front, back⟩ := List.forall_mem_append.1 blank
      have alone : kept (xs ++ [c] ++ ys) = [] := by
        rw [kept, trimChars_append_blanks back, trimChars_blanks_append front]
        simp [letters, trimChars, unblank, separator]
      rw [kept_of_blank blank, List.append_cons, alone]
      refine iff_of_true rfl (.inr ⟨?_, ?_⟩)
      · rintro ⟨-, -, d, mem, solid⟩
        simp [back d mem] at solid
      · rintro ⟨-, -, d, mem, solid⟩
        simp [front d (List.mem_reverse.1 mem)] at solid
    · have turned : ¬ ∀ d ∈ ys.reverse ++ xs.reverse, isBlank d = true := by
        intro all
        refine blank fun d mem => all d ?_
        rw [← List.reverse_append]
        exact List.mem_reverse.2 mem
      rw [kept_insert separator unblank blank, flatMap_lower_eq_iff, List.reverse_eq_nil_iff,
        innerMargin_eq_nil_iff blank, innerMargin_eq_nil_iff turned]
      exact (or_iff_right space).symm

/-! ## Spellings -/

/-- The second text is the first with one more separator, at a place where it is harmless. -/
def Inserted (cs cs' : List Char) : Prop :=
  ∃ c before after, isSeparator c = true ∧ Harmless c before after ∧
    cs = before ++ after ∧ cs' = before ++ c :: after

/-- Putting in and leaving out harmless separators makes one text of the other. -/
def Respelled : List Char → List Char → Prop := Relation.EqvGen Inserted

theorem Respelled.keywordChars_eq {cs cs' : List Char} (respelled : Respelled cs cs') :
    keywordChars cs = keywordChars cs' := by
  induction respelled with
  | rel _ _ inserted =>
    obtain ⟨c, before, after, separator, harmless, rfl, rfl⟩ := inserted
    exact ((keywordChars_insert_iff separator before after).2 harmless).symm
  | refl => rfl
  | symm _ _ _ ih => exact ih.symm
  | trans _ _ _ _ _ first second => exact first.trans second

/-- Trimming leaves a blank other than a space, though there are only blanks and separators before
it. -/
def ShieldedInFront (cs : List Char) : Prop :=
  ∃ before b after, cs = before ++ b :: after ∧ isBlank b = true ∧ b ≠ ' ' ∧
    (∀ c ∈ before, isBlank c = true ∨ isSeparator c = true) ∧
    (∃ c ∈ before, isBlank c = false) ∧ ∃ c ∈ after, isBlank c = false

/-- A separator of the text shields a blank from being trimmed, at either end. -/
def Shielded (cs : List Char) : Prop := ShieldedInFront cs ∨ ShieldedInFront cs.reverse

/-- In a text without blanks other than spaces nothing is shielded. -/
theorem not_shielded_of_spaces {cs : List Char} (spaces : ∀ c ∈ cs, isBlank c = true → c = ' ') :
    ¬ Shielded cs := by
  have none : ∀ cs' : List Char, (∀ c ∈ cs', c ∈ cs) → ¬ ShieldedInFront cs' := by
    rintro cs' among ⟨before, b, after, rfl, blank, other, -⟩
    exact other (spaces b (among b (by simp)) blank)
  rintro (front | back)
  · exact none cs (fun _ mem => mem) front
  · exact none cs.reverse (fun _ mem => List.mem_reverse.1 mem) back

theorem ShieldedInFront.insert {xs ys : List Char} (shielded : ShieldedInFront (xs ++ ys))
    {c : Char} (separator : isSeparator c = true) : ShieldedInFront (xs ++ c :: ys) := by
  obtain ⟨before, b, after, split, blank, other, front, ⟨d, mem, solid⟩, e, mem', solid'⟩ :=
    shielded
  have wider : ∀ before' : List Char, (∀ f ∈ before', f ∈ before ∨ f = c) →
      ∀ f ∈ before', isBlank f = true ∨ isSeparator f = true := by
    intro before' among f mem
    rcases among f mem with mem | rfl
    · exact front f mem
    · exact .inr separator
  rcases List.append_eq_append_iff.1 split with ⟨more, rfl, rfl⟩ | ⟨_ | ⟨b', more⟩, rfl, cut⟩
  · refine ⟨xs ++ c :: more, b, after, by simp, blank, other, wider _ ?_, ⟨d, ?_, solid⟩,
      e, mem', solid'⟩
    · simp only [List.mem_append, List.mem_cons]
      tauto
    · simp only [List.mem_append, List.mem_cons] at mem ⊢
      tauto
  · obtain rfl : b :: after = ys := cut
    exact ⟨before ++ [c], b, after, by simp, blank, other, wider _ (by simp),
      ⟨d, by simp [mem], solid⟩, e, mem', solid'⟩
  · obtain ⟨rfl, rfl⟩ : b = b' ∧ after = more ++ ys := List.cons_eq_cons.1 cut
    refine ⟨before, b, more ++ c :: ys, by simp, blank, other, front, ⟨d, mem, solid⟩, e, ?_,
      solid'⟩
    simp only [List.mem_append, List.mem_cons] at mem' ⊢
    tauto

theorem Shields.shieldedInFront {xs ys : List Char} (shields : Shields xs ys) {c : Char}
    (separator : isSeparator c = true) (solid : isBlank c = false) :
    ShieldedInFront (xs ++ c :: ys) := by
  obtain ⟨outer, ⟨b, first, other⟩, e, mem, solid'⟩ := shields
  obtain ⟨before, after, cut⟩ := List.append_of_mem first
  have split : ys = before ++ b :: (after ++ ys.dropWhile isBlank) := by
    rw [← List.cons_append, ← List.append_assoc, ← cut, List.takeWhile_append_dropWhile]
  have blank : ∀ f ∈ before ++ b :: after, isBlank f = true := by
    rw [← cut]
    exact fun f mem => List.mem_takeWhile_imp mem
  refine ⟨xs ++ c :: before, b, after ++ ys.dropWhile isBlank, ?_, blank b (by simp), other, ?_,
    ⟨c, by simp, solid⟩, e, ?_, solid'⟩
  · rw [List.append_assoc, List.cons_append, ← split]
  · intro f mem
    rcases (by simpa using mem : f ∈ xs ∨ f = c ∨ f ∈ before) with mem | rfl | mem
    · exact .inl (outer f mem)
    · exact .inr separator
    · exact .inl (blank f (List.mem_append_left _ mem))
  · rw [split] at mem
    rcases (by simpa using mem : e ∈ before ∨ e = b ∨ e ∈ after ∨ e ∈ ys.dropWhile isBlank) with
      mem | rfl | mem
    · simp [blank e (List.mem_append_left _ mem)] at solid'
    · simp [blank e (by simp)] at solid'
    · exact List.mem_append.2 mem

/-- Where nothing is shielded every separator is harmless. -/
theorem harmless_of_not_shielded {c : Char} {before after : List Char}
    (separator : isSeparator c = true) (unshielded : ¬ Shielded (before ++ c :: after)) :
    Harmless c before after := by
  by_cases space : c = ' '
  · exact .inl space
  · have solid : isBlank c = false := isBlank_eq_false_of_isSeparator separator space
    refine .inr ⟨fun shields => unshielded (.inl (shields.shieldedInFront separator solid)),
      fun shields => unshielded (.inr ?_)⟩
    rw [reverse_insert]
    exact shields.shieldedInFront separator solid

/-- A text without shielded blanks may be spelled without its separators. -/
theorem respelled_letters {cs : List Char} (unshielded : ¬ Shielded cs) :
    Respelled (letters cs) cs := by
  by_cases some : ∃ c ∈ cs, isSeparator c = true
  · obtain ⟨c, mem, separator⟩ := some
    obtain ⟨before, after, split⟩ := List.append_of_mem mem
    rw [split] at unshielded
    have rest : ¬ Shielded (before ++ after) := by
      rintro (front | back)
      · exact unshielded (.inl (front.insert separator))
      · rw [List.reverse_append] at back
        refine unshielded (.inr ?_)
        rw [reverse_insert]
        exact back.insert separator
    have last : Inserted (before ++ after) (before ++ c :: after) :=
      ⟨c, before, after, separator, harmless_of_not_shielded separator unshielded, rfl, rfl⟩
    rw [split, letters_insert separator]
    exact (respelled_letters rest).trans _ _ _ (.rel _ _ last)
  · have none : letters cs = cs := by
      refine List.filter_eq_self.2 fun c mem => ?_
      simpa using fun separator => some ⟨c, mem, separator⟩
    rw [none]
    exact .refl cs
termination_by cs.length
decreasing_by
  rw [split]
  simp

/-- Two texts that differ in separators only are spellings of each other, if neither of them has
shielded blanks. -/
theorem respelled_of_letters_eq {cs cs' : List Char} (same : letters cs = letters cs')
    (unshielded : ¬ Shielded cs) (unshielded' : ¬ Shielded cs') : Respelled cs cs' := by
  refine .trans _ _ _ (.symm _ _ (respelled_letters unshielded)) ?_
  rw [same]
  exact respelled_letters unshielded'

/-! ## Keywords of keywords -/

theorem head_trimChars {cs rest : List Char} {a : Char} (first : trimChars cs = a :: rest) :
    isBlank a = false := by
  have edge := List.head?_dropWhile_not isBlank (trimChars cs)
  rwa [dropWhile_trimChars, first] at edge

theorem shieldedInFront_of_kept {cs rest : List Char} {b : Char} (first : kept cs = b :: rest)
    (blank : isBlank b = true) : ShieldedInFront cs := by
  obtain ⟨lead, tail, split, front, -⟩ := exists_eq_append_trimChars cs
  obtain ⟨before, after, cut, dropped, letter, -⟩ := List.filter_eq_cons_iff.1 first
  have behind : (trimChars cs).reverse = after.reverse ++ b :: before.reverse := by
    simp [cut]
  rcases before with _ | ⟨d, before⟩
  · rw [head_trimChars cut] at blank
    cases blank
  rcases after.eq_nil_or_concat with rfl | ⟨after, e, rfl⟩
  · rw [← trimChars_reverse] at behind
    rw [head_trimChars behind] at blank
    cases blank
  refine ⟨lead ++ d :: before, b, after ++ [e] ++ tail, ?_, blank, ?_, ?_,
    ⟨d, by simp, head_trimChars cut⟩, e, by simp, ?_⟩
  · rw [split, cut]
    simp
  · rintro rfl
    simp [isSeparator] at letter
  · intro c mem
    rcases List.mem_append.1 mem with mem | mem
    · exact .inl (front c mem)
    · exact .inr (by simpa using dropped c mem)
  · rw [← trimChars_reverse, List.concat_eq_append, List.reverse_append] at behind
    exact head_trimChars behind

/-- Where nothing is shielded, what a keyword keeps has no blanks at its ends. -/
theorem trimChars_kept {cs : List Char} (unshielded : ¬ Shielded cs) :
    trimChars (kept cs) = kept cs := by
  have edge : ∀ cs, ¬ ShieldedInFront cs → (kept cs).dropWhile isBlank = kept cs := by
    intro cs none
    refine dropWhile_eq_self fun a head => ?_
    obtain ⟨rest, first⟩ := List.head?_eq_some_iff.1 head
    simpa using mt (shieldedInFront_of_kept first) none
  obtain ⟨front, back⟩ := not_or.1 unshielded
  rw [trimChars, edge cs front, ← kept_reverse, edge cs.reverse back, kept_reverse,
    List.reverse_reverse]

/-- The usual lower case moves nothing outside of ASCII. -/
theorem toLower_of_not_ascii {c : Char} (other : ¬ c.toNat < 128) : c.toLower = c := by
  refine dif_neg fun capital => other ?_
  have most : c.toNat ≤ 90 := UInt32.le_iff_toNat_le.1 capital.2
  omega

/-- What the usual lower case keeps of every ASCII character it keeps of all characters. -/
theorem apply_toLower {β : Type} {f : Char → β}
    (same : ∀ k : Fin 128, f (Char.ofNat k).toLower = f (Char.ofNat k)) (c : Char) :
    f c.toLower = f c := by
  by_cases ascii : c.toNat < 128
  · exact forall_ascii (P := fun c => f c.toLower = f c) same ascii
  · rw [toLower_of_not_ascii ascii]

theorem isBlank_toLower (c : Char) : isBlank c.toLower = isBlank c :=
  apply_toLower (by decide +kernel) c

theorem isSeparator_toLower (c : Char) : isSeparator c.toLower = isSeparator c :=
  apply_toLower (by decide +kernel) c

theorem toLower_toLower (c : Char) : c.toLower.toLower = c.toLower :=
  apply_toLower (by decide +kernel) c

theorem toNat_toLower_lt {c : Char} (ascii : c.toNat < 128) : c.toLower.toNat < 128 := by
  refine forall_ascii (P := fun c => c.toLower.toNat < 128) ?_ ascii
  decide +kernel

theorem trimChars_map {f : Char → Char} (same : ∀ c, isBlank (f c) = isBlank c)
    (cs : List Char) : trimChars (cs.map f) = (trimChars cs).map f := by
  have blank : isBlank ∘ f = isBlank := funext same
  simp only [trimChars, List.dropWhile_map, ← List.map_reverse, blank]

theorem mem_of_mem_kept {cs : List Char} {c : Char} (mem : c ∈ kept cs) : c ∈ cs := by
  obtain ⟨before, after, split, -⟩ := exists_eq_append_trimChars cs
  rw [split]
  simp [(mem_letters.1 mem).1]

theorem keywordChars_of_ascii {cs : List Char} (ascii : ∀ c ∈ cs, c.toNat < 128) :
    keywordChars cs = (kept cs).map Char.toLower := by
  rw [keywordChars_eq, List.map_eq_flatMap]
  exact List.flatMap_congr fun c mem => lower_of_ascii (ascii c (mem_of_mem_kept mem))

/-- In ASCII the keyword of a keyword is the keyword, where nothing is shielded. -/
theorem keywordChars_keywordChars {cs : List Char} (ascii : ∀ c ∈ cs, c.toNat < 128)
    (unshielded : ¬ Shielded cs) : keywordChars (keywordChars cs) = keywordChars cs := by
  have lowered : ∀ c ∈ (kept cs).map Char.toLower, c.toNat < 128 := by
    intro c mem
    obtain ⟨d, held, rfl⟩ := List.mem_map.1 mem
    exact toNat_toLower_lt (ascii d (mem_of_mem_kept held))
  have letters_only : letters ((kept cs).map Char.toLower) = (kept cs).map Char.toLower := by
    refine List.filter_eq_self.2 fun c mem => ?_
    obtain ⟨d, held, rfl⟩ := List.mem_map.1 mem
    simp [isSeparator_toLower, (mem_letters.1 held).2]
  calc keywordChars (keywordChars cs)
    _ = (kept ((kept cs).map Char.toLower)).map Char.toLower := by
      rw [keywordChars_of_ascii ascii, keywordChars_of_ascii lowered]
    _ = ((kept cs).map Char.toLower).map Char.toLower := by
      rw [kept, trimChars_map isBlank_toLower, trimChars_kept unshielded, letters_only]
    _ = (kept cs).map Char.toLower := by
      rw [List.map_map]
      exact List.map_congr_left fun c _ => toLower_toLower c
    _ = keywordChars cs := (keywordChars_of_ascii ascii).symm

end Roshambo.Text
