/-!
# Blank characters, trimming and splitting

Blank means the Unicode property White_Space. Names are trimmed of it, command lines are cut into
words at it, and lists of names are cut at commas. `blank_of_isWhitespace` says that the class
extends the usual five characters, `trim_trim` that a trimmed text stays as it is, and
`flatten_intersperse_pieces` that cutting loses nothing.
-/
namespace Roshambo.Text

/-- The property White_Space: twenty-five code points in ten ranges. -/
def isBlank (c : Char) : Bool :=
  let n := c.toNat
  (0x09 ≤ n && n ≤ 0x0D) || n == 0x20 || n == 0x85 || n == 0xA0 || n == 0x1680 ||
    (0x2000 ≤ n && n ≤ 0x200A) || (0x2028 ≤ n && n ≤ 0x2029) || n == 0x202F || n == 0x205F ||
    n == 0x3000

theorem blank_of_isWhitespace {c : Char} (h : c.isWhitespace = true) : isBlank c = true := by
  simp only [Char.isWhitespace, Bool.or_eq_true, decide_eq_true_eq] at h
  rcases h with ((rfl | rfl) | rfl) | rfl <;> decide

/-- The characters without the blank ones at both ends. -/
def trimChars (cs : List Char) : List Char :=
  ((cs.dropWhile isBlank).reverse.dropWhile isBlank).reverse

def trim (s : String) : String :=
  String.ofList (trimChars s.toList)

theorem dropWhile_eq_self {α : Type} {p : α → Bool} {l : List α}
    (front : ∀ a, l.head? = some a → p a = false) : l.dropWhile p = l := by
  cases l with
  | nil => rfl
  | cons a l => simp [front a rfl]

/-- A trimmed text has no blank in front. -/
theorem dropWhile_trimChars (cs : List Char) :
    (trimChars cs).dropWhile isBlank = trimChars cs := by
  obtain ⟨rest, split⟩ : trimChars cs <+: cs.dropWhile isBlank := by
    rw [← List.reverse_suffix, trimChars, List.reverse_reverse]
    exact List.dropWhile_suffix isBlank
  -- A trimmed text begins as the text without the blanks in front does, so it has none there.
  refine dropWhile_eq_self fun a head => ?_
  have first : (cs.dropWhile isBlank).head? = some a := by
    rw [← split, List.head?_append, head, Option.some_or]
  have edge := List.head?_dropWhile_not isBlank cs
  rwa [first] at edge

/-- A trimmed text has no blank behind. -/
theorem dropWhile_reverse_trimChars (cs : List Char) :
    (trimChars cs).reverse.dropWhile isBlank = (trimChars cs).reverse := by
  refine dropWhile_eq_self fun a head => ?_
  have edge := List.head?_dropWhile_not isBlank (cs.dropWhile isBlank).reverse
  rw [trimChars, List.reverse_reverse] at head
  rwa [head] at edge

theorem trimChars_trimChars (cs : List Char) : trimChars (trimChars cs) = trimChars cs := by
  rw [trimChars, dropWhile_trimChars, dropWhile_reverse_trimChars, List.reverse_reverse]

@[simp] theorem trim_trim (s : String) : trim (trim s) = trim s := by
  simp [trim, trimChars_trimChars]

/-- Blank characters in front do not count. -/
theorem trimChars_blanks_append {blanks : List Char} (h : ∀ c ∈ blanks, isBlank c = true)
    (cs : List Char) : trimChars (blanks ++ cs) = trimChars cs := by
  rw [trimChars, List.dropWhile_append_of_pos h, ← trimChars]

/-- Blank characters behind do not count. -/
theorem trimChars_append_blanks {blanks : List Char} (h : ∀ c ∈ blanks, isBlank c = true)
    (cs : List Char) : trimChars (cs ++ blanks) = trimChars cs := by
  have back : ∀ c ∈ blanks.reverse, isBlank c = true := by simpa using h
  rw [trimChars, trimChars, List.dropWhile_append]
  split
  · rename_i none_left
    rw [List.isEmpty_iff.1 none_left, ← List.append_nil blanks, List.dropWhile_append_of_pos h]
    rfl
  · rw [List.reverse_append, List.dropWhile_append_of_pos back]

/-- Trimming takes away blank characters only. -/
theorem exists_eq_append_trimChars (cs : List Char) : ∃ before after,
    cs = before ++ trimChars cs ++ after ∧ (∀ c ∈ before, isBlank c = true) ∧
      ∀ c ∈ after, isBlank c = true := by
  let middle := cs.dropWhile isBlank
  have front : cs.takeWhile isBlank ++ middle = cs := List.takeWhile_append_dropWhile
  have back : trimChars cs ++ (middle.reverse.takeWhile isBlank).reverse = middle := by
    rw [trimChars, ← List.reverse_append, List.takeWhile_append_dropWhile, List.reverse_reverse]
  refine ⟨cs.takeWhile isBlank, (middle.reverse.takeWhile isBlank).reverse, ?_, ?_, ?_⟩
  · rw [List.append_assoc, back, front]
  · exact fun c mem => List.all_eq_true.1 List.all_takeWhile c mem
  · exact fun c mem => List.all_eq_true.1 List.all_takeWhile c (List.mem_reverse.1 mem)

theorem trimChars_reverse (cs : List Char) : trimChars cs.reverse = (trimChars cs).reverse := by
  obtain ⟨before, after, split, front, back⟩ := exists_eq_append_trimChars cs
  have turned : cs.reverse = after.reverse ++ ((trimChars cs).reverse ++ before.reverse) :=
    (congrArg List.reverse split).trans (by simp)
  rw [turned, trimChars_blanks_append (by simpa using back),
    trimChars_append_blanks (by simpa using front), trimChars, dropWhile_reverse_trimChars,
    List.reverse_reverse, dropWhile_trimChars]

/-- The parts between breaks, empty ones included. -/
def pieces (isBreak : Char → Bool) : List Char → List (List Char)
  | [] => [[]]
  | c :: cs =>
    if isBreak c then [] :: pieces isBreak cs
    else
      match pieces isBreak cs with
      | [] => [[c]]
      | piece :: rest => (c :: piece) :: rest

theorem pieces_ne_nil (isBreak : Char → Bool) (cs : List Char) : pieces isBreak cs ≠ [] := by
  cases cs with
  | nil => simp [pieces]
  | cons c cs =>
    simp only [pieces]
    split
    · simp
    · split <;> simp

/-- No piece holds a break. -/
theorem not_isBreak_of_mem_pieces {isBreak : Char → Bool} {cs piece : List Char} {c : Char}
    (hp : piece ∈ pieces isBreak cs) (hc : c ∈ piece) : isBreak c = false := by
  induction cs generalizing piece with
  | nil => simp_all [pieces]
  | cons d ds ih =>
    simp only [pieces] at hp
    split at hp
    · rcases List.mem_cons.1 hp with rfl | h
      · simp at hc
      · exact ih h hc
    · rename_i hd
      split at hp
      · rename_i h
        exact absurd h (pieces_ne_nil isBreak ds)
      · rename_i first rest h
        rcases List.mem_cons.1 hp with rfl | hr
        · rcases List.mem_cons.1 hc with rfl | hm
          · simpa using hd
          · exact ih (h ▸ List.mem_cons_self) hm
        · exact ih (h ▸ List.mem_cons_of_mem _ hr) hc

/-- Cutting at one character and joining with it gives the text back. -/
theorem flatten_intersperse_pieces (b : Char) (cs : List Char) :
    (List.intersperse [b] (pieces (· == b) cs)).flatten = cs := by
  induction cs with
  | nil => rfl
  | cons c cs ih =>
    simp only [pieces]
    split
    · rename_i h
      cases hp : pieces (· == b) cs with
      | nil => exact absurd hp (pieces_ne_nil _ cs)
      | cons piece rest =>
        rw [hp] at ih
        simp [ih, beq_iff_eq.1 h]
    · split
      · rename_i hp
        exact absurd hp (pieces_ne_nil _ cs)
      · rename_i piece rest hp
        rw [hp] at ih
        cases rest <;> simp_all [List.intersperse]

/-- The parts of a text between commas. -/
def commaPieces (s : String) : List String :=
  (pieces (· == ',') s.toList).map String.ofList

/-- The words of a line: its longest runs without a blank. -/
def words (s : String) : List String :=
  ((pieces isBlank s.toList).filter (!·.isEmpty)).map String.ofList

end Roshambo.Text
