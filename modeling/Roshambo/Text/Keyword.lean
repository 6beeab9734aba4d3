import Roshambo.Text.Blank
import Roshambo.Text.Lowercase

/-!
# Keywords

Authors spell the names of kinds and rules freely. Two spellings count as one when they agree after
trimming, without underscores, hyphens and spaces, and in lower case; that common form is the
keyword. `keyword_eq_iff` reduces equality to the characters kept.
-/
namespace Roshambo.Text

/-- Underscore, hyphen and space carry no meaning inside a name. -/
def isSeparator (c : Char) : Bool :=
  c == '_' || c == '-' || c == ' '

def keywordChars (cs : List Char) : List Char :=
  ((trimChars cs).filter (!isSeparator ·)).flatMap lower

/-- The form in which names are compared. -/
def keyword (s : String) : String :=
  String.ofList (keywordChars s.toList)

theorem keyword_eq_iff {s t : String} :
    keyword s = keyword t ↔ keywordChars s.toList = keywordChars t.toList :=
  ⟨fun h => by simpa [keyword] using congrArg String.toList h, fun h => by rw [keyword, keyword, h]⟩

/-- What a name stands for according to a table from keywords to meanings. -/
def lookupKeyword {α : Type} (table : List (String × α)) (name : String) : Option α :=
  table.lookup (keyword name)

theorem lookupKeyword_congr {α : Type} {table : List (String × α)} {s t : String}
    (h : keyword s = keyword t) : lookupKeyword table s = lookupKeyword table t := by
  simp [lookupKeyword, h]

theorem lookupKeyword_trim {α : Type} (table : List (String × α)) (name : String) :
    lookupKeyword table (trim name) = lookupKeyword table name :=
  lookupKeyword_congr (keyword_eq_iff.2 (by simp [keywordChars, trim, trimChars_trimChars]))

/-- A field left open by the author: blank, or the word none in any case. -/
def isUnset (s : String) : Bool :=
  let cs := trimChars s.toList
  cs.isEmpty || cs.map Char.toLower == ['n', 'o', 'n', 'e']

theorem isUnset_trim (s : String) : isUnset (trim s) = isUnset s := by
  simp [isUnset, trim, trimChars_trimChars]

end Roshambo.Text
