import Roshambo.Json.Value

/-!
# Tokens of JSON text

A text is cut into tokens by a machine that takes one character at a time. Words, which are numbers
and the three names, run up to the next character that cannot be part of one; strings keep their
escapes as code units until they close, since two units may make one character.
-/
namespace Roshambo.Json

inductive Token where
  | openArr
  | closeArr
  | openObj
  | closeObj
  | comma
  | colon
  | scalar (value : Value)
  /-- A string, or nothing when its code units make no text. -/
  | text (s : Option String)

/-! ## Numbers -/

def digitsValue (cs : List Char) : Nat :=
  cs.foldl (fun n c => 10 * n + (c.toNat - 48)) 0

/-- The exponent that ends a number; nothing left over. -/
def exponentOf? : List Char → Option Int
  | [] => some 0
  | mark :: cs =>
    let (negative, digits) :=
      match cs with
      | '-' :: digits => (true, digits)
      | '+' :: digits => (false, digits)
      | digits => (false, digits)
    if (mark == 'e' || mark == 'E') && !digits.isEmpty && digits.all Char.isDigit then
      some (if negative then -(digitsValue digits : Int) else digitsValue digits)
    else none

/-- The digits after the point, if there is one, and the rest. A point without digits is no
number. -/
def fractionOf? : List Char → Option (List Char × List Char)
  | '.' :: cs =>
    let digits := cs.takeWhile Char.isDigit
    if digits.isEmpty then none else some (digits, cs.dropWhile Char.isDigit)
  | cs => some ([], cs)

/-- A number without its sign. A leading zero stands alone. -/
def unsignedOf? (negative : Bool) (cs : List Char) : Option Value := do
  let whole := cs.takeWhile Char.isDigit
  if whole.isEmpty || (whole.head? == some '0' && whole.length != 1) then none
  let rest := cs.dropWhile Char.isDigit
  let (fraction, rest) ← fractionOf? rest
  let exponent ← exponentOf? rest
  let digits := digitsValue (whole ++ fraction)
  if cs.all Char.isDigit && !(negative && digits == 0) then
    some (.int (if negative then -(digits : Int) else digits))
  else some (.real ⟨negative, digits, exponent - fraction.length⟩)

def numberOf? : List Char → Option Value
  | '-' :: cs => unsignedOf? true cs
  | cs => unsignedOf? false cs

/-- The value of a word. -/
def wordOf? (cs : List Char) : Option Value :=
  if cs = "null".toList then some .null
  else if cs = "true".toList then some (.bool true)
  else if cs = "false".toList then some (.bool false)
  else numberOf? cs

/-! ## Strings -/

/-- A part of a string between the quotes: a character that stands for itself, or a code unit that
an escape gives in hexadecimal. -/
inductive Piece where
  | char (c : Char)
  | unit (n : Nat)

def isHighSurrogate (n : Nat) : Bool := 0xD800 ≤ n && n ≤ 0xDBFF

def isLowSurrogate (n : Nat) : Bool := 0xDC00 ≤ n && n ≤ 0xDFFF

/-- The characters that pieces make: a high surrogate needs a low one behind it, and a low one a
high one before it. -/
def charsOfPieces? : List Piece → Option (List Char)
  | [] => some []
  | .char c :: rest => (charsOfPieces? rest).map (c :: ·)
  | .unit high :: .unit low :: rest =>
    if isHighSurrogate high then
      if isLowSurrogate low then
        (charsOfPieces? rest).map
          (Char.ofNat (0x10000 + (high - 0xD800) * 0x400 + (low - 0xDC00)) :: ·)
      else none
    else if isLowSurrogate high then none
    else (charsOfPieces? (.unit low :: rest)).map (Char.ofNat high :: ·)
  | .unit n :: rest =>
    if isHighSurrogate n || isLowSurrogate n then none
    else (charsOfPieces? rest).map (Char.ofNat n :: ·)

def hexDigit? (c : Char) : Option Nat :=
  if c.isDigit then some (c.toNat - 48)
  else if 'a' ≤ c && c ≤ 'f' then some (c.toNat - 87)
  else if 'A' ≤ c && c ≤ 'F' then some (c.toNat - 55)
  else none

/-- The character that a one-letter escape stands for. -/
def escapeOf? : Char → Option Char
  | '"' => some '"'
  | '\\' => some '\\'
  | '/' => some '/'
  | 'b' => some (Char.ofNat 8)
  | 'f' => some (Char.ofNat 12)
  | 'n' => some '\n'
  | 'r' => some '\r'
  | 't' => some '\t'
  | _ => none

/-! ## The machine -/

/-- Where the machine stands. Pieces and words are kept latest first. -/
inductive Scan where
  | between
  | word (chars : List Char)
  | string (pieces : List Piece)
  | escape (pieces : List Piece)
  | hex (pieces : List Piece) (digits value : Nat)

def isWordChar (c : Char) : Bool :=
  c.isAlphanum || c == '-' || c == '+' || c == '.'

/-- A character outside words and strings. -/
def Scan.outside (c : Char) : Option (List Token × Scan) :=
  match c with
  | ' ' | '\n' | '\r' | '\t' => some ([], .between)
  | '[' => some ([.openArr], .between)
  | ']' => some ([.closeArr], .between)
  | '\x7b' => some ([.openObj], .between)
  | '\x7d' => some ([.closeObj], .between)
  | ',' => some ([.comma], .between)
  | ':' => some ([.colon], .between)
  | '"' => some ([], .string [])
  | _ => if isWordChar c then some ([], .word [c]) else none

/-- One character: the tokens that it completes, and where the machine stands then. Control
characters have no place in a string. -/
def Scan.step (scan : Scan) (c : Char) : Option (List Token × Scan) :=
  match scan with
  | .between => outside c
  | .word chars =>
    if isWordChar c then some ([], .word (c :: chars))
    else do
      let value ← wordOf? chars.reverse
      let (tokens, scan) ← outside c
      some (.scalar value :: tokens, scan)
  | .string pieces =>
    if c == '"' then
      some ([.text ((charsOfPieces? pieces.reverse).map String.ofList)], .between)
    else if c == '\\' then some ([], .escape pieces)
    else if c.toNat < 0x20 then none
    else some ([], .string (.char c :: pieces))
  | .escape pieces =>
    if c == 'u' then some ([], .hex pieces 0 0)
    else (escapeOf? c).map fun e => ([], .string (.char e :: pieces))
  | .hex pieces digits value =>
    (hexDigit? c).map fun d =>
      let value := 16 * value + d
      if digits = 3 then ([], .string (.unit value :: pieces))
      else ([], .hex pieces (digits + 1) value)

/-- The tokens that the end of the text completes. -/
def Scan.finish : Scan → Option (List Token)
  | .between => some []
  | .word chars => (wordOf? chars.reverse).map fun value => [.scalar value]
  | _ => none

/-- The tokens of a text, behind those already found, which are kept latest first. -/
def Scan.run (scan : Scan) (found : List Token) : List Char → Option (List Token)
  | [] => scan.finish.map (found.reverse ++ ·)
  | c :: cs =>
    match scan.step c with
    | some (tokens, scan) => scan.run (tokens.reverse ++ found) cs
    | none => none

def tokensOf? (s : String) : Option (List Token) := Scan.between.run [] s.toList

end Roshambo.Json
