import Roshambo.Json.Value

/-!
# JSON text of values

Values are written without blanks, members in their order. In strings, quotes, backslashes and
control characters are escaped; all else stands for itself.
-/
namespace Roshambo.Json

def hexChar (n : Nat) : Char :=
  if n < 10 then Char.ofNat (48 + n) else Char.ofNat (87 + n)

/-- A character as it stands between quotes. -/
def escapeChar (c : Char) : String :=
  if c == '"' then "\\\""
  else if c == '\\' then "\\\\"
  else if c == '\n' then "\\n"
  else if c == '\r' then "\\r"
  else if c == '\t' then "\\t"
  else if c.toNat = 8 then "\\b"
  else if c.toNat = 12 then "\\f"
  else if c.toNat < 0x20 then
    (("\\u00".push (hexChar (c.toNat / 16))).push (hexChar (c.toNat % 16)))
  else String.singleton c

def quote (s : String) : String :=
  s.toList.foldl (fun out c => out ++ escapeChar c) "\"" ++ "\""

/-- Digits and an exponent, so that the number is read as no integer. -/
def Decimal.render (d : Decimal) : String :=
  (if d.negative then "-" else "") ++ toString d.digits ++ "e" ++ toString d.exponent

mutual

/-- The text of a value behind what is already written. -/
def Value.writeTo (out : String) : Value → String
  | .null => out ++ "null"
  | .bool b => out ++ (if b then "true" else "false")
  | .int n => out ++ toString n
  | .real d => out ++ d.render
  | .str s => out ++ quote s
  | .arr [] => out ++ "[]"
  | .arr (item :: items) => writeItems (item.writeTo (out ++ "[")) items ++ "]"
  | .obj [] => out ++ "\x7b\x7d"
  | .obj ((key, value) :: members) =>
    writeMembers (value.writeTo (out ++ "\x7b" ++ quote key ++ ":")) members ++ "\x7d"
  | .malformed => out ++ "null"

def writeItems (out : String) : List Value → String
  | [] => out
  | item :: items => writeItems (item.writeTo (out ++ ",")) items

def writeMembers (out : String) : List (String × Value) → String
  | [] => out
  | (key, value) :: members =>
    writeMembers (value.writeTo (out ++ "," ++ quote key ++ ":")) members

end

def Value.render (v : Value) : String := v.writeTo ""

end Roshambo.Json
