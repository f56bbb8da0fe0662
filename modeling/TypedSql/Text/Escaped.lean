/-! Escaped text: how logs and diagnostics show a string. -/

namespace TypedSql.Text

/-- The value of a control character in lower-case hexadecimal digits. -/
def hexDigits (c : Char) : String :=
  String.ofList (Nat.toDigits 16 c.toNat)

/-- Quotes, backslashes, line ends, tabs and NUL have short escapes, other control characters are
written by their code, and all else stands for itself. These are all the escapes of characters below
U+00A0. From there on logs also write a character by its code if it extends the one before it or if it
cannot be printed, and this is not modelled: it would take the tables of Unicode. -/
def escapedChar (c : Char) : String :=
  if c = '"' then "\\\""
  else if c = '\\' then "\\\\"
  else if c = '\n' then "\\n"
  else if c = '\t' then "\\t"
  else if c = '\r' then "\\r"
  else if c = '\x00' then "\\0"
  else if c.toNat < 32 ∨ (127 ≤ c.toNat ∧ c.toNat < 160) then "\\u\x7b" ++ hexDigits c ++ "\x7d"
  else c.toString

/-- The string between double quotes, each character escaped where it has to be. -/
def escaped (s : String) : String :=
  "\"" ++ String.join (s.toList.map escapedChar) ++ "\""

end TypedSql.Text
