import JavaMachine.Text.Hidden

/-!
# Quoted texts

A message quotes a text that came from outside: double quotes around it, a backslash before
quotes and backslashes, the short escapes for tab, line feed, carriage return and NUL, and the
code point in hexadecimal for every other character that cannot be seen on its own.
-/

namespace JavaMachine.Text

/-- A natural number in lowercase hexadecimal, without leading zeros. -/
def hex (n : Nat) : String := String.ofList (Nat.toDigits 16 n)

/-- A natural number in lowercase hexadecimal, filled with zeros to the width. -/
def hexPadded (width n : Nat) : String :=
  let digits := Nat.toDigits 16 n
  String.ofList (List.replicate (width - digits.length) '0' ++ digits)

/-- A character as it stands inside quotes. -/
def quoteChar (c : Char) : String :=
  match c with
  | '"' => "\\\""
  | '\\' => "\\\\"
  | '\n' => "\\n"
  | '\r' => "\\r"
  | '\t' => "\\t"
  | '\x00' => "\\0"
  | c => if isHidden c then "\\u\x7b" ++ hex c.toNat ++ "\x7d" else c.toString

/-- A text in double quotes, with what cannot be seen escaped. -/
def quote (s : String) : String :=
  "\"" ++ String.join (s.toList.map quoteChar) ++ "\""

end JavaMachine.Text
