import SocialGraph.Text.Printable

/-!
# Quoted text in diagnostics

Diagnostics quote a piece of their input so that it reads back unambiguously: the quote mark
and the backslash are escaped, tab, carriage return, line feed and NUL take their short
escapes, and a character that would not show on its own is written as `\u` followed by its
code point in lowercase hex between braces. A character does not show on its own when it
extends the grapheme before it or is not printable (see `Text.isPrintable`); every other
character stands for itself.
-/

namespace SocialGraph.Text

/-- Whether a character would not show in a diagnostic and is written by its code point. -/
def isHidden (c : Char) : Bool := isGraphemeExtend c || !isPrintable c

/-- Lowercase hexadecimal digits of a number, without leading zeros. -/
def hexDigits (n : Nat) : String := String.ofList (Nat.toDigits 16 n)

/-- One character of quoted text, where `quote` is the quote mark in use. -/
def escapeChar (quote : Char) (c : Char) : String :=
  match c with
  | '\t' => "\\t"
  | '\r' => "\\r"
  | '\n' => "\\n"
  | '\\' => "\\\\"
  | '\x00' => "\\0"
  | c =>
    if c == quote then "\\" ++ c.toString
    else if isHidden c then "\\u\x7b" ++ hexDigits c.val.toNat ++ "\x7d"
    else c.toString

/-- A string in double quotes, escaped. -/
def quoted (s : String) : String :=
  "\"" ++ String.join (s.toList.map (escapeChar '"')) ++ "\""

/-- A character in single quotes, escaped. -/
def quotedChar (c : Char) : String :=
  "'" ++ escapeChar '\'' c ++ "'"

end SocialGraph.Text
