import StagedQuery.Text.Unseen

/-!
# Quoted texts

The form in which messages show a text: between double quotes, with a backslash
before a quote and a backslash, the usual letters for the null character, tab,
line feed and carriage return, and the code point in lower case hexadecimal
between braces for a character that has no glyph of its own.
-/

namespace StagedQuery.Text

/-- The lower case hexadecimal digits of a number, without leading zeros. -/
def hexDigits (number : Nat) : List Char :=
  Nat.toDigits 16 number

/-- One character inside quotes. -/
def quotedChar (char : Char) : List Char :=
  match char with
  | '\x00' => ['\\', '0']
  | '\t' => ['\\', 't']
  | '\n' => ['\\', 'n']
  | '\r' => ['\\', 'r']
  | '"' => ['\\', '"']
  | '\\' => ['\\', '\\']
  | other =>
    if isUnseen other then ['\\', 'u', '\x7b'] ++ hexDigits other.toNat ++ ['\x7d'] else [other]

/-- A text between double quotes. -/
def quoted (text : String) : String :=
  String.ofList ('"' :: text.toList.flatMap quotedChar ++ ['"'])

example : quoted "it's a \"q\"\n" = "\"it's a \\\"q\\\"\\n\"" := by decide +kernel

example : quoted "e\u0301\u200b" = "\"e\\u\x7b301\x7d\\u\x7b200b\x7d\"" := by decide +kernel

example : quoted "\u1160\uff9e" = "\"\\u\x7b1160\x7d\uff9e\"" := by decide +kernel

end StagedQuery.Text
