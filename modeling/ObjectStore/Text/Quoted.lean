import ObjectStore.Text.Unprintable

/-!
# Quoted text

How messages show a text they did not choose: between double quotes, with `"` and `\\` escaped,
`\\t`, `\\n`, `\\r` and `\\0` by their letters, and every unprintable character as `\\u{..}` with the
fewest lower-case hexadecimal digits.
-/

namespace ObjectStore.Text

/-- The spelling of one character inside a quoted text. -/
def quotedChar (c : Char) : List Char :=
  if c == '"' then ['\\', '"']
  else if c == '\\' then ['\\', '\\']
  else if c == '\t' then ['\\', 't']
  else if c == '\n' then ['\\', 'n']
  else if c == '\r' then ['\\', 'r']
  else if c == '\x00' then ['\\', '0']
  else if isUnprintable c then
    ['\\', 'u', '\x7b'] ++ Nat.toDigits 16 c.toNat ++ ['\x7d']
  else [c]

/-- A text between double quotes, every character of it spelled by `quotedChar`. -/
def quoted (s : String) : String :=
  String.ofList ('"' :: s.toList.flatMap quotedChar ++ ['"'])

end ObjectStore.Text
