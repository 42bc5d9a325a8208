import ClusterMembership.Text.Numeral

/-!
# Quoted text

Text between quotes as JSON writes it.  Quotes, backslashes and control characters
are escaped; every other character stands for itself.
-/

namespace ClusterMembership

namespace Text

/-- A character between quotes. -/
def escaped (character : Char) : List Char :=
  match character with
  | '"' => ['\\', '"']
  | '\\' => ['\\', '\\']
  | '\n' => ['\\', 'n']
  | '\r' => ['\\', 'r']
  | '\t' => ['\\', 't']
  | '\x08' => ['\\', 'b']
  | '\x0C' => ['\\', 'f']
  | other =>
    if other.toNat < 0x20 then
      ['\\', 'u', '0', '0', digit (other.toNat / 16), digit (other.toNat % 16)]
    else
      [other]

/-- A text between quotes. -/
def quoted (characters : List Char) : List Char :=
  '"' :: (characters.flatMap escaped ++ ['"'])

end Text

end ClusterMembership
