import Montage.Number.Shortest
import Montage.Value.Basic

/-!
# Writing JSON

Values are written without blanks between tokens.  In texts the quote, the
backslash and the control characters are escaped, the latter by their short
names where they have one; all else stands for itself.
-/

namespace Montage

namespace Value.Writer

def hexDigit (value : Nat) : Char :=
  if value < 10 then Char.ofNat (48 + value) else Char.ofNat (87 + value)

/-- A character as it is written inside a text. -/
def escape (character : Char) : List Char :=
  match character with
  | '"' => ['\\', '"']
  | '\\' => ['\\', '\\']
  | '\x08' => ['\\', 'b']
  | '\x0C' => ['\\', 'f']
  | '\n' => ['\\', 'n']
  | '\r' => ['\\', 'r']
  | '\t' => ['\\', 't']
  | _ =>
      if character.toNat < 0x20 then
        ['\\', 'u', '0', '0', hexDigit (character.toNat / 16), hexDigit (character.toNat % 16)]
      else [character]

def quoted (text : String) : List Char :=
  '"' :: (text.toList.flatMap escape ++ ['"'])

mutual

/-- A value; what is absent or no finite number is written as null. -/
def value : Value → List Char
  | .absent => "null".toList
  | .null => "null".toList
  | .boolean truth => (if truth then "true" else "false").toList
  | .number found => if found.isFinite then found.textList else "null".toList
  | .text content => quoted content
  | .list members => '[' :: (elements members ++ [']'])
  | .record members => '{' :: (fields members ++ ['}'])

def elements : List Value → List Char
  | [] => []
  | [last] => value last
  | first :: second :: rest => value first ++ ',' :: elements (second :: rest)

/-- The fields of a record, with commas between them. -/
def fields : List (String × Value) → List Char
  | [] => []
  | [(name, last)] => quoted name ++ ':' :: value last
  | (name, first) :: second :: rest =>
      quoted name ++ ':' :: (value first ++ ',' :: fields (second :: rest))

end

end Value.Writer

/-- A value written in JSON. -/
def Value.write (value : Value) : String := String.ofList (Value.Writer.value value)

end Montage
