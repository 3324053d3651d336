import Montage.Text.Units

/-!
# Quoted texts

A message shows a text that it complains of between quotes, on one line.  The
quotes are ones that do not occur in the text, where there are any; control
characters and backslashes are escaped.  A long text is broken after its line
ends into pieces with a plus sign between them, and what does not fit is cut
off.
-/

namespace Montage.Text.Quoted

/-- The text has a dollar sign with a brace after it somewhere. -/
def hasPlaceholder : List Char → Bool
  | '$' :: '\x7b' :: _ => true
  | _ :: rest => hasPlaceholder rest
  | [] => false

/-- The quotes that go around a text: single ones if it has none, else double
ones if it has none, else backquotes if it has neither these nor a placeholder,
else single ones again. -/
def quoteFor (text : List Char) : Char :=
  if !text.contains '\x27' then '\x27'
  else if !text.contains '"' then '"'
  else if !text.contains '\x60' && !hasPlaceholder text then '\x60'
  else '\x27'

def capitalDigit (value : Nat) : Char :=
  if value < 10 then Char.ofNat (48 + value) else Char.ofNat (55 + value)

/-- A character as it is written between two of the given quotes. -/
def escape (quote character : Char) : List Char :=
  if character = '\n' then ['\\', 'n']
  else if character = '\t' then ['\\', 't']
  else if character = '\x08' then ['\\', 'b']
  else if character = '\x0C' then ['\\', 'f']
  else if character = '\r' then ['\\', 'r']
  else if character = '\\' then ['\\', '\\']
  else if character = quote then ['\\', quote]
  else if character.toNat < 0x20 ∨ (0x7F ≤ character.toNat ∧ character.toNat ≤ 0x9F) then
    ['\\', 'x', capitalDigit (character.toNat / 16), capitalDigit (character.toNat % 16)]
  else [character]

def enclose (text : List Char) : List Char :=
  let quote := quoteFor text
  quote :: (text.flatMap (escape quote) ++ [quote])

/-- The lines of a text, each with the line feed that ends it. -/
def lines : List Char → List (List Char)
  | [] => []
  | character :: rest =>
      if character = '\n' then [character] :: lines rest
      else
        match lines rest with
        | [] => [[character]]
        | first :: others => (character :: first) :: others

/-- The longest text that is looked at. -/
def greatestWidth : Nat := 10000

/-- The longest text that is shown in one piece. -/
def pieceWidth : Nat := 76

/-- The longest quoted text that is shown whole. -/
def shownWidth : Nat := 128

def joint : List Char := " +\n  ".toList

def pieces (text : List Char) : List Char :=
  let seen := takeUnits greatestWidth text
  if width seen ≤ pieceWidth then enclose seen
  else joint.intercalate ((lines seen).map enclose)

/-- A text with dots in place of what does not fit. -/
def cut (text : List Char) : List Char :=
  if width text ≤ shownWidth then text else takeUnits shownWidth text ++ ['.', '.', '.']

end Montage.Text.Quoted

namespace Montage.Text

/-- A text as messages show it. -/
def quoted (text : String) : String :=
  String.ofList (Quoted.cut (Quoted.pieces text.toList))

end Montage.Text
