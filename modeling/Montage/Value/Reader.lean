import Montage.Value.Basic

/-!
# Reading JSON

The reader takes JSON as its grammar has it and nothing besides: only space,
tab, line feed and carriage return separate tokens, a control character inside
a text is refused, and a name that occurs twice in a record keeps its place
and takes the later value.

Every step of the reader consumes a character, so as many steps as there are
characters suffice; `read?` hides that count.
-/

namespace Montage

namespace Value.Reader

/-- The characters that may stand between tokens. -/
def isSeparator (character : Char) : Bool :=
  character = ' ' || character = '\t' || character = '\n' || character = '\r'

def skip (input : List Char) : List Char := input.dropWhile isSeparator

def hexDigit? (character : Char) : Option Nat :=
  if '0' ≤ character ∧ character ≤ '9' then some (character.toNat - 48)
  else if 'a' ≤ character ∧ character ≤ 'f' then some (character.toNat - 87)
  else if 'A' ≤ character ∧ character ≤ 'F' then some (character.toNat - 55)
  else none

def hexUnit? : List Char → Option (Nat × List Char)
  | first :: second :: third :: fourth :: rest =>
      match hexDigit? first, hexDigit? second, hexDigit? third, hexDigit? fourth with
      | some a, some b, some c, some d => some (((a * 16 + b) * 16 + c) * 16 + d, rest)
      | _, _, _, _ => none
  | _ => none

/-- The character that a backslash and one more character stand for. -/
def shortEscape? (character : Char) : Option Char :=
  match character with
  | '"' => some '"'
  | '\\' => some '\\'
  | '/' => some '/'
  | 'b' => some '\x08'
  | 'f' => some '\x0C'
  | 'n' => some '\n'
  | 'r' => some '\r'
  | 't' => some '\t'
  | _ => none

def isHighSurrogate (unit : Nat) : Bool := 0xD800 ≤ unit && unit ≤ 0xDBFF

def isLowSurrogate (unit : Nat) : Bool := 0xDC00 ≤ unit && unit ≤ 0xDFFF

/-- The character of one unit.  A surrogate on its own is no character, and a
text is made of characters: it is read as the replacement character, so texts
that differ in lone surrogates only are read alike. -/
def unitChar (unit : Nat) : Char :=
  if isHighSurrogate unit || isLowSurrogate unit then '\uFFFD' else Char.ofNat unit

/-- The character of a numeric escape and the input after it.  Two escapes
that form a surrogate pair are one character. -/
def numericEscape? (input : List Char) : Option (Char × List Char) :=
  match hexUnit? input with
  | none => none
  | some (unit, rest) =>
      if isHighSurrogate unit then
        match rest with
        | '\\' :: 'u' :: more =>
            match hexUnit? more with
            | none => none
            | some (second, after) =>
                if isLowSurrogate second then
                  some (Char.ofNat
                    (0x10000 + (unit - 0xD800) * 0x400 + (second - 0xDC00)), after)
                else some (unitChar unit, rest)
        | _ => some (unitChar unit, rest)
      else some (unitChar unit, rest)

/-- The characters of a text up to its closing quote, and the input after
it. -/
def characters? : Nat → List Char → Option (List Char × List Char)
  | 0, _ => none
  | _ + 1, [] => none
  | fuel + 1, character :: rest =>
      if character = '"' then some ([], rest)
      else if character = '\\' then
        match rest with
        | [] => none
        | kind :: after =>
            if kind = 'u' then
              match numericEscape? after with
              | none => none
              | some (escaped, remaining) =>
                  (characters? fuel remaining).map fun (tail, final) =>
                    (escaped :: tail, final)
            else
              match shortEscape? kind with
              | none => none
              | some escaped =>
                  (characters? fuel after).map fun (tail, final) =>
                    (escaped :: tail, final)
      else if character.toNat < 0x20 then none
      else
        (characters? fuel rest).map fun (tail, final) => (character :: tail, final)

def natural (digits : List Char) : Nat :=
  digits.foldl (fun total digit => total * 10 + (digit.toNat - 48)) 0

/-- The exponent part of a number, if there is one. -/
def exponent? (input : List Char) : Option (Int × List Char) :=
  match input with
  | mark :: rest =>
      if mark = 'e' ∨ mark = 'E' then
        let (negative, unsigned) :=
          match rest with
          | '-' :: more => (true, more)
          | '+' :: more => (false, more)
          | more => (false, more)
        match unsigned.takeWhile Char.isDigit with
        | [] => none
        | digits =>
            let size : Int := natural digits
            some (if negative then -size else size, unsigned.dropWhile Char.isDigit)
      else some (0, input)
  | [] => some (0, [])

/-- The fraction digits of a number, if there are any. -/
def fraction? (input : List Char) : Option (List Char × List Char) :=
  match input with
  | '.' :: rest =>
      match rest.takeWhile Char.isDigit with
      | [] => none
      | digits => some (digits, rest.dropWhile Char.isDigit)
  | _ => some ([], input)

/-- The integer digits of a number: no zero leads another digit. -/
def integer? (input : List Char) : Option (List Char × List Char) :=
  match input with
  | '0' :: rest => some (['0'], rest)
  | _ =>
      match input.takeWhile Char.isDigit with
      | [] => none
      | digits => some (digits, input.dropWhile Char.isDigit)

/-- A number, rounded to the nearest one that can be held. -/
def number? (input : List Char) : Option (Double × List Char) :=
  let (negative, unsigned) :=
    match input with
    | '-' :: rest => (true, rest)
    | _ => (false, input)
  match integer? unsigned with
  | none => none
  | some (whole, afterWhole) =>
      match fraction? afterWhole with
      | none => none
      | some (decimals, afterDecimals) =>
          match exponent? afterDecimals with
          | none => none
          | some (power, rest) =>
              some (Double.ofDecimal negative (natural (whole ++ decimals))
                (power - decimals.length), rest)

def word? : List Char → List Char → Option (List Char)
  | [], input => some input
  | _ :: _, [] => none
  | expected :: more, character :: rest =>
      if expected = character then word? more rest else none

mutual

/-- A value at the start of the input, and the input after it. -/
def value? : Nat → List Char → Option (Value × List Char)
  | 0, _ => none
  | fuel + 1, input =>
      match skip input with
      | [] => none
      | character :: rest =>
          if character = '[' then
            match skip rest with
            | ']' :: after => some (.list [], after)
            | _ => (elements? fuel rest).map fun (found, after) => (.list found, after)
          else if character = '{' then
            match skip rest with
            | '}' :: after => some (.record [], after)
            | _ => (fields? fuel [] rest).map fun (found, after) => (.record found, after)
          else if character = '"' then
            (characters? fuel rest).map fun (found, after) =>
              (.text (String.ofList found), after)
          else if character = 't' then
            (word? "rue".toList rest).map fun after => (.boolean true, after)
          else if character = 'f' then
            (word? "alse".toList rest).map fun after => (.boolean false, after)
          else if character = 'n' then
            (word? "ull".toList rest).map fun after => (.null, after)
          else
            (number? (character :: rest)).map fun (found, after) => (.number found, after)

/-- The elements of a list that is not empty, up to its closing bracket. -/
def elements? : Nat → List Char → Option (List Value × List Char)
  | 0, _ => none
  | fuel + 1, input =>
      match value? fuel input with
      | none => none
      | some (element, rest) =>
          match skip rest with
          | ']' :: after => some ([element], after)
          | ',' :: more =>
              (elements? fuel more).map fun (others, after) => (element :: others, after)
          | _ => none

/-- The fields of a record that is not empty, up to its closing brace. -/
def fields? : Nat → List (String × Value) → List Char →
    Option (List (String × Value) × List Char)
  | 0, _, _ => none
  | fuel + 1, earlier, input =>
      match skip input with
      | '"' :: rest =>
          match characters? fuel rest with
          | none => none
          | some (name, afterName) =>
              match skip afterName with
              | ':' :: afterColon =>
                  match value? fuel afterColon with
                  | none => none
                  | some (value, afterValue) =>
                      let found := setField (String.ofList name) value earlier
                      match skip afterValue with
                      | '}' :: after => some (found, after)
                      | ',' :: more => fields? fuel found more
                      | _ => none
              | _ => none
      | _ => none

end

end Value.Reader

/-- The value that a text writes in JSON, if it is JSON. -/
def Value.read? (text : String) : Option Value :=
  let input := text.toList
  match Value.Reader.value? (input.length + 1) input with
  | some (value, rest) => if (Value.Reader.skip rest).isEmpty then some value else none
  | none => none

end Montage
