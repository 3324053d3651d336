import Montage.Proofs.Number.Reading
import Montage.Value.Writer

/-!
# Values written and read back

A value that JSON can hold is written as a text that reads as this value, but for the
sign of zeros.
-/

namespace Montage

namespace Value

/-- A value that JSON can hold: nothing in it is absent, its numbers are finite, and
no name occurs twice in a record. -/
inductive IsJson : Value → Prop where
  | null : IsJson .null
  | boolean (truth : Bool) : IsJson (.boolean truth)
  | number {value : Double} (finite : value.isFinite = true) : IsJson (.number value)
  | text (content : String) : IsJson (.text content)
  | list {elements : List Value} (each : ∀ element ∈ elements, IsJson element) :
      IsJson (.list elements)
  | record {fields : List (String × Value)} (distinct : (fields.map Prod.fst).Nodup)
      (each : ∀ field ∈ fields, IsJson field.2) : IsJson (.record fields)

mutual

/-- What the text of a value stands for: its zeros have lost their signs. -/
def settled : Value → Value
  | .absent => .absent
  | .null => .null
  | .boolean truth => .boolean truth
  | .number value => .number value.settled
  | .text content => .text content
  | .list elements => .list (settledAll elements)
  | .record fields => .record (settledFields fields)

def settledAll : List Value → List Value
  | [] => []
  | element :: rest => element.settled :: settledAll rest

def settledFields : List (String × Value) → List (String × Value)
  | [] => []
  | (name, value) :: rest => (name, value.settled) :: settledFields rest

end

namespace Reader

/-! ## Texts -/

theorem hexDigit?_hexDigit : ∀ value < 16, hexDigit? (Writer.hexDigit value) = some value := by
  decide

theorem numericEscape?_control {unit : Nat} (control : unit < 32) (rest : List Char) :
    numericEscape?
        ('0' :: '0' :: Writer.hexDigit (unit / 16) :: Writer.hexDigit (unit % 16) :: rest) =
      some (Char.ofNat unit, rest) := by
  have high := hexDigit?_hexDigit (unit / 16) (by omega)
  have low := hexDigit?_hexDigit (unit % 16) (by omega)
  have zero : hexDigit? '0' = some 0 := rfl
  have whole : ((0 * 16 + 0) * 16 + unit / 16) * 16 + unit % 16 = unit := by omega
  have alone : ∀ unit < 32, isHighSurrogate unit = false ∧ unitChar unit = Char.ofNat unit := by
    decide
  obtain ⟨notHigh, isChar⟩ := alone unit control
  simp only [numericEscape?, hexUnit?, zero, high, low, whole, notHigh, isChar,
    Bool.false_eq_true, if_false]

/-- An escaped character is read as itself. -/
theorem characters?_escape (character : Char) (fuel : Nat) (rest : List Char) :
    characters? (fuel + 1) (Writer.escape character ++ rest) =
      (characters? fuel rest).map fun (tail, final) => (character :: tail, final) := by
  unfold Writer.escape
  split
  · rfl
  · rfl
  · rfl
  · rfl
  · rfl
  · rfl
  · rfl
  · next notQuote notBackslash _ _ _ _ _ =>
      split
      · next control =>
          have escaped := numericEscape?_control control rest
          rw [Char.ofNat_toNat] at escaped
          simp only [characters?, List.cons_append, List.nil_append, escaped]
          rfl
      · next ordinary =>
          simp only [characters?, List.cons_append, List.nil_append, if_neg notQuote,
            if_neg notBackslash, if_neg ordinary]

theorem characters?_written (content rest : List Char) {fuel : Nat}
    (enough : content.length < fuel) :
    characters? fuel (content.flatMap Writer.escape ++ '"' :: rest) = some (content, rest) := by
  induction content generalizing fuel with
  | nil =>
      obtain ⟨fewer, rfl⟩ := Nat.exists_eq_add_one.mpr enough
      rfl
  | cons character content induction =>
      obtain ⟨fewer, rfl⟩ := Nat.exists_eq_add_one.mpr (Nat.zero_lt_of_lt enough)
      rw [List.flatMap_cons, List.append_assoc, characters?_escape,
        induction (Nat.lt_of_succ_lt_succ enough)]
      rfl

theorem escape_ne_nil (character : Char) : Writer.escape character ≠ [] := by
  unfold Writer.escape
  split
  all_goals try exact List.cons_ne_nil _ _
  split
  · exact List.cons_ne_nil _ _
  · exact List.cons_ne_nil _ _

theorem length_le_escaped (content : List Char) :
    content.length ≤ (content.flatMap Writer.escape).length := by
  induction content with
  | nil => exact Nat.le_refl 0
  | cons character content induction =>
      have positive := List.length_pos_of_ne_nil (escape_ne_nil character)
      rw [List.flatMap_cons, List.length_append, List.length_cons]
      omega

/-! ## What a value begins with -/

theorem exists_digit_of_integer? {input : List Char} {result : List Char × List Char}
    (read : integer? input = some result) :
    ∃ first others, input = first :: others ∧ first.isDigit = true := by
  unfold integer? at read
  split at read
  · exact ⟨'0', _, rfl, rfl⟩
  · split at read
    · cases read
    · next present =>
        cases input with
        | nil => exact absurd rfl present
        | cons first others =>
            refine ⟨first, others, rfl, ?_⟩
            by_contra other
            exact present (List.takeWhile_cons_of_neg other)

/-- A number begins with a digit or a minus. -/
theorem exists_numeral_of_number? {input : List Char} {result : Double × List Char}
    (read : number? input = some result) :
    ∃ first others, input = first :: others ∧ (first = '-' ∨ first.isDigit = true) := by
  by_cases signed : ∃ more, input = '-' :: more
  · obtain ⟨more, rfl⟩ := signed
    exact ⟨'-', more, rfl, .inl rfl⟩
  · cases wholeRead : integer? input with
    | none =>
        unfold number? at read
        split at read
        next negative unsigned split =>
        split at split
        · exact absurd ⟨_, rfl⟩ signed
        · obtain ⟨rfl, rfl⟩ := Prod.mk.inj split
          rw [wholeRead] at read
          cases read
    | some result =>
        obtain ⟨first, others, isInput, digit⟩ := exists_digit_of_integer? wholeRead
        exact ⟨first, others, isInput, .inr digit⟩

theorem ne_of_numeral {first other : Char} (numeral : first = '-' ∨ first.isDigit = true)
    (mark : other ≠ '-' ∧ other.isDigit = false) : first ≠ other := by
  rintro rfl
  rcases numeral with isMinus | digit
  · exact mark.1 isMinus
  · rw [mark.2] at digit
    cases digit

/-- What can begin a value that stands in a list: no separator, and not the end of the
list. -/
structure Opens (first : Char) : Prop where
  notSeparator : isSeparator first = false
  notEnd : first ≠ ']'

theorem opens_of_numeral {first : Char} (numeral : first = '-' ∨ first.isDigit = true) :
    Opens first := by
  refine ⟨?_, ne_of_numeral numeral (by decide)⟩
  have space : first ≠ ' ' := ne_of_numeral numeral (by decide)
  have tab : first ≠ '\t' := ne_of_numeral numeral (by decide)
  have lineFeed : first ≠ '\n' := ne_of_numeral numeral (by decide)
  have carriageReturn : first ≠ '\r' := ne_of_numeral numeral (by decide)
  simp only [isSeparator, space, tab, lineFeed, carriageReturn, decide_false, Bool.or_self]

theorem skip_of_opens {first : Char} (opens : Opens first) (others : List Char) :
    skip (first :: others) = first :: others := by
  rw [skip, List.dropWhile_cons, opens.notSeparator]
  rfl

theorem exists_opens {value : Value} (isJson : IsJson value) :
    ∃ first others, Writer.value value = first :: others ∧ Opens first := by
  cases isJson with
  | null => exact ⟨_, _, rfl, rfl, by decide⟩
  | boolean truth => cases truth <;> exact ⟨_, _, rfl, rfl, by decide⟩
  | number finite =>
      have read := number?_textList finite .nil
      rw [List.append_nil] at read
      obtain ⟨first, others, isText, numeral⟩ := exists_numeral_of_number? read
      rw [Writer.value, if_pos finite]
      exact ⟨first, others, isText, opens_of_numeral numeral⟩
  | text content => exact ⟨_, _, rfl, rfl, by decide⟩
  | list each => exact ⟨_, _, rfl, rfl, by decide⟩
  | record distinct each => exact ⟨_, _, rfl, rfl, by decide⟩

/-! ## Lists and records -/

section Steps

variable {fuel : Nat} {input content after more : List Char} {value : Value}

theorem value?_opened_list {first : Char} (opens : Opens first) (others : List Char) :
    value? (fuel + 1) ('[' :: first :: others) =
      (elements? fuel (first :: others)).map fun (found, after) => (.list found, after) := by
  have bracket : skip ('[' :: first :: others) = '[' :: first :: others := rfl
  rw [value?, bracket]
  dsimp only
  rw [if_pos rfl, skip_of_opens opens]
  split
  · next same => exact absurd (List.cons.inj same).1 opens.notEnd
  · rfl

theorem value?_quote (read : characters? fuel input = some (content, after)) :
    value? (fuel + 1) ('"' :: input) = some (.text (String.ofList content), after) := by
  have quote : skip ('"' :: input) = '"' :: input := rfl
  rw [value?, quote]
  simp only [read]
  rfl

theorem value?_numeral {number : Double} (read : number? input = some (number, after)) :
    value? (fuel + 1) input = some (.number number, after) := by
  obtain ⟨first, others, rfl, numeral⟩ := exists_numeral_of_number? read
  have other (mark : Char) (isMark : mark ≠ '-' ∧ mark.isDigit = false) : first ≠ mark :=
    ne_of_numeral numeral isMark
  rw [value?, skip_of_opens (opens_of_numeral numeral)]
  dsimp only
  rw [if_neg (other '[' (by decide)), if_neg (other '{' (by decide)),
    if_neg (other '"' (by decide)), if_neg (other 't' (by decide)),
    if_neg (other 'f' (by decide)), if_neg (other 'n' (by decide)), read]
  rfl

theorem value?_opened_record (others : List Char) :
    value? (fuel + 1) ('{' :: '"' :: others) =
      (fields? fuel [] ('"' :: others)).map fun (found, after) => (.record found, after) := rfl

theorem elements?_last (read : value? fuel input = some (value, ']' :: after)) :
    elements? (fuel + 1) input = some ([value], after) := by
  rw [elements?, read]
  rfl

theorem elements?_more (read : value? fuel input = some (value, ',' :: more)) :
    elements? (fuel + 1) input =
      (elements? fuel more).map fun (others, after) => (value :: others, after) := by
  rw [elements?, read]
  rfl

variable {name afterColon : List Char} {earlier : List (String × Value)}

theorem fields?_last (nameRead : characters? fuel input = some (name, ':' :: afterColon))
    (read : value? fuel afterColon = some (value, '}' :: after)) :
    fields? (fuel + 1) earlier ('"' :: input) =
      some (setField (String.ofList name) value earlier, after) := by
  have quote : skip ('"' :: input) = '"' :: input := rfl
  have colon : skip (':' :: afterColon) = ':' :: afterColon := rfl
  rw [fields?, quote]
  simp only [nameRead, colon, read]
  rfl

theorem fields?_more (nameRead : characters? fuel input = some (name, ':' :: afterColon))
    (read : value? fuel afterColon = some (value, ',' :: more)) :
    fields? (fuel + 1) earlier ('"' :: input) =
      fields? fuel (setField (String.ofList name) value earlier) more := by
  have quote : skip ('"' :: input) = '"' :: input := rfl
  have colon : skip (':' :: afterColon) = ':' :: afterColon := rfl
  rw [fields?, quote]
  simp only [nameRead, colon, read]
  rfl

end Steps

theorem setField_of_not_mem {name : String} {fields : List (String × Value)}
    (new : name ∉ fields.map Prod.fst) (value : Value) :
    setField name value fields = fields ++ [(name, value)] := by
  induction fields with
  | nil => rfl
  | cons field fields induction =>
      obtain ⟨key, old⟩ := field
      obtain ⟨different, absent⟩ := List.ne_and_not_mem_of_not_mem_cons new
      rw [setField, if_neg (Ne.symm different), induction absent, List.cons_append]

/-! ## Reading what is written -/

theorem characters?_quoted (name : String) (rest : List Char) {fuel : Nat}
    (enough : (Writer.quoted name).length ≤ fuel) :
    characters? fuel (name.toList.flatMap Writer.escape ++ '"' :: rest) =
      some (name.toList, rest) := by
  have longer := length_le_escaped name.toList
  rw [Writer.quoted, List.length_cons, List.length_append, List.length_singleton] at enough
  exact characters?_written name.toList rest (by omega)

theorem quoted_append (name : String) (rest : List Char) :
    Writer.quoted name ++ rest =
      '"' :: (name.toList.flatMap Writer.escape ++ '"' :: rest) := by
  rw [Writer.quoted, List.cons_append, List.append_assoc, List.singleton_append]

theorem exists_opens_elements {first : Value} (isJson : IsJson first) (others : List Value) :
    ∃ opening text, Writer.elements (first :: others) = opening :: text ∧ Opens opening := by
  obtain ⟨opening, text, isText, opens⟩ := exists_opens isJson
  cases others with
  | nil => exact ⟨opening, text, by rw [Writer.elements, isText], opens⟩
  | cons second others =>
      exact ⟨opening, _, by rw [Writer.elements, isText, List.cons_append], opens⟩

theorem exists_quote_fields (name : String) (first : Value) (others : List (String × Value)) :
    ∃ text, Writer.fields ((name, first) :: others) = '"' :: text := by
  cases others with
  | nil => exact ⟨_, rfl⟩
  | cons second others => exact ⟨_, rfl⟩

mutual

/-- What is written of a value is read, and what comes after it is left.  The recursion
is that of the reader, on its fuel. -/
theorem value?_written {value : Value} (isJson : IsJson value) {fuel : Nat} {rest : List Char}
    (enough : (Writer.value value).length < fuel) (ends : EndsNumber rest) :
    value? fuel (Writer.value value ++ rest) = some (value.settled, rest) := by
  cases fuel with
  | zero => exact absurd enough (Nat.not_lt_zero _)
  | succ fewer =>
    match value with
    | .absent => cases isJson
    | .null => rfl
    | .boolean true => rfl
    | .boolean false => rfl
    | .number given =>
        cases isJson with
        | number finite =>
          rw [Writer.value, if_pos finite, value?_numeral (number?_textList finite ends)]
          rfl
    | .text content =>
        rw [Writer.value] at enough ⊢
        rw [quoted_append, value?_quote (characters?_quoted content rest (by omega)),
          String.ofList_toList]
        rfl
    | .list [] => rfl
    | .list (first :: others) =>
        cases isJson with
        | list each =>
          obtain ⟨opening, text, isText, opens⟩ :=
            exists_opens_elements (each first List.mem_cons_self) others
          rw [Writer.value, List.length_cons, List.length_append] at enough
          have read : elements? fewer (Writer.elements (first :: others) ++ ']' :: rest) = _ :=
            elements?_written each (Nat.lt_of_succ_lt_succ enough)
          rw [isText, List.cons_append] at read
          rw [Writer.value, isText, List.cons_append, List.append_assoc, List.cons_append,
            List.singleton_append, value?_opened_list opens, read]
          rfl
    | .record [] => rfl
    | .record ((name, first) :: others) =>
        cases isJson with
        | record distinct each =>
          obtain ⟨text, isText⟩ := exists_quote_fields name first others
          have names : (([] : List (String × Value)).map Prod.fst ++
              ((name, first) :: others).map Prod.fst).Nodup := distinct
          rw [Writer.value, List.length_cons, List.length_append] at enough
          have read : fields? fewer []
              (Writer.fields ((name, first) :: others) ++ '}' :: rest) = _ :=
            fields?_written names each (Nat.lt_of_succ_lt_succ enough)
          rw [isText, List.cons_append] at read
          rw [Writer.value, isText, List.cons_append, List.append_assoc, List.cons_append,
            List.singleton_append, value?_opened_record, read]
          rfl
termination_by fuel

theorem elements?_written {first : Value} {others : List Value}
    (each : ∀ element ∈ first :: others, IsJson element) {fuel : Nat} {rest : List Char}
    (enough : (Writer.elements (first :: others)).length + 1 < fuel) :
    elements? fuel (Writer.elements (first :: others) ++ ']' :: rest) =
      some (settledAll (first :: others), rest) := by
  obtain ⟨firstJson, othersJson⟩ := List.forall_mem_cons.mp each
  cases fuel with
  | zero => exact absurd enough (Nat.not_lt_zero _)
  | succ fewer =>
    match others with
    | [] =>
        rw [Writer.elements] at enough ⊢
        exact elements?_last (value?_written firstJson (by omega) (.cons (by decide) rest))
    | second :: others =>
        rw [Writer.elements, List.length_append, List.length_cons] at enough
        rw [Writer.elements, List.append_assoc, List.cons_append,
          elements?_more (value?_written firstJson (by omega) (.cons (by decide) _)),
          elements?_written othersJson (by omega)]
        rfl
termination_by fuel

/-- Names are new in turn, so each field is added after those that were read before. -/
theorem fields?_written {name : String} {first : Value}
    {others earlier : List (String × Value)}
    (distinct : (earlier.map Prod.fst ++ ((name, first) :: others).map Prod.fst).Nodup)
    (each : ∀ field ∈ (name, first) :: others, IsJson field.2) {fuel : Nat} {rest : List Char}
    (enough : (Writer.fields ((name, first) :: others)).length + 1 < fuel) :
    fields? fuel earlier (Writer.fields ((name, first) :: others) ++ '}' :: rest) =
      some (earlier ++ settledFields ((name, first) :: others), rest) := by
  have firstJson : IsJson first := each _ List.mem_cons_self
  have new : name ∉ earlier.map Prod.fst := by
    intro member
    exact List.disjoint_of_nodup_append distinct member List.mem_cons_self
  have added : setField (String.ofList name.toList) first.settled earlier =
      earlier ++ [(name, first.settled)] := by
    rw [String.ofList_toList, setField_of_not_mem new]
  cases fuel with
  | zero => exact absurd enough (Nat.not_lt_zero _)
  | succ fewer =>
    match others with
    | [] =>
        rw [Writer.fields, List.length_append, List.length_cons] at enough
        rw [Writer.fields, List.append_assoc, List.cons_append, quoted_append,
          fields?_last (characters?_quoted name _ (by omega))
            (value?_written firstJson (by omega) (.cons (by decide) rest)), added]
        rfl
    | (next, second) :: others =>
        have othersJson : ∀ field ∈ (next, second) :: others, IsJson field.2 :=
          fun field member => each field (List.mem_cons_of_mem _ member)
        have stillDistinct : ((earlier ++ [(name, first.settled)]).map Prod.fst ++
            ((next, second) :: others).map Prod.fst).Nodup := by
          rw [List.map_append, List.append_assoc]
          exact distinct
        rw [Writer.fields, List.length_append, List.length_cons, List.length_append,
          List.length_cons] at enough
        rw [Writer.fields, List.append_assoc, List.cons_append, List.append_assoc,
          List.cons_append, quoted_append,
          fields?_more (characters?_quoted name _ (by omega))
            (value?_written firstJson (by omega) (.cons (by decide) _)), added,
          fields?_written stillDistinct othersJson (by omega), List.append_assoc]
        rfl
termination_by fuel

end

end Reader

/-- A value that JSON can hold is written as a text that is read as this value, but for
the sign of zeros. -/
theorem read?_write {value : Value} (isJson : IsJson value) :
    read? value.write = some value.settled := by
  have read : Reader.value? ((Writer.value value).length + 1) (Writer.value value ++ []) = _ :=
    Reader.value?_written isJson (Nat.lt_succ_self _) .nil
  rw [List.append_nil] at read
  rw [read?, write, String.toList_ofList, read]
  rfl

end Value

end Montage
