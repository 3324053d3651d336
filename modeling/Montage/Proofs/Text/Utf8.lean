import Montage.Text.Utf8

/-!
# Texts as bytes

Every text is what its bytes in UTF-8 decode to.
-/

namespace Montage.Text.Utf8

def encode (text : String) : List UInt8 := text.toList.flatMap String.utf8EncodeChar

/-! ## Continuation bytes -/

section Continuation

variable {state : Partial} {byte : UInt8}
  (inRange : state.lowest ≤ byte.toNat ∧ byte.toNat ≤ state.highest)

include inRange

theorem decodeFrom_last (last : state.owed ≤ 1) (rest : List UInt8) :
    decodeFrom (some state) (byte :: rest) =
      Char.ofNat (state.bits * 64 + (byte.toNat - 0x80)) :: decodeFrom none rest := by
  simp only [decodeFrom, step, resume, inRange, last, and_self, if_true, List.singleton_append]

theorem decodeFrom_earlier (more : 1 < state.owed) (rest : List UInt8) :
    decodeFrom (some state) (byte :: rest) =
      decodeFrom (some ⟨state.owed - 1, 0x80, 0xBF, state.bits * 64 + (byte.toNat - 0x80)⟩)
        rest := by
  simp only [decodeFrom, step, resume, inRange, Nat.not_le.mpr more, and_self, if_true, if_false,
    List.nil_append]

end Continuation

theorem decodeFrom_lead {byte : UInt8} {start : Partial}
    (begins : lead byte.toNat = .unfinished start) (rest : List UInt8) :
    decodeFrom none (byte :: rest) = decodeFrom (some start) rest := by
  simp only [decodeFrom, step, begin, begins, List.nil_append]

/-! ## Lead bytes -/

section Lead

variable {point : Nat}

theorem lead_two (low : 0x80 ≤ point) (high : point < 0x800) :
    lead (point / 64 + 192) = .unfinished ⟨1, 0x80, 0xBF, point / 64⟩ := by
  have bits : point / 64 + 192 - 0xC0 = point / 64 := by omega
  rw [lead, if_neg (by omega), if_pos (by omega), bits]

/-- The range of the second byte leaves out shorter forms and surrogates only. -/
theorem lead_three (low : 0x800 ≤ point) (high : point < 0x10000)
    (valid : point < 0xD800 ∨ 0xDFFF < point) :
    ∃ lowest highest, lead (point / 4096 + 224) =
        .unfinished ⟨2, lowest, highest, point / 4096⟩ ∧
      lowest ≤ point / 64 % 64 + 128 ∧ point / 64 % 64 + 128 ≤ highest := by
  by_cases least : point / 4096 = 0
  · rw [least]
    exact ⟨0xA0, 0xBF, rfl, by omega, by omega⟩
  by_cases beforeSurrogates : point / 4096 = 13
  · rw [beforeSurrogates]
    exact ⟨0x80, 0x9F, rfl, by omega, by omega⟩
  · have bits : point / 4096 + 224 - 0xE0 = point / 4096 := by omega
    refine ⟨0x80, 0xBF, ?_, by omega, by omega⟩
    rw [lead, if_neg (by omega), if_neg (by omega), if_neg (by omega), if_neg (by omega),
      if_pos (by omega), bits]

/-- The range of the second byte leaves out shorter forms and what comes after the last
code point only. -/
theorem lead_four (low : 0x10000 ≤ point) (high : point < 0x110000) :
    ∃ lowest highest, lead (point / 262144 + 240) =
        .unfinished ⟨3, lowest, highest, point / 262144⟩ ∧
      lowest ≤ point / 4096 % 64 + 128 ∧ point / 4096 % 64 + 128 ≤ highest := by
  by_cases least : point / 262144 = 0
  · rw [least]
    exact ⟨0x90, 0xBF, rfl, by omega, by omega⟩
  by_cases greatest : point / 262144 = 4
  · rw [greatest]
    exact ⟨0x80, 0x8F, rfl, by omega, by omega⟩
  · have bits : point / 262144 + 240 - 0xF0 = point / 262144 := by omega
    refine ⟨0x80, 0xBF, ?_, by omega, by omega⟩
    rw [lead, if_neg (by omega), if_neg (by omega), if_neg (by omega), if_neg (by omega),
      if_neg (by omega), if_neg (by omega), if_neg (by omega), if_pos (by omega), bits]

end Lead

/-! ## Characters -/

theorem decodeFrom_character (character : Char) (rest : List UInt8) :
    decodeFrom none (String.utf8EncodeChar character ++ rest) =
      character :: decodeFrom none rest := by
  have valid : character.val.toNat < 0xD800 ∨
      0xDFFF < character.val.toNat ∧ character.val.toNat < 0x110000 := character.valid
  have same : Char.ofNat character.val.toNat = character := Char.ofNat_toNat character
  rw [String.utf8EncodeChar]
  generalize character.val.toNat = point at valid same ⊢
  have byte {natural : Nat} (small : natural < 256) : (UInt8.ofNat natural).toNat = natural := by
    rw [UInt8.toNat_ofNat', Nat.mod_eq_of_lt small]
  have last := byte (show point % 64 + 128 < 256 by omega)
  have third := byte (show point / 64 % 64 + 128 < 256 by omega)
  have second := byte (show point / 4096 % 64 + 128 < 256 by omega)
  split
  · next small =>
      have first := byte (show point < 256 by omega)
      have complete : lead point = .complete character := by
        rw [lead, if_pos (by omega), same]
      simp only [List.singleton_append, decodeFrom, step, begin, first, complete]
  split
  · next small =>
      have narrow : point / 64 % 32 = point / 64 := by omega
      have first := byte (show point / 64 % 32 + 192 < 256 by omega)
      rw [narrow] at first ⊢
      have bits : point / 64 * 64 + (point % 64 + 128 - 0x80) = point := by omega
      rw [List.cons_append, List.cons_append, List.nil_append,
        decodeFrom_lead (by rw [first]; exact lead_two (by omega) (by omega)),
        decodeFrom_last (by rw [last]; dsimp only; omega) (Nat.le_refl 1), last, bits, same]
  split
  · next small =>
      have narrow : point / 4096 % 16 = point / 4096 := by omega
      have first := byte (show point / 4096 % 16 + 224 < 256 by omega)
      rw [narrow] at first ⊢
      obtain ⟨lowest, highest, begins, low, high⟩ :=
        lead_three (show 0x800 ≤ point by omega) (by omega) (by omega)
      have bits : (point / 4096 * 64 + (point / 64 % 64 + 128 - 0x80)) * 64 +
          (point % 64 + 128 - 0x80) = point := by omega
      rw [List.cons_append, List.cons_append, List.cons_append, List.nil_append,
        decodeFrom_lead (by rw [first]; exact begins),
        decodeFrom_earlier (by rw [third]; exact ⟨low, high⟩) (show 1 < 2 by decide), third,
        decodeFrom_last (by rw [last]; dsimp only; omega) (Nat.le_refl 1), last, bits, same]
  · next notSmall =>
      have narrow : point / 262144 % 8 = point / 262144 := by omega
      have first := byte (show point / 262144 % 8 + 240 < 256 by omega)
      rw [narrow] at first ⊢
      obtain ⟨lowest, highest, begins, low, high⟩ :=
        lead_four (show 0x10000 ≤ point by omega) (by omega)
      have bits : ((point / 262144 * 64 + (point / 4096 % 64 + 128 - 0x80)) * 64 +
          (point / 64 % 64 + 128 - 0x80)) * 64 + (point % 64 + 128 - 0x80) = point := by omega
      rw [List.cons_append, List.cons_append, List.cons_append, List.cons_append,
        List.nil_append, decodeFrom_lead (by rw [first]; exact begins),
        decodeFrom_earlier (by rw [second]; exact ⟨low, high⟩) (show 1 < 3 by decide), second,
        decodeFrom_earlier (by rw [third]; dsimp only; omega) (show 1 < 2 by decide), third,
        decodeFrom_last (by rw [last]; dsimp only; omega) (Nat.le_refl 1), last, bits, same]

/-- The bytes of a text decode to it. -/
theorem decode_encode (text : String) : decode (encode text) = text := by
  have characters (list : List Char) :
      decodeFrom none (list.flatMap String.utf8EncodeChar) = list := by
    induction list with
    | nil => rfl
    | cons character list induction =>
        rw [List.flatMap_cons, decodeFrom_character, induction]
  rw [decode, encode, characters, String.ofList_toList]

end Montage.Text.Utf8
