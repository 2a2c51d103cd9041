import PhpRendering.Proofs.TargetLiteral

/-!
# Weights of literals

A literal of the source and the text that the target reads from it are compared by the weight
of their bytes. An element that is not shared is read as something heavier than what it spells,
so what other elements are read as cannot make up for it. Between single quotes every byte
weighs the same. Between double quotes an escape may be read as fewer bytes than it spells, so
there the weights tell apart what escapes bring in.
-/

namespace PhpRendering

open Script

namespace Target

namespace Quotation

/-! ## Weights of bytes -/

/-- The weight of a byte between double quotes. A backslash and the mark of a code point are
heavy, the first byte of a surrogate is less so, and all other bytes but the escape character
make a text lighter. -/
def escapeWeight (byte : Nat) : Int :=
  if byte = 0x5C ∨ byte = 0x75 then 5
  else if byte = 0xED then 3
  else if byte = 0x1B then 0
  else -1

def byteWeight : Quotation → Nat → Int
  | .single, _ => 1
  | .double, byte => escapeWeight byte

def weight (quotation : Quotation) : List Nat → Int
  | [] => 0
  | byte :: bytes => quotation.byteWeight byte + quotation.weight bytes

variable {quotation : Quotation}

@[simp]
theorem weight_nil : quotation.weight [] = 0 :=
  rfl

@[simp]
theorem weight_cons (byte : Nat) (bytes : List Nat) :
    quotation.weight (byte :: bytes) = quotation.byteWeight byte + quotation.weight bytes :=
  rfl

@[simp]
theorem weight_append (front later : List Nat) :
    quotation.weight (front ++ later) = quotation.weight front + quotation.weight later := by
  induction front with
  | nil => simp
  | cons byte front ih => simp [ih, Int.add_assoc]

theorem escapeWeight_ge (byte : Nat) : -1 ≤ escapeWeight byte := by
  unfold escapeWeight
  split_ifs <;> decide

theorem escapeWeight_le (byte : Nat) : escapeWeight byte ≤ 5 := by
  unfold escapeWeight
  split_ifs <;> decide

theorem escapeWeight_eq {byte : Nat}
    (other : byte ≠ 0x5C ∧ byte ≠ 0x75 ∧ byte ≠ 0xED ∧ byte ≠ 0x1B) : escapeWeight byte = -1 := by
  simp [escapeWeight, other]

/-- The bytes of code points behind the first one, and the first bytes of most of them, have
the least weight. -/
theorem escapeWeight_of_high {byte : Nat} (high : 0x80 ≤ byte) (other : byte ≠ 0xED) :
    escapeWeight byte = -1 :=
  escapeWeight_eq (by omega)

/-! ## Weights of code points -/

theorem single_weight_encode (code : Nat) :
    1 ≤ single.weight (Utf8.encode code) ∧ single.weight (Utf8.encode code) ≤ 4 ∧
      (code < 0x800 → single.weight (Utf8.encode code) ≤ 2) ∧
      (code < 0x80 → single.weight (Utf8.encode code) = 1) := by
  unfold Utf8.encode
  split_ifs <;> simp [byteWeight] <;> omega

theorem double_weight_encode_one {code : Nat} (ascii : code < 0x80) :
    double.weight (Utf8.encode code) = escapeWeight code := by
  simp [Utf8.encode, ascii, byteWeight]

theorem double_weight_encode_two {code : Nat} (range : 0x80 ≤ code ∧ code < 0x800) :
    double.weight (Utf8.encode code) = -2 := by
  have notOne : ¬ code < 0x80 := by omega
  have first : escapeWeight (0xC0 + code / 64) = -1 := escapeWeight_of_high (by omega) (by omega)
  have second : escapeWeight (0x80 + code % 64) = -1 := escapeWeight_of_high (by omega) (by omega)
  simp [Utf8.encode, notOne, range.2, byteWeight, first, second]

theorem double_weight_encode_three {code : Nat} (range : 0x800 ≤ code ∧ code < 0x10000) :
    double.weight (Utf8.encode code) = escapeWeight (0xE0 + code / 4096) - 2 := by
  have notOne : ¬ code < 0x80 := by omega
  have notTwo : ¬ code < 0x800 := by omega
  have second : escapeWeight (0x80 + code / 64 % 64) = -1 :=
    escapeWeight_of_high (by omega) (by omega)
  have third : escapeWeight (0x80 + code % 64) = -1 := escapeWeight_of_high (by omega) (by omega)
  simp [Utf8.encode, notOne, notTwo, range.2, byteWeight, second, third]
  omega

theorem double_weight_encode_four {code : Nat} (large : 0x10000 ≤ code) :
    double.weight (Utf8.encode code) = -4 := by
  have notOne : ¬ code < 0x80 := by omega
  have notTwo : ¬ code < 0x800 := by omega
  have notThree : ¬ code < 0x10000 := by omega
  have first : escapeWeight (0xF0 + code / 262144) = -1 :=
    escapeWeight_of_high (by omega) (by omega)
  have second : escapeWeight (0x80 + code / 4096 % 64) = -1 :=
    escapeWeight_of_high (by omega) (by omega)
  have third : escapeWeight (0x80 + code / 64 % 64) = -1 :=
    escapeWeight_of_high (by omega) (by omega)
  have fourth : escapeWeight (0x80 + code % 64) = -1 := escapeWeight_of_high (by omega) (by omega)
  simp [Utf8.encode, notOne, notTwo, notThree, byteWeight, first, second, third, fourth]

theorem double_weight_encode_surrogate {code : Nat} (surrogate : 0xD800 ≤ code ∧ code < 0xE000) :
    double.weight (Utf8.encode code) = 1 := by
  have first : 0xE0 + code / 4096 = 0xED := by omega
  rw [double_weight_encode_three (by omega), first]
  rfl

theorem double_weight_encode_le (code : Nat) : double.weight (Utf8.encode code) ≤ 5 := by
  rcases Nat.lt_or_ge code 0x80 with ascii | notOne
  · exact double_weight_encode_one ascii ▸ escapeWeight_le code
  rcases Nat.lt_or_ge code 0x800 with two | notTwo
  · exact double_weight_encode_two ⟨notOne, two⟩ ▸ by decide
  rcases Nat.lt_or_ge code 0x10000 with three | four
  · have first := escapeWeight_le (0xE0 + code / 4096)
    rw [double_weight_encode_three ⟨notTwo, three⟩]
    omega
  · exact double_weight_encode_four four ▸ by decide

/-- Letters with one byte each that is light. -/
theorem double_weight_bytes {letters : List Char}
    (light : ∀ letter ∈ letters, letter.toNat < 0x80 ∧ escapeWeight letter.toNat = -1) :
    double.weight (Utf8.bytes letters) = -letters.length := by
  induction letters with
  | nil => rfl
  | cons letter rest ih =>
      obtain ⟨ascii, weight⟩ := light letter (.head _)
      have later := ih fun other among => light other (.tail _ among)
      rw [Utf8.bytes_cons, weight_append, double_weight_encode_one ascii, weight, later, List.length_cons]
      omega

theorem double_weight_digits {digits : List Char}
    (hex : ∀ digit ∈ digits, isHexDigit digit = true) :
    double.weight (Utf8.bytes digits) = -digits.length := by
  refine double_weight_bytes fun digit among => ?_
  have range := isHexDigit_iff.mp (hex digit among)
  exact ⟨by omega, escapeWeight_eq (by omega)⟩

theorem single_weight_bytes (letters : List Char) :
    (letters.length : Int) ≤ single.weight (Utf8.bytes letters) := by
  induction letters with
  | nil => exact Int.le_refl 0
  | cons letter rest ih =>
      have first := (single_weight_encode letter.toNat).1
      rw [Utf8.bytes_cons, weight_append, List.length_cons]
      omega

end Quotation

end Target

end PhpRendering
