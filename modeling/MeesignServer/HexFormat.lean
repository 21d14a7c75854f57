import Mathlib

/-!
# Bytes in hexadecimal digits

The text format of the `hex` package: two lower case digits for each byte. The decoder
takes digits of both cases and refuses texts of odd length.
-/
namespace HexFormat

abbrev Byte := Fin 256

def digits : List Char := "0123456789abcdef".toList

def digit (n : Fin 16) : Char := digits.getD n ' '

def value (c : Char) : Option (Fin 16) :=
  if '0' ≤ c ∧ c ≤ '9' then some (Fin.ofNat 16 (c.toNat - '0'.toNat))
  else if 'a' ≤ c ∧ c ≤ 'f' then some (Fin.ofNat 16 (c.toNat - 'a'.toNat + 10))
  else if 'A' ≤ c ∧ c ≤ 'F' then some (Fin.ofNat 16 (c.toNat - 'A'.toNat + 10))
  else none

def high (b : Byte) : Fin 16 := Fin.ofNat 16 (b.val / 16)

def low (b : Byte) : Fin 16 := Fin.ofNat 16 (b.val % 16)

theorem byte_lt (hi lo : Fin 16) : 16 * hi.val + lo.val < 256 := by omega

def byte (hi lo : Fin 16) : Byte := ⟨16 * hi.val + lo.val, byte_lt hi lo⟩

def encodeDigits (bytes : List Byte) : List Char :=
  bytes.flatMap fun b => [digit (high b), digit (low b)]

def decodeDigits : List Char → Option (List Byte)
  | [] => some []
  | [_] => none
  | hi :: lo :: rest => do
    let hi ← value hi
    let lo ← value lo
    let bytes ← decodeDigits rest
    return byte hi lo :: bytes

def encode (bytes : List Byte) : String := String.ofList (encodeDigits bytes)

def decode (text : String) : Option (List Byte) := decodeDigits text.toList

@[simp] theorem value_digit (n : Fin 16) : value (digit n) = some n := by
  revert n
  decide

@[simp] theorem byte_high_low (b : Byte) : byte (high b) (low b) = b := by
  apply Fin.ext
  simp only [byte, high, low, Fin.ofNat]
  have := b.isLt
  omega

theorem decodeDigits_encodeDigits (bytes : List Byte) :
    decodeDigits (encodeDigits bytes) = some bytes := by
  induction bytes with
  | nil => rfl
  | cons b bytes ih =>
    rw [encodeDigits, List.flatMap_cons]
    change decodeDigits (digit (high b) :: digit (low b) :: encodeDigits bytes) = _
    simp [decodeDigits, ih]

theorem decode_encode (bytes : List Byte) : decode (encode bytes) = some bytes := by
  rw [decode, encode, String.toList_ofList, decodeDigits_encodeDigits]

end HexFormat
