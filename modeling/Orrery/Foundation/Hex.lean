import Orrery.Foundation.Json

/-! Bytes as hexadecimal text: `bytes.hex` and `bytes.fromhex`. -/
namespace Orrery.Foundation.Hex
open Json

def digitValue (c : Char) : Option Nat :=
  if '0' ≤ c ∧ c ≤ '9' then some (c.toNat-48)
  else if 'a' ≤ c ∧ c ≤ 'f' then some (c.toNat-87)
  else if 'A' ≤ c ∧ c ≤ 'F' then some (c.toNat-55)
  else none

theorem digitValue_hexDigit : ∀ n < 16, digitValue (hexDigit n) = some n := by
  decide

def isSpace (c : Char) : Bool := c == ' ' || ('\t' ≤ c && c ≤ '\r')

theorem isSpace_hexDigit : ∀ n < 16, isSpace (hexDigit n) = false := by
  decide

def hexByte (b : UInt8) : List Char := [hexDigit (b.toNat/16),hexDigit (b.toNat % 16)]

def hex (bytes : List UInt8) : String := String.ofList (bytes.flatMap hexByte)

def notHex (position : Nat) : Exc :=
  .valueError s!"non-hexadecimal number found in fromhex() arg at position {position}"

def fromHexChars : Nat → List Char → Except Exc (List UInt8)
  | _, [] => .ok []
  | position, first :: rest =>
    if isSpace first then fromHexChars (position+1) rest
    else
      match digitValue first, rest with
      | none, _ => .error (notHex position)
      | some _, [] => .error (notHex (position+1))
      | some high, second :: rest =>
        match digitValue second with
        | none => .error (notHex (position+1))
        | some low => do return UInt8.ofNat (16*high+low) :: (← fromHexChars (position+2) rest)

def fromHex (text : String) : Except Exc (List UInt8) := fromHexChars 0 text.toList

theorem fromHexChars_hexByte (position : Nat) (b : UInt8) (rest : List Char) :
    fromHexChars position (hexByte b ++ rest) = do return b :: (← fromHexChars (position+2) rest) := by
  have bound := b.toNat_lt
  have high : b.toNat/16 < 16 := by omega
  have low : b.toNat % 16 < 16 := by omega
  have whole : 16*(b.toNat/16)+b.toNat % 16 = b.toNat := by omega
  simp [hexByte,fromHexChars,isSpace_hexDigit _ high,digitValue_hexDigit _ high,digitValue_hexDigit _ low,whole]

theorem fromHexChars_hex (bytes : List UInt8) : ∀ position,
    fromHexChars position (bytes.flatMap hexByte) = .ok bytes := by
  induction bytes with
  | nil => intro position; rw [List.flatMap_nil,fromHexChars]
  | cons b bytes ih =>
    intro position
    rw [List.flatMap_cons,fromHexChars_hexByte,ih]
    rfl

theorem fromHex_hex (bytes : List UInt8) : fromHex (hex bytes) = .ok bytes := by
  rw [fromHex,hex,String.toList_ofList]
  exact fromHexChars_hex bytes 0

theorem byte_char (byte : UInt8) : UInt8.ofNat (Char.ofNat byte.toNat).toNat = byte := by
  have valid : byte.toNat.isValidChar := Or.inl (lt_trans byte.toNat_lt (by decide))
  have same : (Char.ofNat byte.toNat).toNat = byte.toNat := by
    rw [Char.ofNat,dif_pos valid]
    rfl
  rw [same,UInt8.ofNat_toNat]

end Orrery.Foundation.Hex
