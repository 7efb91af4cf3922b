import Mathlib.Algebra.Order.Ring.Nat

/-! Numbers and bytes as they are written: numbers of a fixed width with the highest byte first, and
bytes by their hexadecimal digits. -/

set_option autoImplicit false

namespace Workbench.Library

/-- A part of some bytes, by its place and its length. -/
theorem take_drop_middle {n k : Nat} {before part after : List UInt8} (place : before.length = n)
    (length : part.length = k) : ((before ++ part ++ after).drop n).take k = part := by
  rw [List.append_assoc, List.drop_left' place, List.take_left' length]

/-! Numbers. -/

/-- So many bytes of a number, of which higher ones are left out. -/
def beBytes : Nat → Nat → List UInt8
  | 0, _ => []
  | width + 1, value => beBytes width (value / 256) ++ [.ofNat value]

def ofBeBytes (bytes : List UInt8) : Nat := bytes.foldl (fun value byte => 256 * value + byte.toNat) 0

@[simp] theorem length_beBytes (width value : Nat) : (beBytes width value).length = width := by
  induction width generalizing value with
  | zero => rfl
  | succ width ih => simp [beBytes, ih]

theorem ofBeBytes_beBytes {width value : Nat} (fits : value < 256 ^ width) :
    ofBeBytes (beBytes width value) = value := by
  induction width generalizing value with
  | zero =>
      have none : value = 0 := by simpa using fits
      rw [none]
      rfl
  | succ width ih =>
      have high : value / 256 < 256 ^ width := by
        apply (Nat.div_lt_iff_lt_mul (by decide : 0 < 256)).mpr
        rwa [← Nat.pow_succ]
      have low := ih high
      unfold ofBeBytes at low
      rw [ofBeBytes, beBytes, List.foldl_append, low]
      simp only [List.foldl_cons, List.foldl_nil, UInt8.toNat_ofNat']
      omega

/-! Digits. -/

/-- A digit, in lowercase. -/
def hexDigit (value : Nat) : UInt8 := .ofNat (if value < 10 then 48 + value else 87 + value)

def digitValue (digit : UInt8) : Option Nat :=
  if 48 ≤ digit.toNat ∧ digit.toNat ≤ 57 then some (digit.toNat - 48)
  else if 97 ≤ digit.toNat ∧ digit.toNat ≤ 102 then some (digit.toNat - 87)
  else none

/-- Bytes as text, two digits for each. -/
def hexDigits (bytes : List UInt8) : List UInt8 :=
  bytes.flatMap fun byte => [hexDigit (byte.toNat / 16), hexDigit (byte.toNat % 16)]

def ofHexDigits : List UInt8 → Option (List UInt8)
  | [] => some []
  | [_] => none
  | high :: low :: rest => do
      let high ← digitValue high
      let low ← digitValue low
      let bytes ← ofHexDigits rest
      some (.ofNat (16 * high + low) :: bytes)

theorem toNat_hexDigit {value : Nat} (digit : value < 16) :
    (hexDigit value).toNat = if value < 10 then 48 + value else 87 + value := by
  rw [hexDigit, UInt8.toNat_ofNat', Nat.mod_eq_of_lt]
  split <;> omega

theorem digitValue_hexDigit {value : Nat} (digit : value < 16) :
    digitValue (hexDigit value) = some value := by
  unfold digitValue
  rw [toNat_hexDigit digit]
  by_cases small : value < 10
  · rw [if_pos small, if_pos (by omega), Nat.add_sub_cancel_left]
  · rw [if_neg small, if_neg (by omega), if_pos (by omega), Nat.add_sub_cancel_left]

/-- Bytes are read back from their digits. -/
theorem ofHexDigits_hexDigits (bytes : List UInt8) : ofHexDigits (hexDigits bytes) = some bytes := by
  induction bytes with
  | nil => rfl
  | cons byte bytes ih =>
      have bound := byte.toNat_lt
      have whole : 16 * (byte.toNat / 16) + byte.toNat % 16 = byte.toNat := Nat.div_add_mod _ _
      show ofHexDigits (hexDigit _ :: hexDigit _ :: hexDigits bytes) = _
      rw [ofHexDigits, digitValue_hexDigit (by omega), digitValue_hexDigit (by omega), ih]
      simp only [Option.bind_eq_bind, Option.bind_some, whole, UInt8.ofNat_toNat]

/-- Digits stand neither for blanks nor for the end of a line. -/
theorem le_of_mem_hexDigits {bytes : List UInt8} {digit : UInt8} (member : digit ∈ hexDigits bytes) :
    48 ≤ digit.toNat := by
  obtain ⟨byte, -, here⟩ := List.mem_flatMap.mp member
  have bound := byte.toNat_lt
  have least {value : Nat} (small : value < 16) : 48 ≤ (hexDigit value).toNat := by
    rw [toNat_hexDigit small]
    split <;> omega
  simp only [List.mem_cons, List.not_mem_nil, or_false] at here
  rcases here with rfl | rfl
  · exact least (by omega)
  · exact least (by omega)

end Workbench.Library
