import Mathlib.Data.String.Basic
import Mathlib.Data.List.Basic
import Mathlib.Data.Nat.Bitwise

namespace PahoMqtt

abbrev GoString := List UInt8

theorem UInt8.toNat_lor (a b : UInt8) : (a ||| b).toNat = a.toNat ||| b.toNat :=
  BitVec.toNat_or ..

theorem UInt8.toNat_shl (a b : UInt8) : (a <<< b).toNat = a.toNat * 2 ^ (b.toNat % 8) % 256 := by
  show (a.toBitVec <<< (b.toBitVec % 8)).toNat = _
  rw [BitVec.shiftLeft_eq', BitVec.toNat_shiftLeft, Nat.shiftLeft_eq]; rfl

theorem UInt8.toNat_shr (a b : UInt8) : (a >>> b).toNat = a.toNat / 2 ^ (b.toNat % 8) := by
  show (a.toBitVec >>> (b.toBitVec % 8)).toNat = _
  rw [BitVec.ushiftRight_eq', BitVec.toNat_ushiftRight, Nat.shiftRight_eq_div_pow]; rfl

theorem UInt8.toNat_ofNat' (n : Nat) : (UInt8.ofNat n).toNat = n % 256 := BitVec.toNat_ofNat ..

theorem UInt16.toNat_lor (a b : UInt16) : (a ||| b).toNat = a.toNat ||| b.toNat :=
  BitVec.toNat_or ..

theorem UInt16.toNat_shl (a b : UInt16) :
    (a <<< b).toNat = a.toNat * 2 ^ (b.toNat % 16) % 2 ^ 16 := by
  show (a.toBitVec <<< (b.toBitVec % 16)).toNat = _
  rw [BitVec.shiftLeft_eq', BitVec.toNat_shiftLeft, Nat.shiftLeft_eq]; rfl

theorem UInt16.toNat_shr (a b : UInt16) : (a >>> b).toNat = a.toNat / 2 ^ (b.toNat % 16) := by
  show (a.toBitVec >>> (b.toBitVec % 16)).toNat = _
  rw [BitVec.ushiftRight_eq', BitVec.toNat_ushiftRight, Nat.shiftRight_eq_div_pow]; rfl

theorem UInt16.toNat_ofNat' (n : Nat) : (UInt16.ofNat n).toNat = n % 65536 := BitVec.toNat_ofNat ..

theorem UInt32.toNat_lor (a b : UInt32) : (a ||| b).toNat = a.toNat ||| b.toNat :=
  BitVec.toNat_or ..

theorem UInt32.toNat_shl (a b : UInt32) :
    (a <<< b).toNat = a.toNat * 2 ^ (b.toNat % 32) % 2 ^ 32 := by
  show (a.toBitVec <<< (b.toBitVec % 32)).toNat = _
  rw [BitVec.shiftLeft_eq', BitVec.toNat_shiftLeft, Nat.shiftLeft_eq]; rfl

theorem lor_eq_add {a b k : Nat} (ha : a % 2 ^ k = 0) (hb : b < 2 ^ k) : a ||| b = a + b := by
  obtain ⟨c, rfl⟩ := Nat.dvd_of_mod_eq_zero ha
  exact (Nat.mul_add_lt_is_or hb c).symm

theorem UInt8.and_127 (b : UInt8) : (b &&& 127).toNat = b.toNat % 128 := by
  rw [UInt8.and_toNat]; exact Nat.and_pow_two_sub_one_eq_mod _ 7

theorem UInt8.and_128_eq_zero {b : UInt8} : b &&& 128 = 0 ↔ b.toNat < 128 := by
  have hb := b.toNat_lt
  have h : (b &&& 128).toNat = b.toNat / 128 % 2 * 128 := by
    rw [UInt8.and_toNat, show (128 : UInt8).toNat = 2 ^ 7 from rfl, Nat.and_two_pow,
      Nat.testBit_to_div_mod]
    rcases Nat.mod_two_eq_zero_or_one (b.toNat / 128) with h | h <;> simp [h]
  constructor
  · intro h0; rw [h0] at h; simp at h; omega
  · intro hlt; apply UInt8.ext; rw [h]; simp; omega

inductive GoError where
  | eof
  | unexpectedEOF
  | unsupportedPacketType (messageType : UInt8)
  | failedToReadExpectedData
  | other (text : String)
  deriving DecidableEq, Repr

def GoError.error : GoError → String
  | .eof => "EOF"
  | .unexpectedEOF => "unexpected EOF"
  | .unsupportedPacketType t => "unsupported packet type 0x" ++ String.mk (Nat.toDigits 16 t.toNat)
  | .failedToReadExpectedData => "failed to read expected data"
  | .other text => text

def readFull (r : List UInt8) (n : Nat) : Except GoError (List UInt8) × List UInt8 :=
  if n ≤ r.length then (.ok (r.take n), r.drop n)
  else if r = [] then (.error .eof, []) else (.error .unexpectedEOF, [])

def bufferRead (b : List UInt8) (n : Nat) : (List UInt8 × Option GoError) × List UInt8 :=
  if b = [] then (if n = 0 then (([], none), []) else ((List.replicate n 0, some .eof), []))
  else
    let k := min n b.length
    ((b.take k ++ List.replicate (n - k) 0, none), b.drop k)

theorem readFull_append (l r : List UInt8) : readFull (l ++ r) l.length = (.ok l, r) := by
  simp [readFull]

theorem readFull_cons_one (b : UInt8) (r : List UInt8) : readFull (b :: r) 1 = (.ok [b], r) :=
  readFull_append [b] r

theorem bufferRead_append (l r : List UInt8) : bufferRead (l ++ r) l.length = ((l, none), r) := by
  unfold bufferRead
  split
  · next h => simp_all
  · simp

end PahoMqtt
