import PahoMqtt.Packets.Stream
import Mathlib.Tactic.NormNum

namespace PahoMqtt.Packets

def bigEndianUint16 (b : List UInt8) : UInt16 :=
  (b.getD 1 0).toUInt16 ||| (b.getD 0 0).toUInt16 <<< 8

def bigEndianPutUint16 (v : UInt16) : List UInt8 := [(v >>> 8).toUInt8, v.toUInt8]

def decodeByte (b : List UInt8) : Except GoError UInt8 × List UInt8 :=
  match bufferRead b 1 with
  | ((_, some err), b) => (.error err, b)
  | ((num, none), b) => (.ok (num.getD 0 0), b)

def decodeUint16 (b : List UInt8) : Except GoError UInt16 × List UInt8 :=
  match bufferRead b 2 with
  | ((_, some err), b) => (.error err, b)
  | ((num, none), b) => (.ok (bigEndianUint16 num), b)

def encodeUint16 (num : UInt16) : List UInt8 := bigEndianPutUint16 num

def decodeBytes (b : List UInt8) : Except GoError (List UInt8) × List UInt8 :=
  match decodeUint16 b with
  | (.error err, b) => (.error err, b)
  | (.ok fieldLength, b) =>
    match bufferRead b fieldLength.toNat with
    | ((_, some err), b) => (.error err, b)
    | ((field, none), b) => (.ok field, b)

def encodeBytes (field : List UInt8) : List UInt8 :=
  let field := if field.length > 65535 then field.take 65535 else field
  bigEndianPutUint16 (UInt16.ofNat field.length) ++ field

def encodeString (field : GoString) : List UInt8 := encodeBytes field

def decodeString (b : List UInt8) : Except GoError GoString × List UInt8 := decodeBytes b

theorem bigEndianPutUint16_length (v : UInt16) : (bigEndianPutUint16 v).length = 2 := rfl

theorem bigEndianUint16_put (v : UInt16) : bigEndianUint16 (bigEndianPutUint16 v) = v := by
  apply UInt16.ext
  have hv := v.toNat_lt
  simp only [bigEndianUint16, bigEndianPutUint16, List.getD_cons_succ, List.getD_cons_zero]
  rw [UInt16.toNat_lor, UInt16.toNat_shl, UInt8.toUInt16_toNat, UInt8.toUInt16_toNat,
    UInt16.toUInt8_toNat, UInt16.toUInt8_toNat, UInt16.toNat_shr]
  rw [show (8 : UInt16).toNat = 8 from rfl]
  norm_num only
  rw [Nat.lor_comm, lor_eq_add (by omega) (show v.toNat % 256 < 2 ^ 8 by omega)]
  omega

theorem decodeUint16_append (l r : List UInt8) (h : l.length = 2) :
    decodeUint16 (l ++ r) = (.ok (bigEndianUint16 l), r) := by
  rw [decodeUint16, ← h, bufferRead_append]

theorem encodeBytes_eq (field : List UInt8) :
    encodeBytes field =
      bigEndianPutUint16 (UInt16.ofNat (field.take 65535).length) ++ field.take 65535 := by
  unfold encodeBytes
  split
  · rfl
  · rw [List.take_of_length_le (by omega)]

theorem decodeBytes_encodeBytes (field r : List UInt8) :
    decodeBytes (encodeBytes field ++ r) = (.ok (field.take 65535), r) := by
  have hlen : (UInt16.ofNat (field.take 65535).length).toNat = (field.take 65535).length := by
    rw [UInt16.toNat_ofNat',
      Nat.mod_eq_of_lt (Nat.lt_of_le_of_lt (List.length_take_le _ _) (by norm_num))]
  rw [encodeBytes_eq, List.append_assoc, decodeBytes,
    decodeUint16_append _ _ (bigEndianPutUint16_length _), bigEndianUint16_put]
  dsimp only
  rw [hlen, bufferRead_append]

theorem encodeBytes_prefix (field : List UInt8) :
    (bigEndianUint16 ((encodeBytes field).take 2)).toNat = ((encodeBytes field).drop 2).length := by
  rw [encodeBytes_eq, List.take_left' (bigEndianPutUint16_length _),
    List.drop_left' (bigEndianPutUint16_length _), bigEndianUint16_put, UInt16.toNat_ofNat',
    Nat.mod_eq_of_lt (Nat.lt_of_le_of_lt (List.length_take_le _ _) (by norm_num))]

theorem field_round_trip (field r : List UInt8) (s : GoString) :
    decodeBytes (encodeBytes field ++ r) = (.ok (field.take 65535), r) ∧
      (bigEndianUint16 ((encodeBytes field).take 2)).toNat = ((encodeBytes field).drop 2).length ∧
      decodeString (encodeString s ++ r) = (.ok (s.take 65535), r) ∧
      (bigEndianUint16 ((encodeString s).take 2)).toNat = ((encodeString s).drop 2).length :=
  ⟨decodeBytes_encodeBytes field r, encodeBytes_prefix field, decodeBytes_encodeBytes s r,
    encodeBytes_prefix s⟩

theorem short_fields_zero_padded :
    decodeUint16 [0x05] = (.ok 0x0500, []) ∧
      decodeBytes [0x00, 0x03, 0x61] = (.ok [0x61, 0x00, 0x00], []) :=
  ⟨rfl, rfl⟩

end PahoMqtt.Packets
