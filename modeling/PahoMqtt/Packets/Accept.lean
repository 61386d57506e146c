import PahoMqtt.Packets.ReadPacket

namespace PahoMqtt.Packets

def headerOf (typeAndFlags : UInt8) (remainingLength : Int) : FixedHeader :=
  ⟨typeAndFlags >>> 4, (typeAndFlags >>> 3) &&& 0x01 > 0, (typeAndFlags >>> 1) &&& 0x03,
    typeAndFlags &&& 0x01 > 0, remainingLength⟩

def ReadError (r : List UInt8) (err : GoError) : Prop :=
  (err = .eof ∧ (r = [] ∨ ∃ b s, r = b :: s ∧ s.length < 4 ∧ ∀ x ∈ s, x &&& 128 ≠ 0)) ∨
  ∃ b l s, r = b :: (l ++ s) ∧ LengthField l ∧
    ((err = .unsupportedPacketType (b >>> 4) ∧ (b >>> 4 = 0 ∨ b >>> 4 = 15)) ∨
      ((PacketType.ofMessageType (b >>> 4)).isSome ∧ s.length < digitsValue l ∧
        err = if s = [] then .eof else .unexpectedEOF))

section
variable {F : Type} [Inhabited F]
variable (unpack : ControlPacket F → List UInt8 → ControlPacket F × Option GoError)

def ReadsFrame (r : List UInt8) (res : Option (ControlPacket F) × Option GoError)
    (rest : List UInt8) : Prop :=
  ∃ b l body t, r = b :: (l ++ body ++ rest) ∧ LengthField l ∧ body.length = digitsValue l ∧
    PacketType.ofMessageType (b >>> 4) = some t ∧
    res = (some (unpack ⟨t, headerOf b (digitsValue l : Nat), default⟩ body).1,
      (unpack ⟨t, headerOf b (digitsValue l : Nat), default⟩ body).2)

end

theorem unpack_lengthField (typeAndFlags : UInt8) {l : List UInt8} (hl : LengthField l)
    (rest : List UInt8) :
    FixedHeader.unpack typeAndFlags (l ++ rest) =
      ((headerOf typeAndFlags (digitsValue l : Nat), none), rest) :=
  unpack_of_decodeLength typeAndFlags (decodeLength_lengthField hl rest)

theorem unpack_of_decodeLength_error {r r' : List UInt8} {err : GoError} (typeAndFlags : UInt8)
    (h : decodeLength r = (.error err, r')) :
    FixedHeader.unpack typeAndFlags r = ((headerOf typeAndFlags 0, some err), r') := by
  rw [FixedHeader.unpack, h]; rfl

theorem shr_four_le (b : UInt8) : (b >>> 4).toNat ≤ 15 := by
  have := b.toNat_lt_size
  rw [UInt8.toNat_shr, show (4 : UInt8).toNat = 4 from rfl]
  simp only [Nat.reduceMod, Nat.reducePow, UInt8.size] at *
  omega

theorem ofMessageType_eq_none {t : UInt8} (h : t.toNat ≤ 15)
    (hn : PacketType.ofMessageType t = none) : t = 0 ∨ t = 15 := by
  by_cases hr : 1 ≤ t.toNat ∧ t.toNat ≤ 14
  · obtain ⟨p, hp, -⟩ := ofMessageType_of_range hr.1 hr.2
    rw [hp] at hn; cases hn
  · rcases Nat.lt_or_ge t.toNat 1 with h1 | h1
    · exact .inl (UInt8.ext (by show t.toNat = 0; omega))
    · exact .inr (UInt8.ext (by show t.toNat = 15; omega))

section
variable {F : Type} [Inhabited F]
variable (unpack : ControlPacket F → List UInt8 → ControlPacket F × Option GoError)

theorem readPacket_shapes (r : List UInt8) :
    (∃ err, ReadError r err) ∨ ∃ res rest, ReadsFrame unpack r res rest := by
  rcases r with _ | ⟨b, s⟩
  · exact .inl ⟨_, .inl ⟨rfl, .inl rfl⟩⟩
  rcases decodeLength_cases s with ⟨l, rest, rfl, hl, -⟩ | ⟨hlen, hs, -⟩
  · rcases hT : PacketType.ofMessageType (b >>> 4) with _ | t
    · exact .inl ⟨_, .inr ⟨b, l, rest, rfl, hl,
        .inl ⟨rfl, ofMessageType_eq_none (shr_four_le b) hT⟩⟩⟩
    by_cases hlt : rest.length < digitsValue l
    · exact .inl ⟨_, .inr ⟨b, l, rest, rfl, hl, .inr ⟨by simp [hT], hlt, rfl⟩⟩⟩
    · refine .inr ⟨_, rest.drop (digitsValue l), b, l, rest.take (digitsValue l), t, ?_, hl,
        List.length_take_of_le (by omega), hT, rfl⟩
      rw [List.append_assoc, List.take_append_drop]
  · exact .inl ⟨_, .inl ⟨rfl, .inr ⟨b, s, rfl, hlen, hs⟩⟩⟩

theorem readPacket_of_frame {r rest : List UInt8} {res : Option (ControlPacket F) × Option GoError}
    (h : ReadsFrame unpack r res rest) : readPacket unpack r = (res, rest) ∧ res.1.isSome := by
  obtain ⟨b, l, body, t, rfl, hl, hbody, hT, rfl⟩ := h
  refine ⟨?_, rfl⟩
  rw [readPacket, readFull_cons_one]
  simp only [List.getD_cons_zero, List.append_assoc, unpack_lengthField b hl,
    newControlPacketWithHeader, headerOf, hT, Int.toNat_ofNat, ← hbody, readFull_append]
  simp

theorem readPacket_of_readError {r : List UInt8} {err : GoError} (h : ReadError r err) :
    (readPacket unpack r).1 = (none, some err) := by
  rcases h with ⟨rfl, rfl | ⟨b, s, rfl, hlen, hs⟩⟩ |
    ⟨b, l, s, rfl, hl, ⟨rfl, hT⟩ | ⟨hT, hlt, rfl⟩⟩
  · rfl
  · rw [readPacket, readFull_cons_one]
    simp only [List.getD_cons_zero, unpack_of_decodeLength_error b (decodeLength_eof hlen hs)]
  · have hT' : PacketType.ofMessageType (b >>> 4) = none := by
      rcases hT with h | h <;> rw [h] <;> rfl
    rw [readPacket, readFull_cons_one]
    simp only [List.getD_cons_zero, unpack_lengthField b hl, newControlPacketWithHeader, headerOf,
      hT']
  · obtain ⟨t, hT⟩ := Option.isSome_iff_exists.mp hT
    rw [readPacket, readFull_cons_one]
    simp only [List.getD_cons_zero, unpack_lengthField b hl, newControlPacketWithHeader,
      headerOf, hT, readFull, Int.toNat_ofNat, if_neg (Nat.not_le.mpr hlt)]
    split_ifs <;> rfl

theorem readPacket_frame_iff (r rest : List UInt8)
    (res : Option (ControlPacket F) × Option GoError) :
    (readPacket unpack r = (res, rest) ∧ res.1.isSome) ↔ ReadsFrame unpack r res rest := by
  refine ⟨fun ⟨h, hs⟩ => ?_, readPacket_of_frame unpack⟩
  rcases readPacket_shapes unpack r with ⟨err, he⟩ | ⟨res', rest', hf⟩
  · have := readPacket_of_readError unpack he
    rw [h] at this
    rw [show res = _ from this] at hs
    cases hs
  · obtain ⟨h', -⟩ := readPacket_of_frame unpack hf
    rw [h, Prod.mk.injEq] at h'
    rwa [h'.1, h'.2]

theorem readPacket_error_iff (r : List UInt8) (err : GoError) :
    (readPacket unpack r).1 = (none, some err) ↔ ReadError r err := by
  refine ⟨fun h => ?_, readPacket_of_readError unpack⟩
  rcases readPacket_shapes unpack r with ⟨err', he⟩ | ⟨res, rest, hf⟩
  · rw [readPacket_of_readError unpack he, Prod.mk.injEq, Option.some_inj] at h
    exact h.2 ▸ he
  · obtain ⟨h', hs⟩ := readPacket_of_frame unpack hf
    rw [h'] at h
    rw [show res = _ from h] at hs
    cases hs

end

theorem decide_and_one_toNat (x : UInt8) : (decide (x &&& 0x01 > 0)).toNat = x.toNat % 2 := by
  rw [UInt8.decide_pos, UInt8.and_toNat, show (0x01 : UInt8).toNat = 1 from rfl, Nat.and_one_is_mod]
  rcases Nat.mod_two_eq_zero_or_one x.toNat with h | h <;> simp [h]

theorem typeAndFlags_repack (b : UInt8) :
    (b >>> 4) <<< 4 ||| boolToByte ((b >>> 3) &&& 0x01 > 0) <<< 3 ||| ((b >>> 1) &&& 0x03) <<< 1 |||
      boolToByte (b &&& 0x01 > 0) = b := by
  have hb := b.toNat_lt_size
  have h3 : ((b >>> 1) &&& 0x03).toNat = b.toNat / 2 % 4 := by
    rw [UInt8.and_toNat, UInt8.toNat_shr, show (0x03 : UInt8).toNat = 2 ^ 2 - 1 from rfl,
      Nat.and_pow_two_sub_one_eq_mod]; rfl
  apply UInt8.ext
  rw [typeAndFlags_toNat _ _ (shr_four_le b) (show ((b >>> 1) &&& 0x03).toNat ≤ 3 by omega), h3,
    decide_and_one_toNat, decide_and_one_toNat, UInt8.toNat_shr, UInt8.toNat_shr]
  simp only [show (4 : UInt8).toNat = 4 from rfl, show (3 : UInt8).toNat = 3 from rfl,
    Nat.reduceMod, Nat.reducePow, UInt8.size] at *
  omega

theorem headerOf_pack (b : UInt8) (L : Int) : (headerOf b L).pack = b :: encodeLength L := by
  rw [FixedHeader.pack, headerOf]
  dsimp only
  rw [typeAndFlags_repack]

theorem fixedHeader_repack (b : UInt8) {l : List UInt8} (hl : LengthField l) (rest : List UInt8) :
    FixedHeader.unpack b (l ++ rest) = ((headerOf b (digitsValue l : Nat), none), rest) ∧
      (headerOf b (digitsValue l : Nat)).pack = b :: encodeLength (digitsValue l : Nat) ∧
      ((headerOf b (digitsValue l : Nat)).pack = b :: l ↔ MinimalLength l) := by
  have hbound : digitsValue l ≤ 268435455 := by
    obtain ⟨pre, c, rfl, hlen, -⟩ := hl
    have hlt := digitsValue_lt (pre ++ [c])
    have : 2 ^ (7 * (pre ++ [c]).length) ≤ 2 ^ 28 :=
      Nat.pow_le_pow_right (by norm_num)
        (by simp only [List.length_append, List.length_singleton]; omega)
    omega
  refine ⟨unpack_lengthField b hl rest, headerOf_pack b _, ?_⟩
  rw [headerOf_pack, List.cons.injEq]
  constructor
  · rintro ⟨-, he⟩
    exact he ▸ encodeLength_minimalLength (Int.natCast_nonneg _) (by omega)
  · rintro ⟨pre, c, rfl, -, hpre, hc, hz⟩
    exact ⟨rfl, encodeLength_digitsValue hpre hc hz⟩

theorem fixedHeader_repack_zero_length :
    LengthField [0x80, 0x00] ∧
      (headerOf 0x30 (digitsValue [0x80, 0x00] : Nat)).pack =
        0x30 :: encodeLength (digitsValue [0x80, 0x00] : Nat) :=
  have hl : LengthField [0x80, 0x00] :=
    ⟨[0x80], 0x00, rfl, by decide, by decide, fun _ => by decide⟩
  ⟨hl, (fixedHeader_repack 0x30 hl []).2.1⟩

end PahoMqtt.Packets
