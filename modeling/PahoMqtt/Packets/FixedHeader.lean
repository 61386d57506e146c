import PahoMqtt.Packets.Length

namespace PahoMqtt.Packets

structure FixedHeader where
  messageType : UInt8
  dup : Bool
  qos : UInt8
  retain : Bool
  remainingLength : Int
  deriving DecidableEq, Repr

def boolToByte (b : Bool) : UInt8 :=
  match b with
  | true => 1
  | false => 0

def FixedHeader.pack (fh : FixedHeader) : List UInt8 :=
  (fh.messageType <<< 4 ||| boolToByte fh.dup <<< 3 ||| fh.qos <<< 1 ||| boolToByte fh.retain) ::
    encodeLength fh.remainingLength

def FixedHeader.unpack (typeAndFlags : UInt8) (r : List UInt8) :
    (FixedHeader × Option GoError) × List UInt8 :=
  let messageType := typeAndFlags >>> 4
  let dup := (typeAndFlags >>> 3) &&& 0x01 > 0
  let qos := (typeAndFlags >>> 1) &&& 0x03
  let retain := typeAndFlags &&& 0x01 > 0
  match decodeLength r with
  | (.ok remainingLength, r) => ((⟨messageType, dup, qos, retain, remainingLength⟩, none), r)
  | (.error err, r) => ((⟨messageType, dup, qos, retain, 0⟩, some err), r)

theorem boolToByte_toNat (b : Bool) : (boolToByte b).toNat = b.toNat := by
  cases b <;> rfl

theorem UInt8.decide_pos (x : UInt8) : decide (x > 0) = decide (0 < x.toNat) := rfl

theorem typeAndFlags_toNat {mt q : UInt8} (d r : Bool) (hmt : mt ≤ 15) (hq : q ≤ 3) :
    (mt <<< 4 ||| boolToByte d <<< 3 ||| q <<< 1 ||| boolToByte r).toNat =
      16 * mt.toNat + 8 * d.toNat + 2 * q.toNat + r.toNat := by
  have hmt' : mt.toNat ≤ 15 := hmt
  have hq' : q.toNat ≤ 3 := hq
  have hd := Bool.toNat_le d
  have hr := Bool.toNat_le r
  simp only [UInt8.toNat_lor, UInt8.toNat_shl, boolToByte_toNat,
    show (4 : UInt8).toNat = 4 from rfl, show (3 : UInt8).toNat = 3 from rfl,
    show (1 : UInt8).toNat = 1 from rfl, Nat.reduceMod, Nat.reducePow]
  rw [lor_eq_add (show mt.toNat * 16 % 256 % 2 ^ 4 = 0 by omega)
      (show d.toNat * 8 % 256 < 2 ^ 4 by omega),
    lor_eq_add (show (mt.toNat * 16 % 256 + d.toNat * 8 % 256) % 2 ^ 3 = 0 by omega)
      (show q.toNat * 2 % 256 < 2 ^ 3 by omega),
    lor_eq_add
      (show (mt.toNat * 16 % 256 + d.toNat * 8 % 256 + q.toNat * 2 % 256) % 2 ^ 1 = 0 by omega)
      (show r.toNat < 2 ^ 1 by omega)]
  omega

theorem unpack_typeAndFlags {mt q : UInt8} (d r : Bool) (hmt : mt ≤ 15) (hq : q ≤ 3) :
    let b := mt <<< 4 ||| boolToByte d <<< 3 ||| q <<< 1 ||| boolToByte r
    b >>> 4 = mt ∧ decide ((b >>> 3) &&& 0x01 > 0) = d ∧ (b >>> 1) &&& 0x03 = q ∧
      decide (b &&& 0x01 > 0) = r := by
  intro b
  have hb := typeAndFlags_toNat d r hmt hq
  have hmt' : mt.toNat ≤ 15 := hmt
  have hq' : q.toNat ≤ 3 := hq
  have hd := Bool.toNat_le d
  have hr := Bool.toNat_le r
  refine ⟨UInt8.ext ?_, ?_, UInt8.ext ?_, ?_⟩
  · rw [UInt8.toNat_shr, hb]
    simp only [show (4 : UInt8).toNat = 4 from rfl, Nat.reduceMod, Nat.reducePow]
    omega
  · rw [UInt8.decide_pos, UInt8.and_toNat, UInt8.toNat_shr, hb]
    simp only [show (3 : UInt8).toNat = 3 from rfl, show (1 : UInt8).toNat = 1 from rfl,
      Nat.and_one_is_mod, Nat.reduceMod, Nat.reducePow]
    cases d <;> simp <;> omega
  · rw [UInt8.and_toNat, UInt8.toNat_shr, hb, show (3 : UInt8).toNat = 2 ^ 2 - 1 from rfl,
      Nat.and_pow_two_sub_one_eq_mod]
    simp only [show (1 : UInt8).toNat = 1 from rfl, Nat.reduceMod, Nat.reducePow]
    omega
  · rw [UInt8.decide_pos, UInt8.and_toNat, hb]
    simp only [show (1 : UInt8).toNat = 1 from rfl, Nat.and_one_is_mod]
    cases r <;> simp <;> omega

theorem unpack_of_decodeLength {r r' : List UInt8} {L : Int} (typeAndFlags : UInt8)
    (h : decodeLength r = (.ok L, r')) :
    FixedHeader.unpack typeAndFlags r =
      ((⟨typeAndFlags >>> 4, (typeAndFlags >>> 3) &&& 0x01 > 0, (typeAndFlags >>> 1) &&& 0x03,
        typeAndFlags &&& 0x01 > 0, L⟩, none), r') := by
  rw [FixedHeader.unpack, h]

theorem unpack_pack (fh : FixedHeader) (r : List UInt8) (hmt : fh.messageType ≤ 15)
    (hq : fh.qos ≤ 3) (h0 : 0 ≤ fh.remainingLength) (h1 : fh.remainingLength ≤ 268435455) :
    ∃ b rest, fh.pack = b :: rest ∧ FixedHeader.unpack b (rest ++ r) = ((fh, none), r) := by
  obtain ⟨hm, hd, hqos, hr⟩ := unpack_typeAndFlags fh.dup fh.retain hmt hq
  refine ⟨_, _, rfl, ?_⟩
  rw [unpack_of_decodeLength _ (decodeLength_encodeLength h0 h1 r), hm, hd, hqos, hr]

theorem unpack_pack_overflow (fh : FixedHeader) (r : List UInt8) (hmt : fh.messageType ≤ 15)
    (hq : fh.qos ≤ 3) (h : 268435455 < fh.remainingLength) :
    ∃ b rest, fh.pack = b :: rest ∧ 4 < rest.length ∧
      FixedHeader.unpack b (rest ++ r) =
        (({ fh with remainingLength := fh.remainingLength % 268435456 }, none),
          rest.drop 4 ++ r) := by
  obtain ⟨hm, hd, hqos, hr⟩ := unpack_typeAndFlags fh.dup fh.retain hmt hq
  obtain ⟨hlen, hdec⟩ := decodeLength_encodeLength_overflow h r
  refine ⟨_, _, rfl, hlen, ?_⟩
  rw [unpack_of_decodeLength _ hdec, hm, hd, hqos, hr]

theorem unpack_pack_overflow_2p28 :
    ∃ b rest, (⟨3, false, 0, false, 268435456⟩ : FixedHeader).pack = b :: rest ∧
      4 < rest.length ∧
      FixedHeader.unpack b (rest ++ []) = ((⟨3, false, 0, false, 0⟩, none), rest.drop 4 ++ []) :=
  unpack_pack_overflow ⟨3, false, 0, false, 268435456⟩ [] (by decide) (by decide) (by decide)

theorem decodeLength_outcomes :
    (∀ (pre : List UInt8) (b : UInt8) (rest : List UInt8), pre.length < 4 →
      (∀ x ∈ pre, x &&& 128 ≠ 0) → b &&& 128 = 0 →
      decodeLength (pre ++ b :: rest) = (.ok (digitsValue (pre ++ [b]) : Nat), rest)) ∧
    (∀ s : List UInt8, s.length < 4 → (∀ x ∈ s, x &&& 128 ≠ 0) →
      decodeLength s = (.error .eof, [])) ∧
    (∀ pre rest : List UInt8, pre.length = 4 → (∀ x ∈ pre, x &&& 128 ≠ 0) →
      decodeLength (pre ++ rest) = (.ok (digitsValue pre : Nat), rest) ∧
      ∀ typeAndFlags, (FixedHeader.unpack typeAndFlags (pre ++ rest)).1.2 = none ∧
        (FixedHeader.unpack typeAndFlags (pre ++ rest)).1.1.remainingLength = digitsValue pre) :=
  ⟨fun _ _ rest hlen hpre hb => decodeLength_terminal rest hlen hpre hb,
    fun _ hlen hs => decodeLength_eof hlen hs,
    fun _ rest hlen hpre => ⟨decodeLength_four rest hlen hpre, fun t => by
      rw [unpack_of_decodeLength t (decodeLength_four rest hlen hpre)]; exact ⟨rfl, rfl⟩⟩⟩

theorem decodeLength_four_continuation_bytes :
    decodeLength [0x80, 0x80, 0x80, 0x80, 0x01] = (.ok 0, [0x01]) := rfl

end PahoMqtt.Packets
