import PahoMqtt.Packets.Stream
import Mathlib.Tactic.Ring

namespace PahoMqtt.Packets

def goByte (x : Int) : UInt8 := UInt8.ofNat (x % 256).toNat

def encodeLength (length : Int) : List UInt8 :=
  let digit := goByte (length.tmod 128)
  let rest := length.tdiv 128
  let digit := if rest > 0 then digit ||| 0x80 else digit
  if rest = 0 then [digit] else digit :: encodeLength rest
termination_by length.natAbs
decreasing_by
  have h : (length.tdiv 128).natAbs = length.natAbs / 128 := Int.natAbs_tdiv _ _
  have h0 : (length.tdiv 128).natAbs ≠ 0 := Int.natAbs_ne_zero.mpr ‹_›
  omega

def decodeLengthLoop (rLength multiplier : UInt32) (r : List UInt8) :
    Except GoError UInt32 × List UInt8 :=
  if multiplier < 27 then
    match r with
    | [] => (.error .eof, [])
    | digit :: r =>
      let rLength := rLength ||| (digit &&& 127).toUInt32 <<< multiplier
      if digit &&& 128 = 0 then (.ok rLength, r) else decodeLengthLoop rLength (multiplier + 7) r
  else (.ok rLength, r)

def decodeLength (r : List UInt8) : Except GoError Int × List UInt8 :=
  match decodeLengthLoop 0 0 r with
  | (.ok rLength, r) => (.ok rLength.toNat, r)
  | (.error err, r) => (.error err, r)

def digitsValue : List UInt8 → Nat
  | [] => 0
  | b :: bs => (b &&& 127).toNat + 128 * digitsValue bs

theorem digitsValue_lt (l : List UInt8) : digitsValue l < 2 ^ (7 * l.length) := by
  induction l with
  | nil => simp [digitsValue]
  | cons b l ih =>
    have hb := UInt8.and_127 b
    have : b.toNat % 128 < 128 := Nat.mod_lt _ (by norm_num)
    rw [digitsValue, List.length_cons, Nat.mul_succ, pow_add]
    omega

theorem digitsValue_append (l l' : List UInt8) :
    digitsValue (l ++ l') = digitsValue l + 2 ^ (7 * l.length) * digitsValue l' := by
  induction l with
  | nil => simp [digitsValue]
  | cons b l ih => rw [List.cons_append, digitsValue, digitsValue, ih, List.length_cons,
      Nat.mul_succ, pow_add]; ring

theorem accumulate_toNat {acc m : UInt32} (d : UInt8) (hm : m.toNat ≤ 21)
    (hacc : acc.toNat < 2 ^ m.toNat) :
    (acc ||| (d &&& 127).toUInt32 <<< m).toNat = acc.toNat + 2 ^ m.toNat * (d.toNat % 128) := by
  have hp : 2 ^ m.toNat ≤ 2 ^ 21 := Nat.pow_le_pow_right (by norm_num) hm
  have hd : d.toNat % 128 < 128 := Nat.mod_lt _ (by norm_num)
  have hlt : d.toNat % 128 * 2 ^ m.toNat < 2 ^ 32 :=
    calc d.toNat % 128 * 2 ^ m.toNat < 128 * 2 ^ 21 :=
          Nat.mul_lt_mul_of_lt_of_le hd hp (Nat.two_pow_pos _)
      _ < 2 ^ 32 := by decide
  rw [UInt32.toNat_lor, UInt32.toNat_shl, UInt8.toUInt32_toNat, UInt8.and_127,
    Nat.mod_eq_of_lt (show m.toNat < 32 by omega), Nat.mod_eq_of_lt hlt, Nat.lor_comm,
    lor_eq_add (Nat.mul_mod_left _ _) hacc, Nat.add_comm, Nat.mul_comm]

theorem decodeLengthLoop_cons (acc m : UInt32) (d : UInt8) (s : List UInt8) (hm : m < 27) :
    decodeLengthLoop acc m (d :: s) =
      if d &&& 128 = 0 then (.ok (acc ||| (d &&& 127).toUInt32 <<< m), s)
      else decodeLengthLoop (acc ||| (d &&& 127).toUInt32 <<< m) (m + 7) s := by
  rw [decodeLengthLoop, if_pos hm]

theorem decodeLengthLoop_nil (acc m : UInt32) (hm : m < 27) :
    decodeLengthLoop acc m [] = (.error .eof, []) := by
  unfold decodeLengthLoop; rw [if_pos hm]

theorem decodeLengthLoop_stop (acc m : UInt32) (r : List UInt8) (hm : ¬m < 27) :
    decodeLengthLoop acc m r = (.ok acc, r) := by
  unfold decodeLengthLoop; rw [if_neg hm]

theorem decodeLengthLoop_continue (pre s : List UInt8) (acc m : UInt32)
    (hm : m.toNat + 7 * pre.length ≤ 28) (hacc : acc.toNat < 2 ^ m.toNat)
    (hpre : ∀ x ∈ pre, x &&& 128 ≠ 0) :
    ∃ acc' m' : UInt32, acc'.toNat = acc.toNat + 2 ^ m.toNat * digitsValue pre ∧
      m'.toNat = m.toNat + 7 * pre.length ∧
      decodeLengthLoop acc m (pre ++ s) = decodeLengthLoop acc' m' s := by
  induction pre generalizing acc m with
  | nil => exact ⟨acc, m, by simp [digitsValue], by simp, rfl⟩
  | cons x pre ih =>
    simp only [List.length_cons] at hm
    have hx := hpre x (List.mem_cons_self _ _)
    have hacc' := accumulate_toNat x (by omega) hacc
    have hm7 : (m + 7).toNat = m.toNat + 7 := by rw [UInt32.toNat_add]; simp; omega
    have hbound : (acc ||| (x &&& 127).toUInt32 <<< m).toNat < 2 ^ (m + 7).toNat := by
      have h127 : 2 ^ m.toNat * (x.toNat % 128) ≤ 2 ^ m.toNat * 127 :=
        Nat.mul_le_mul_left _ (Nat.lt_succ_iff.mp (Nat.mod_lt _ (by norm_num)))
      rw [hacc', hm7, pow_add]
      omega
    obtain ⟨acc', m', h1, h2, h3⟩ := ih _ _ (by omega) hbound
      (fun y hy => hpre y (List.mem_cons_of_mem _ hy))
    refine ⟨acc', m', ?_, by rw [List.length_cons]; omega, ?_⟩
    · rw [h1, hacc', hm7, digitsValue, UInt8.and_127, pow_add]; ring
    · rw [List.cons_append, decodeLengthLoop_cons _ _ _ _ (by show m.toNat < 27; omega),
        if_neg hx, h3]

theorem decodeLength_prefix {pre s : List UInt8} (hlen : pre.length ≤ 4)
    (hpre : ∀ x ∈ pre, x &&& 128 ≠ 0) :
    ∃ acc' m' : UInt32, acc'.toNat = digitsValue pre ∧ m'.toNat = 7 * pre.length ∧
      decodeLengthLoop 0 0 (pre ++ s) = decodeLengthLoop acc' m' s := by
  obtain ⟨acc', m', h1, h2, h3⟩ :=
    decodeLengthLoop_continue pre s 0 0 (by simp; omega) (by simp) hpre
  exact ⟨acc', m', by simpa using h1, by simpa using h2, h3⟩

theorem decodeLength_terminal {pre : List UInt8} {b : UInt8} (rest : List UInt8)
    (hlen : pre.length < 4) (hpre : ∀ x ∈ pre, x &&& 128 ≠ 0) (hb : b &&& 128 = 0) :
    decodeLength (pre ++ b :: rest) = (.ok (digitsValue (pre ++ [b]) : Nat), rest) := by
  obtain ⟨acc', m', h1, h2, h3⟩ := decodeLength_prefix (s := b :: rest) (by omega) hpre
  have hacc : acc'.toNat < 2 ^ m'.toNat := h1 ▸ h2 ▸ digitsValue_lt pre
  rw [decodeLength, h3, decodeLengthLoop_cons _ _ _ _ (by show m'.toNat < 27; omega), if_pos hb]
  simp only [accumulate_toNat b (by omega) hacc, h1, h2, digitsValue_append, digitsValue,
    UInt8.and_127, Nat.mul_zero, Nat.add_zero]

theorem decodeLength_eof {s : List UInt8} (hlen : s.length < 4)
    (hs : ∀ x ∈ s, x &&& 128 ≠ 0) : decodeLength s = (.error .eof, []) := by
  obtain ⟨acc', m', -, h2, h3⟩ := decodeLength_prefix (s := []) (by omega) hs
  rw [List.append_nil] at h3
  rw [decodeLength, h3, decodeLengthLoop_nil _ _ (by show m'.toNat < 27; omega)]

theorem decodeLength_four {pre : List UInt8} (rest : List UInt8) (hlen : pre.length = 4)
    (hpre : ∀ x ∈ pre, x &&& 128 ≠ 0) :
    decodeLength (pre ++ rest) = (.ok (digitsValue pre : Nat), rest) := by
  obtain ⟨acc', m', h1, h2, h3⟩ := decodeLength_prefix (s := rest) (by omega) hpre
  rw [decodeLength, h3, decodeLengthLoop_stop _ _ _ (by show ¬m'.toNat < 27; omega)]
  simp only [h1]

theorem ofNat_lor_128 {d : Nat} (h : d < 128) : UInt8.ofNat d ||| 0x80 = UInt8.ofNat (d + 128) := by
  apply UInt8.ext
  rw [UInt8.toNat_lor, UInt8.toNat_ofNat', UInt8.toNat_ofNat', Nat.mod_eq_of_lt (by omega),
    Nat.mod_eq_of_lt (by omega), show (0x80 : UInt8).toNat = 128 from rfl, Nat.lor_comm,
    lor_eq_add (show 128 % 2 ^ 7 = 0 by norm_num) (by omega)]
  omega

theorem encodeLength_nat (n : Nat) :
    encodeLength n = if n / 128 = 0 then [UInt8.ofNat (n % 128)]
      else UInt8.ofNat (n % 128 + 128) :: encodeLength (n / 128 : Nat) := by
  rw [encodeLength]
  have hmod : Int.tmod n 128 = ((n % 128 : Nat) : Int) := by
    rw [Int.tmod_eq_emod (Int.natCast_nonneg n) (by decide)]; omega
  have hdiv : Int.tdiv n 128 = ((n / 128 : Nat) : Int) := by
    rw [Int.tdiv_eq_ediv (Int.natCast_nonneg n) (by decide)]; omega
  have hbyte : goByte ((n % 128 : Nat) : Int) = UInt8.ofNat (n % 128) := by
    rw [goByte]; congr 1; omega
  simp only [hmod, hdiv, hbyte]
  by_cases h : n / 128 = 0
  · simp [h]
  · have h1 : ¬((n / 128 : Nat) : Int) = 0 := by omega
    have h2 : ((n / 128 : Nat) : Int) > 0 := by omega
    rw [if_neg h1, if_pos h2, if_neg h, ofNat_lor_128 (Nat.mod_lt _ (by norm_num))]

theorem encodeLength_shape (n : Nat) :
    ∃ pre b, encodeLength n = pre ++ [b] ∧ (∀ x ∈ pre, x &&& 128 ≠ 0) ∧ b &&& 128 = 0 ∧
      digitsValue (pre ++ [b]) = n ∧ ∀ k, n < 2 ^ (7 * (k + 1)) → pre.length ≤ k := by
  induction n using Nat.strong_induction_on with
  | _ n ih =>
    rw [encodeLength_nat]
    by_cases h : n / 128 = 0
    · rw [if_pos h]
      have hb : (UInt8.ofNat (n % 128)).toNat = n := by rw [UInt8.toNat_ofNat']; omega
      refine ⟨[], _, rfl, by simp, UInt8.and_128_eq_zero.mpr (by omega), ?_, by simp⟩
      simp only [List.nil_append, digitsValue, UInt8.and_127, hb]; omega
    · rw [if_neg h]
      obtain ⟨pre, b, he, hpre, hb, hv, hk⟩ := ih (n / 128) (by omega)
      have hx : (UInt8.ofNat (n % 128 + 128)).toNat = n % 128 + 128 := by
        rw [UInt8.toNat_ofNat']; omega
      refine ⟨UInt8.ofNat (n % 128 + 128) :: pre, b, by rw [he]; rfl, ?_, hb, ?_, ?_⟩
      · intro x hmem
        rcases List.mem_cons.mp hmem with rfl | hmem
        · rw [Ne, UInt8.and_128_eq_zero, hx]; omega
        · exact hpre x hmem
      · rw [List.cons_append, digitsValue, hv, UInt8.and_127, hx]; omega
      · intro k hn
        cases k with
        | zero => omega
        | succ k =>
          have := hk k (by rw [Nat.mul_succ, pow_add] at hn; omega)
          simp only [List.length_cons]; omega

theorem decodeLength_encodeLength {L : Int} (h0 : 0 ≤ L) (h1 : L ≤ 268435455) (r : List UInt8) :
    decodeLength (encodeLength L ++ r) = (.ok L, r) := by
  obtain ⟨n, rfl⟩ := Int.eq_ofNat_of_zero_le h0
  obtain ⟨pre, b, he, hpre, hb, hv, hk⟩ := encodeLength_shape n
  rw [he, List.append_assoc, List.singleton_append,
    decodeLength_terminal r (by have := hk 3 (by norm_num; omega); omega) hpre hb, hv]

theorem encodeLength_minimal {L : Int} (h0 : 0 ≤ L) (h1 : L ≤ 268435455) :
    1 ≤ (encodeLength L).length ∧ L < 128 ^ (encodeLength L).length ∧
      (∀ k, 1 ≤ k → L < 128 ^ k → (encodeLength L).length ≤ k) ∧ (encodeLength L).length ≤ 4 ∧
      (∃ pre b, encodeLength L = pre ++ [b] ∧ (∀ x ∈ pre, x &&& 0x80 ≠ 0) ∧ b &&& 0x80 = 0) ∧
      (digitsValue (encodeLength L) : Int) = L := by
  obtain ⟨n, rfl⟩ := Int.eq_ofNat_of_zero_le h0
  obtain ⟨pre, b, he, hpre, hb, hv, hk⟩ := encodeLength_shape n
  have hpow : ∀ k, (128 : Int) ^ k = ((2 ^ (7 * k) : Nat) : Int) := fun k => by
    rw [pow_mul]; norm_num
  have hmin : ∀ k, 1 ≤ k → (n : Int) < 128 ^ k → (pre ++ [b]).length ≤ k := by
    rintro (_ | k) hk1 hnk
    · omega
    · have := hk k (by rw [hpow] at hnk; exact_mod_cast hnk)
      simp only [List.length_append, List.length_singleton]
      omega
  rw [he]
  refine ⟨by simp, ?_, hmin, hmin 4 (by norm_num) (by norm_num; omega), ⟨pre, b, rfl, hpre, hb⟩,
    by rw [hv]⟩
  rw [hpow]
  exact_mod_cast hv ▸ digitsValue_lt (pre ++ [b])

theorem encodeLength_minimal_321 :
    0 ≤ (321 : Int) ∧ (321 : Int) ≤ 268435455 ∧ (encodeLength 321).length ≤ 4 :=
  ⟨by decide, by decide, (encodeLength_minimal (by decide) (by decide)).2.2.2.1⟩

def LengthField (l : List UInt8) : Prop :=
  ∃ pre b, l = pre ++ [b] ∧ pre.length < 4 ∧ (∀ x ∈ pre, x &&& 128 ≠ 0) ∧
    (pre.length < 3 → b &&& 128 = 0)

def MinimalLength (l : List UInt8) : Prop :=
  ∃ pre b, l = pre ++ [b] ∧ pre.length < 4 ∧ (∀ x ∈ pre, x &&& 128 ≠ 0) ∧ b &&& 128 = 0 ∧
    (pre = [] ∨ b ≠ 0)

theorem decodeLength_lengthField {l : List UInt8} (hl : LengthField l) (rest : List UInt8) :
    decodeLength (l ++ rest) = (.ok (digitsValue l : Nat), rest) := by
  obtain ⟨pre, b, rfl, hlen, hpre, hb⟩ := hl
  by_cases hc : b &&& 128 = 0
  · rw [List.append_assoc, List.singleton_append]
    exact decodeLength_terminal rest hlen hpre hc
  · have h3 : ¬pre.length < 3 := fun h => hc (hb h)
    refine decodeLength_four rest (by simp only [List.length_append, List.length_singleton]; omega)
      fun x hx => ?_
    rcases List.mem_append.mp hx with hx | hx
    · exact hpre x hx
    · rwa [List.mem_singleton.mp hx]

theorem lengthField_split (k : Nat) (s : List UInt8) :
    (∃ pre b rest, s = pre ++ b :: rest ∧ pre.length < k ∧ (∀ x ∈ pre, x &&& 128 ≠ 0) ∧
      b &&& 128 = 0) ∨
    (∃ pre rest, s = pre ++ rest ∧ pre.length = k ∧ ∀ x ∈ pre, x &&& 128 ≠ 0) ∨
    (s.length < k ∧ ∀ x ∈ s, x &&& 128 ≠ 0) := by
  induction k generalizing s with
  | zero => exact .inr (.inl ⟨[], s, rfl, rfl, by simp⟩)
  | succ k ih =>
    cases s with
    | nil => exact .inr (.inr ⟨Nat.succ_pos k, by simp⟩)
    | cons x s =>
      by_cases hx : x &&& 128 = 0
      · exact .inl ⟨[], x, s, rfl, Nat.succ_pos k, by simp, hx⟩
      · rcases ih s with ⟨pre, b, rest, rfl, hlen, hpre, hb⟩ |
          ⟨pre, rest, rfl, hlen, hpre⟩ | ⟨hlen, hs⟩
        · exact .inl ⟨x :: pre, b, rest, rfl, Nat.succ_lt_succ hlen,
            List.forall_mem_cons.mpr ⟨hx, hpre⟩, hb⟩
        · exact .inr (.inl ⟨x :: pre, rest, rfl, congrArg Nat.succ hlen,
            List.forall_mem_cons.mpr ⟨hx, hpre⟩⟩)
        · exact .inr (.inr ⟨Nat.succ_lt_succ hlen, List.forall_mem_cons.mpr ⟨hx, hs⟩⟩)

theorem decodeLength_cases (s : List UInt8) :
    (∃ l rest, s = l ++ rest ∧ LengthField l ∧
      decodeLength s = (.ok (digitsValue l : Nat), rest)) ∨
    (s.length < 4 ∧ (∀ x ∈ s, x &&& 128 ≠ 0) ∧ decodeLength s = (.error .eof, [])) := by
  rcases lengthField_split 4 s with ⟨pre, b, rest, rfl, hlen, hpre, hb⟩ |
    ⟨pre, rest, rfl, hlen, hpre⟩ | ⟨hlen, hs⟩
  · have hl : LengthField (pre ++ [b]) := ⟨pre, b, rfl, hlen, hpre, fun _ => hb⟩
    have he : pre ++ b :: rest = pre ++ [b] ++ rest := by simp
    exact .inl ⟨pre ++ [b], rest, he, hl, he ▸ decodeLength_lengthField hl rest⟩
  · obtain ⟨pre', b, rfl⟩ : ∃ pre' b, pre = pre' ++ [b] := by
      rcases pre.eq_nil_or_concat with rfl | ⟨pre', b, rfl⟩
      · simp at hlen
      · exact ⟨pre', b, List.concat_eq_append _ _⟩
    simp only [List.length_append, List.length_singleton] at hlen
    have hl : LengthField (pre' ++ [b]) :=
      ⟨pre', b, rfl, by omega, fun x hx => hpre x (List.mem_append_left _ hx),
        fun h => by omega⟩
    exact .inl ⟨_, rest, rfl, hl, decodeLength_lengthField hl rest⟩
  · exact .inr ⟨hlen, hs, decodeLength_eof hlen hs⟩

theorem UInt8.ofNat_eq {x : UInt8} {n : Nat} (h : n % 256 = x.toNat) : UInt8.ofNat n = x :=
  UInt8.ext (by rw [UInt8.toNat_ofNat', h])

theorem encodeLength_digitsValue {pre : List UInt8} {b : UInt8}
    (hpre : ∀ x ∈ pre, x &&& 128 ≠ 0) (hb : b &&& 128 = 0) (hz : pre = [] ∨ b ≠ 0) :
    encodeLength (digitsValue (pre ++ [b]) : Nat) = pre ++ [b] := by
  have hb' := UInt8.and_128_eq_zero.mp hb
  induction pre with
  | nil =>
    have hv : digitsValue [b] = b.toNat := by simp only [digitsValue, UInt8.and_127]; omega
    rw [List.nil_append, hv, encodeLength_nat, if_pos (by omega), @UInt8.ofNat_eq b _ (by omega)]
  | cons x pre ih =>
    have hx : 128 ≤ x.toNat := by
      have := hpre x (List.mem_cons_self _ _)
      rw [Ne, UInt8.and_128_eq_zero] at this; omega
    have hx' : x.toNat < 256 := x.toNat_lt_size
    have hb0 : b.toNat ≠ 0 := fun h => hz.resolve_left (List.cons_ne_nil _ _) (UInt8.ext h)
    have hpos : 0 < digitsValue (pre ++ [b]) := by
      have := Nat.mul_pos (Nat.two_pow_pos (7 * pre.length)) (Nat.pos_of_ne_zero hb0)
      rw [digitsValue_append, digitsValue, digitsValue, UInt8.and_127, Nat.mod_eq_of_lt hb',
        Nat.mul_zero, Nat.add_zero]
      omega
    rw [List.cons_append, digitsValue, UInt8.and_127, encodeLength_nat, if_neg (by omega),
      show (x.toNat % 128 + 128 * digitsValue (pre ++ [b])) / 128 = digitsValue (pre ++ [b]) by
        omega,
      ih (fun y hy => hpre y (List.mem_cons_of_mem _ hy)) (.inr fun h => hb0 (by rw [h]; rfl)),
      @UInt8.ofNat_eq x _ (by omega)]

theorem encodeLength_minimalLength {L : Int} (h0 : 0 ≤ L) (h1 : L ≤ 268435455) :
    MinimalLength (encodeLength L) := by
  obtain ⟨n, rfl⟩ := Int.eq_ofNat_of_zero_le h0
  obtain ⟨pre, b, he, hpre, hb, hv, hk⟩ := encodeLength_shape n
  refine ⟨pre, b, he, by have := hk 3 (by norm_num; omega); omega, hpre, hb, ?_⟩
  by_cases hb0 : b = 0
  · subst hb0
    cases pre with
    | nil => exact .inl rfl
    | cons y pre =>
      rw [digitsValue_append, show digitsValue [0] = 0 from rfl, Nat.mul_zero, Nat.add_zero] at hv
      have := hk pre.length (hv ▸ digitsValue_lt (y :: pre))
      simp at this
  · exact .inr hb0

theorem decodeLength_encodeLength_overflow {L : Int} (h : 268435455 < L) (r : List UInt8) :
    4 < (encodeLength L).length ∧
      decodeLength (encodeLength L ++ r) = (.ok (L % 268435456), (encodeLength L).drop 4 ++ r) := by
  obtain ⟨n, rfl⟩ := Int.eq_ofNat_of_zero_le (show 0 ≤ L by omega)
  obtain ⟨pre, b, he, hpre, -, hv, -⟩ := encodeLength_shape n
  have hlen : 4 < (pre ++ [b]).length := by
    by_contra hle
    have := Nat.pow_le_pow_right (show 0 < 2 by norm_num)
      (show 7 * (pre ++ [b]).length ≤ 28 by omega)
    have := digitsValue_lt (pre ++ [b])
    omega
  have h4 : (pre.take 4).length = 4 := by
    simp only [List.length_take, List.length_append, List.length_singleton] at hlen ⊢; omega
  have hsplit : pre ++ [b] = pre.take 4 ++ (pre.drop 4 ++ [b]) := by
    rw [← List.append_assoc, List.take_append_drop]
  have hlt := digitsValue_lt (pre.take 4)
  rw [h4] at hlt
  have hval : n = digitsValue (pre.take 4) + 2 ^ 28 * digitsValue (pre.drop 4 ++ [b]) := by
    rw [← hv, hsplit, digitsValue_append, h4]
  refine ⟨he ▸ hlen, ?_⟩
  rw [he, hsplit, List.append_assoc,
    decodeLength_four _ h4 fun x hx => hpre x (List.mem_of_mem_take hx),
    List.drop_left' h4]
  congr 2
  omega

end PahoMqtt.Packets
