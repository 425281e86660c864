import Mathlib.Tactic

/-!
# Bit fields packed into an octet

Two nibbles share an octet in most CFDP fields.  Packing keeps the low four bits of
each; unpacking and packing again gives the octet back.
-/

namespace BitFields

/-- A statement about octets can be checked on the 256 of them. -/
theorem forall_octet {P : UInt8 → Prop} (h : ∀ n : Fin 256, P (UInt8.ofNat n)) (b : UInt8) :
    P b := by
  have hb := h ⟨b.toNat, b.toNat_lt⟩
  rwa [UInt8.ofNat_toNat] at hb

theorem and_nibble (b : UInt8) : ∃ n : Fin 16, b &&& 0xF = UInt8.ofNat n := by
  refine forall_octet (P := fun b => ∃ n : Fin 16, b &&& 0xF = UInt8.ofNat n) ?_ b
  decide +kernel

theorem high_nibble (a b : UInt8) :
    ((((a &&& 0xF) <<< 4) ||| (b &&& 0xF)) >>> 4) &&& 0xF = a &&& 0xF := by
  obtain ⟨m, hm⟩ := and_nibble a
  obtain ⟨n, hn⟩ := and_nibble b
  rw [hm, hn]
  clear hm hn
  revert m n
  decide +kernel

theorem low_nibble (a b : UInt8) :
    (((a &&& 0xF) <<< 4) ||| (b &&& 0xF)) &&& 0xF = b &&& 0xF := by
  obtain ⟨m, hm⟩ := and_nibble a
  obtain ⟨n, hn⟩ := and_nibble b
  rw [hm, hn]
  clear hm hn
  revert m n
  decide +kernel

/-- Packing the high nibble again clears the low one. -/
theorem repack_high (b : UInt8) :
    ((((b >>> 4) &&& 0xF).toUInt32.toUInt8 &&& 0xF) <<< 4) = b &&& 0xF0 := by
  refine forall_octet (P := fun b =>
    ((((b >>> 4) &&& 0xF).toUInt32.toUInt8 &&& 0xF) <<< 4) = b &&& 0xF0) ?_ b
  decide +kernel

theorem repack (b : UInt8) :
    ((((b >>> 4) &&& 0xF).toUInt32.toUInt8 &&& 0xF) <<< 4) |||
      ((b &&& 0xF).toUInt32.toUInt8 &&& 0xF) = b := by
  refine forall_octet (P := fun b => ((((b >>> 4) &&& 0xF).toUInt32.toUInt8 &&& 0xF) <<< 4) |||
    ((b &&& 0xF).toUInt32.toUInt8 &&& 0xF) = b) ?_ b
  decide +kernel

/-- The low nibble does not matter for the high one. -/
theorem high_of_cleared (b : UInt8) :
    ((b &&& (0xF0 : UInt8)) >>> 4) &&& (0xF : UInt8) = (b >>> 4) &&& 0xF := by
  refine forall_octet (P := fun b =>
    ((b &&& (0xF0 : UInt8)) >>> 4) &&& (0xF : UInt8) = (b >>> 4) &&& 0xF) ?_ b
  decide +kernel

/-- Narrowing before masking loses nothing. -/
theorem toUInt32_toUInt8_and (a : UInt32) (mask : UInt8) :
    (a.toUInt8 &&& mask).toUInt32 = a &&& mask.toUInt32 := by
  apply UInt32.toNat_inj.mp
  have hmask : mask.toNat < 2 ^ 8 := mask.toNat_lt
  simp only [UInt8.toNat_toUInt32, UInt8.toNat_and, UInt32.toNat_toUInt8, UInt32.toNat_and]
  apply Nat.eq_of_testBit_eq
  intro i
  rw [Nat.testBit_and, Nat.testBit_and, Nat.testBit_mod_two_pow]
  by_cases hi : i < 8
  · simp [hi]
  · have hzero : mask.toNat.testBit i = false :=
      Nat.testBit_lt_two_pow
        (Nat.lt_of_lt_of_le hmask (Nat.pow_le_pow_right (by norm_num) (by omega)))
    simp [hzero]

/-- A value within the mask is kept by it. -/
theorem and_mask_of_lt {a : UInt32} {k : Nat} (hk : k < 32) (h : a.toNat < 2 ^ k) :
    a &&& (UInt32.ofNat (2 ^ k - 1)) = a := by
  apply UInt32.toNat_inj.mp
  have hpow : 2 ^ k - 1 < 2 ^ 32 := by
    have := Nat.pow_lt_pow_right (a := 2) (by norm_num) hk
    omega
  rw [UInt32.toNat_and, UInt32.toNat_ofNat', Nat.mod_eq_of_lt hpow,
    Nat.and_two_pow_sub_one_eq_mod, Nat.mod_eq_of_lt h]

/-- A number that fits an octet is the octet it is narrowed to. -/
theorem exists_octet {a : UInt32} {k : Nat} (hk : k ≤ 256) (h : a.toNat < k) :
    ∃ n : Fin k, a.toUInt8 = UInt8.ofNat n ∧ (UInt8.ofNat n).toUInt32 = a := by
  refine ⟨⟨a.toNat, h⟩, rfl, ?_⟩
  apply UInt32.toNat_inj.mp
  rw [UInt8.toNat_toUInt32, UInt8.toNat_ofNat', Nat.mod_eq_of_lt (Nat.lt_of_lt_of_le h hk)]

/-- Fields that stay inside a mask do so together. -/
theorem and_or_of_masked {a b mask : UInt8} (ha : a &&& mask = a) (hb : b &&& mask = b) :
    (a ||| b) &&& mask = a ||| b := by
  have hdistrib : (a ||| b) &&& mask = (a &&& mask) ||| (b &&& mask) := by
    apply UInt8.toBitVec_inj.mp
    exact BitVec.and_or_distrib_right
  rw [hdistrib, ha, hb]

end BitFields
