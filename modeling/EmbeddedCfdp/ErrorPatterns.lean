import EmbeddedCfdp.BurstDetection
import EmbeddedCfdp.CrcOrder

/-!
# Exactly the errors that the PDU CRC misses

An error that leaves alone the fields selecting the octets of a PDU is missed exactly when
it is a multiple of the generator.  Among the errors in two bits those are the ones at a
distance that is a multiple of 32767, so none in a PDU of up to 4095 octets; among the
bursts of seventeen bits it is the generator alone.
-/

namespace EmbeddedCfdp

open CMemory

variable {T : Target}

/-! ### What is missed -/

section Receiver

variable {p q : Ptr} {xs e : List UInt8} {len hsize : Size T} {old hdr : PduHeader}

/-- **Main result.** The CRC misses an error exactly when it is a multiple of the generator. -/
theorem pduCrcVerify_corrupt_iff (h32 : 32 ≤ T.sizeBits) (hp : p.Holds xs)
    (hlen : xs.length = len.toNat) (haccepted : pduCrcVerify (some p) len = .ok true)
    (hheader : pduHeaderDeserialize (some p) len (some old) = .ok (hsize, some hdr))
    (hcrc : hdr.crcFlag = CFDP_CRC_PRESENT)
    (htotal : e.length = hsize.toNat + hdr.dataFieldLength.toNat) (hspares : SparesSelection e)
    (hq : q.Holds (corrupt xs e)) :
    (pduCrcVerify (some q) len = .ok true ↔
      CrcRegister.generator crcGenerator ∣ CrcRegister.bitsPoly (wireBits e)) ∧
    (pduCrcVerify (some q) len = .ok false ↔
      ¬ CrcRegister.generator crcGenerator ∣ CrcRegister.bitsPoly (wireBits e)) := by
  have hat := pduAt_of_run (Or.inl h32) hp hlen haccepted hheader
  obtain ⟨b, hrun, hmultiple, hmissed⟩ :=
    pduCrcVerify_corrupt_cases hlen hat hcrc htotal hspares.toSparesLayout hq
  have hiff : b = true ↔ IsMultiple e := ⟨hmultiple, hmissed hspares.version⟩
  rw [hrun, Except.ok.injEq, Except.ok.injEq]
  refine ⟨hiff, ?_⟩
  rw [← Bool.not_eq_true]
  exact not_congr hiff

end Receiver

/-- A burst of the shape of the generator. -/
def generatorBurst : List UInt8 := [0, 0, 0, 0, 0, 0, 0, 0x01, 0x10, 0x21]

theorem pduCrcVerify_corrupt_iff_sample :
    pduCrcVerify (some ⟨Object.full (corrupt sampleCrcPdu generatorBurst), 0⟩)
      (sz 10 : Size .checked32) = .ok true := by
  have hp := Object.holds_whole sampleCrcPdu
  have hq := Object.holds_whole (corrupt sampleCrcPdu generatorBurst)
  have haccepted : pduCrcVerify (some ⟨Object.full sampleCrcPdu, 0⟩)
      (sz 10 : Size .checked32) = .ok true := by decide +kernel
  have hheader : pduHeaderDeserialize (some ⟨Object.full sampleCrcPdu, 0⟩)
      (sz 10 : Size .checked32) (some default) = .ok (sz 7, some sampleCrcHeader) := by
    decide +kernel
  have hspares : SparesSelection generatorBurst := ⟨⟨rfl, rfl, rfl, rfl⟩, rfl⟩
  have hbits : wireBits generatorBurst =
      List.replicate 63 false ++ CrcRegister.generatorBits crcGenerator := by decide +kernel
  refine (pduCrcVerify_corrupt_iff (Nat.le_refl 32) hp rfl haccepted hheader rfl rfl hspares
    hq).1.mpr ?_
  rw [hbits, CrcRegister.bitsPoly_append, CrcRegister.bitsPoly_generatorBits,
    CrcRegister.bitsPoly_of_all_false fun b hb => List.eq_of_mem_replicate hb, mul_zero, zero_add]

/-! ### Errors in two bits -/

theorem prime_dvd_order {p : Nat} (hp : p.Prime) (h : p ∣ 32767) :
    p = 7 ∨ p = 31 ∨ p = 151 := by
  have hfactors : 32767 = 7 * (31 * 151) := by norm_num
  rw [hfactors] at h
  rcases hp.dvd_mul.mp h with h | h
  · exact Or.inl ((Nat.prime_dvd_prime_iff_eq hp (by norm_num)).mp h)
  · rcases hp.dvd_mul.mp h with h | h
    · exact Or.inr (Or.inl ((Nat.prime_dvd_prime_iff_eq hp (by norm_num)).mp h))
    · exact Or.inr (Or.inr ((Nat.prime_dvd_prime_iff_eq hp (by norm_num)).mp h))

/-- The generator is `x + 1` times a primitive polynomial of degree fifteen. -/
theorem orderOf_crcGenerator :
    orderOf (AdjoinRoot.root (CrcRegister.generator crcGenerator)) = 32767 := by
  have hpower := CrcRegister.root_pow_eq_one_iff (by norm_num) crcGenerator
  refine orderOf_eq_of_pow_and_pow_div_prime (by norm_num) ?_ ?_
  · exact (hpower (List.replicate 15 true)).mpr (by decide +kernel)
  · intro p hp hdvd
    rcases prime_dvd_order hp hdvd with rfl | rfl | rfl
    · exact fun h => absurd ((hpower [true, false, false, true, false, false, true, false, false,
        true, false, false, true]).mp h) (by decide +kernel)
    · exact fun h => absurd ((hpower [true, false, false, false, false, true, false, false, false,
        false, true]).mp h) (by decide +kernel)
    · exact fun h => absurd ((hpower [true, true, false, true, true, false, false, true]).mp h)
        (by decide +kernel)

theorem length_wireBits (e : List UInt8) : (wireBits e).length = 8 * e.length := by
  rw [wireBits, CrcRegister.length_messageBits, List.length_map]

/-- **Main result.** Two flipped bits are missed exactly at a distance that is a multiple of
    32767; a PDU of up to 4095 octets is too short for that. -/
theorem pduCrcVerify_two_bits (h32 : 32 ≤ T.sizeBits) {p q : Ptr} {xs e : List UInt8}
    {len hsize : Size T} {old hdr : PduHeader} (hp : p.Holds xs) (hlen : xs.length = len.toNat)
    (haccepted : pduCrcVerify (some p) len = .ok true)
    (hheader : pduHeaderDeserialize (some p) len (some old) = .ok (hsize, some hdr))
    (hcrc : hdr.crcFlag = CFDP_CRC_PRESENT)
    (htotal : e.length = hsize.toNat + hdr.dataFieldLength.toNat) (hspares : SparesLayout e)
    {i j : Nat} (hij : i < j) (hbits : ∀ k, (wireBits e)[k]? = some true ↔ k = i ∨ k = j)
    (hq : q.Holds (corrupt xs e)) :
    (¬ 32767 ∣ j - i → pduCrcVerify (some q) len = .ok false) ∧
    (e.length ≤ 4095 → pduCrcVerify (some q) len = .ok false) ∧
    (32767 ∣ j - i → e.getD 0 0 &&& 0xE0 = 0 → pduCrcVerify (some q) len = .ok true) := by
  have hat := pduAt_of_run (Or.inl h32) hp hlen haccepted hheader
  obtain ⟨b, hrun, hmultiple, hmissed⟩ :=
    pduCrcVerify_corrupt_cases hlen hat hcrc htotal hspares hq
  -- the pair is a shifted `X^(j - i) + 1`, a multiple exactly at the multiples of the order
  have hpair : IsMultiple e ↔ 32767 ∣ j - i := by
    have hiff := CrcRegister.generator_dvd_pair (g := crcGenerator) (by decide) hij hbits
    rwa [orderOf_crcGenerator] at hiff
  have hrejects : ¬ 32767 ∣ j - i → pduCrcVerify (some q) len = .ok false := by
    intro hnot
    rw [hrun]
    cases b with
    | false => rfl
    | true => exact (hnot (hpair.mp (hmultiple rfl))).elim
  refine ⟨hrejects, ?_, ?_⟩
  -- 4095 octets are fewer than 32767 bits, so the distance is no multiple of the order
  · intro hshort
    have hj := (List.getElem?_eq_some_iff.mp ((hbits j).mpr (Or.inr rfl))).1
    rw [length_wireBits] at hj
    refine hrejects fun hdvd => ?_
    have hle := Nat.le_of_dvd (by omega) hdvd
    omega
  · intro hdvd hversion
    rw [hrun, hmissed hversion (hpair.mpr hdvd)]

theorem pduCrcVerify_two_bits_sample :
    pduCrcVerify (some ⟨Object.full (corrupt sampleCrcPdu [0, 0, 0, 0, 1, 0, 0, 0, 0, 1]), 0⟩)
      (sz 10 : Size .checked32) = .ok false := by
  have hp := Object.holds_whole sampleCrcPdu
  have hq := Object.holds_whole (corrupt sampleCrcPdu [0, 0, 0, 0, 1, 0, 0, 0, 0, 1])
  have haccepted : pduCrcVerify (some ⟨Object.full sampleCrcPdu, 0⟩)
      (sz 10 : Size .checked32) = .ok true := by decide +kernel
  have hheader : pduHeaderDeserialize (some ⟨Object.full sampleCrcPdu, 0⟩)
      (sz 10 : Size .checked32) (some default) = .ok (sz 7, some sampleCrcHeader) := by
    decide +kernel
  have hbits : ∀ k, (wireBits [0, 0, 0, 0, 1, 0, 0, 0, 0, 1])[k]? = some true ↔
      k = 39 ∨ k = 79 := by
    intro k
    by_cases hk : k < 80
    · have hall : ∀ k < 80, (wireBits [0, 0, 0, 0, 1, 0, 0, 0, 0, 1])[k]? = some true ↔
          k = 39 ∨ k = 79 := by decide +kernel
      exact hall k hk
    · rw [List.getElem?_eq_none (by rw [length_wireBits]; exact Nat.le_of_not_lt hk)]
      exact iff_of_false (by rintro ⟨⟩) (by omega)
  exact (pduCrcVerify_two_bits (Nat.le_refl 32) hp rfl haccepted hheader rfl rfl
    ⟨rfl, rfl, rfl, rfl⟩ (by decide) hbits hq).2.1 (by decide)

/-! ### Bursts of seventeen bits -/

/-- The window of a burst, and what is clear around it. -/
theorem exists_window {e : List UInt8} {width : Nat} (hroom : width ≤ 8 * e.length)
    (hburst : IsBurst width e) :
    ∃ a b burst, burst.length = width ∧
      wireBits e = List.replicate a false ++ burst ++ List.replicate b false := by
  obtain ⟨start, hstart⟩ := hburst
  have hlength := length_wireBits e
  -- a window that sticks out at the end is moved back
  obtain ⟨a, ha, hwindow⟩ : ∃ a, a + width ≤ 8 * e.length ∧
      ∀ i, (wireBits e)[i]? = some true → a ≤ i ∧ i < a + width := by
    by_cases hfits : start + width ≤ 8 * e.length
    · exact ⟨start, hfits, hstart⟩
    · refine ⟨8 * e.length - width, by omega, fun i hi => ?_⟩
      have hlt := (List.getElem?_eq_some_iff.mp hi).1
      have hin := hstart i hi
      omega
  -- what stands outside the window is zero on both sides of it
  have hclear : ∀ i b, (wireBits e)[i]? = some b → ¬ (a ≤ i ∧ i < a + width) → b = false := by
    intro i b hi hout
    cases b with
    | false => rfl
    | true => exact (hout (hwindow i hi)).elim
  refine ⟨a, 8 * e.length - (a + width), ((wireBits e).drop a).take width, ?_, ?_⟩
  · rw [List.length_take_of_le]
    rw [List.length_drop]
    omega
  · have hpre : (wireBits e).take a = List.replicate a false := by
      refine List.eq_replicate_iff.mpr ⟨List.length_take_of_le (by omega), fun b hb => ?_⟩
      obtain ⟨i, hi⟩ := List.mem_iff_getElem?.mp hb
      have hlt : i < a := by
        by_contra hge
        rw [List.getElem?_take_eq_none (by omega)] at hi
        cases hi
      rw [List.getElem?_take_of_lt hlt] at hi
      exact hclear i b hi (by omega)
    have hpost : ((wireBits e).drop a).drop width =
        List.replicate (8 * e.length - (a + width)) false := by
      refine List.eq_replicate_iff.mpr ⟨?_, fun b hb => ?_⟩
      · rw [List.drop_drop, List.length_drop, hlength]
      · obtain ⟨i, hi⟩ := List.mem_iff_getElem?.mp hb
        rw [List.drop_drop, List.getElem?_drop] at hi
        exact hclear _ b hi (by omega)
    rw [← hpre, ← hpost, List.append_assoc, List.take_append_drop, List.take_append_drop]

/-- **Main result.** Of the bursts of up to seventeen bits, the one that is missed is the
    generator. -/
theorem pduCrcVerify_longer_burst (h32 : 32 ≤ T.sizeBits) {p q : Ptr} {xs e : List UInt8}
    {len hsize : Size T} {old hdr : PduHeader} (hp : p.Holds xs) (hlen : xs.length = len.toNat)
    (haccepted : pduCrcVerify (some p) len = .ok true)
    (hheader : pduHeaderDeserialize (some p) len (some old) = .ok (hsize, some hdr))
    (hcrc : hdr.crcFlag = CFDP_CRC_PRESENT)
    (htotal : e.length = hsize.toNat + hdr.dataFieldLength.toNat) (hne : ∃ b ∈ e, b ≠ 0)
    (hspares : SparesSelection e) (hburst : IsBurst 17 e) (hq : q.Holds (corrupt xs e)) :
    pduCrcVerify (some q) len = .ok true ↔
      ∃ a b, wireBits e = List.replicate a false ++ CrcRegister.generatorBits crcGenerator ++
        List.replicate b false := by
  have hat := pduAt_of_run (Or.inl h32) hp hlen haccepted hheader
  have hlong := (length_of_headerDecode hat.header).1
  obtain ⟨b, hrun, hmultiple, hmissed⟩ :=
    pduCrcVerify_corrupt_cases hlen hat hcrc htotal hspares.toSparesLayout hq
  have hiff : pduCrcVerify (some q) len = .ok true ↔ IsMultiple e := by
    rw [hrun, Except.ok.injEq]
    exact ⟨hmultiple, hmissed hspares.version⟩
  have hfalse : ∀ k, ∀ b ∈ List.replicate k false, b = false := fun _ _ hb =>
    List.eq_of_mem_replicate hb
  have hgenerator : true ∈ CrcRegister.generatorBits crcGenerator := List.mem_cons_self
  rw [hiff, IsMultiple]
  constructor
  · intro hdvd
    obtain ⟨a, b, burst, hwidth, hsplit⟩ := exists_window (by omega) hburst
    -- the set bit can only be in the burst
    have hset : true ∈ burst := by
      have hmem := true_mem_wireBits hne
      rw [hsplit, List.mem_append, List.mem_append] at hmem
      rcases hmem with (hmem | hmem) | hmem
      · cases hfalse _ _ hmem
      · exact hmem
      · cases hfalse _ _ hmem
    rw [hsplit, CrcRegister.generator_dvd_longer_burst (by decide) (hfalse a) (hfalse b) hwidth
      hset] at hdvd
    exact ⟨a, b, by rw [hsplit, hdvd]⟩
  · rintro ⟨a, b, hsplit⟩
    rw [hsplit]
    exact (CrcRegister.generator_dvd_longer_burst (g := crcGenerator) (by decide) (hfalse a)
      (hfalse b) rfl hgenerator).mpr rfl

theorem pduCrcVerify_longer_burst_sample :
    ¬ pduCrcVerify (some ⟨Object.full (corrupt sampleCrcPdu [0, 0, 0, 0, 0, 0, 0, 1, 0, 1]), 0⟩)
      (sz 10 : Size .checked32) = .ok true := by
  have hp := Object.holds_whole sampleCrcPdu
  have hq := Object.holds_whole (corrupt sampleCrcPdu [0, 0, 0, 0, 0, 0, 0, 1, 0, 1])
  have haccepted : pduCrcVerify (some ⟨Object.full sampleCrcPdu, 0⟩)
      (sz 10 : Size .checked32) = .ok true := by decide +kernel
  have hheader : pduHeaderDeserialize (some ⟨Object.full sampleCrcPdu, 0⟩)
      (sz 10 : Size .checked32) (some default) = .ok (sz 7, some sampleCrcHeader) := by
    decide +kernel
  have hburst : IsBurst 17 [0, 0, 0, 0, 0, 0, 0, 1, 0, 1] := by
    refine ⟨63, fun i hi => ?_⟩
    have hlt : i < 80 := (List.getElem?_eq_some_iff.mp hi).1
    have hall : ∀ i < 80, (wireBits [0, 0, 0, 0, 0, 0, 0, 1, 0, 1])[i]? = some true →
        63 ≤ i ∧ i < 63 + 17 := by decide +kernel
    exact hall i hlt hi
  rw [pduCrcVerify_longer_burst (Nat.le_refl 32) hp rfl haccepted hheader rfl rfl (by decide)
    ⟨⟨rfl, rfl, rfl, rfl⟩, rfl⟩ hburst hq]
  rintro ⟨a, b, hsplit⟩
  have hcount := congrArg (List.count true) hsplit
  rw [List.count_append, List.count_append, List.count_replicate, List.count_replicate,
    if_neg (by decide), if_neg (by decide)] at hcount
  exact absurd hcount (by decide +kernel)

end EmbeddedCfdp
