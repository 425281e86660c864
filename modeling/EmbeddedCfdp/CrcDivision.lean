import EmbeddedCfdp.CodecRules
import EmbeddedCfdp.Crc

/-!
# The PDU CRC as polynomial division

What `cfdp_crc_update` leaves in the register is a remainder modulo
`x^16 + x^12 + x^5 + 1`.  The remainder does not depend on how the message was cut into
calls, and under the preset of all ones it is the CRC of the standard.
-/

namespace EmbeddedCfdp

open CMemory Polynomial

variable {T : Target}

/-! ### Messages in chunks -/

/-- What one call folds in: `len` octets at `data`, which is null only when there are none. -/
structure Chunk (T : Target) where
  data : Option Ptr
  len : Size T
  readable : Readable data len.toNat
  given : data = none → len = sz 0

/-- The octets of the chunk. -/
def Chunk.octets (d : Chunk T) : List UInt8 := octetsAt d.data d.len.toNat

theorem Chunk.length_octets (d : Chunk T) : d.octets.length = d.len.toNat := by
  refine length_octetsAt d.readable ?_
  rintro ⟨hnull, hpos⟩
  have hlen := d.given (Option.isNone_iff_eq_none.mp hnull)
  rw [(eq_sz_iff (size_lt T (by decide))).mp hlen] at hpos
  exact absurd hpos (by decide)

/-- One call of `cfdp_crc_update` after another. -/
def crcUpdates (crc : UInt16) (chunks : List (Chunk T)) : Except Fault UInt16 :=
  chunks.foldlM (fun crc d => crcUpdate crc d.data d.len) crc

theorem crcUpdate_chunk (crc : UInt16) (d : Chunk T) :
    crcUpdate crc d.data d.len = .ok (crcOctets crc d.octets) := by
  rcases d with ⟨_ | p, len, hreadable, hgiven⟩
  · rfl
  · exact crcUpdate_eq holds_octetsAt hreadable.length crc

theorem crcUpdates_eq (crc : UInt16) (chunks : List (Chunk T)) :
    crcUpdates crc chunks = .ok (crcOctets crc (chunks.flatMap Chunk.octets)) := by
  induction chunks generalizing crc with
  | nil => rfl
  | cons d chunks ih =>
    rw [crcUpdates, List.foldlM_cons, crcUpdate_chunk, List.flatMap_cons, crcOctets_append]
    exact ih (crcOctets crc d.octets)

/-! ### The remainder -/

noncomputable section

/-- The generator polynomial of the PDU CRC. -/
def crcPolynomial : (ZMod 2)[X] := X ^ 16 + X ^ 12 + X ^ 5 + 1

/-- An octet string as a polynomial, the most significant bit of the first octet in front. -/
def octetsPoly (xs : List UInt8) : (ZMod 2)[X] :=
  CrcRegister.messagePoly (xs.map UInt8.toBitVec)

/-- The shift register preset to all ones. -/
def presetPoly : (ZMod 2)[X] := ∑ i ∈ Finset.range 16, X ^ i

/-- The CRC of CCSDS 232.0-B-3 over a message: preset to all ones, no final inversion. -/
def ccsdsCrc (xs : List UInt8) : (ZMod 2)[X] :=
  (presetPoly * X ^ (8 * xs.length) + octetsPoly xs * X ^ 16) %ₘ crcPolynomial

theorem generator_crcGenerator : CrcRegister.generator crcGenerator = crcPolynomial := by
  have hpoly : CrcRegister.toPoly crcGenerator = X ^ 12 + X ^ 5 + 1 := by
    simp [CrcRegister.toPoly, Finset.sum_range_succ, crcGenerator, CFDP_CRC_POLYNOMIAL]
    ring
  rw [CrcRegister.generator, hpoly, crcPolynomial]
  ring

theorem toPoly_init : CrcRegister.toPoly CFDP_CRC_INIT.toBitVec = presetPoly := by
  refine Finset.sum_congr rfl fun i hi => ?_
  have hset : CFDP_CRC_INIT.toBitVec.getLsbD i = true := by
    have hall : ∀ i < 16, CFDP_CRC_INIT.toBitVec.getLsbD i = true := by decide
    exact hall i (Finset.mem_range.mp hi)
  rw [hset, CrcRegister.bit_true, C_1, one_mul]

/-- The register after an octet string. -/
theorem toPoly_crcOctets (crc : UInt16) (xs : List UInt8) :
    CrcRegister.toPoly (crcOctets crc xs).toBitVec =
      (CrcRegister.toPoly crc.toBitVec * X ^ (8 * xs.length) + octetsPoly xs * X ^ 16) %ₘ
        crcPolynomial := by
  have hrun := CrcRegister.toPoly_run_eq_modByMonic (by norm_num) crcGenerator
    (by norm_num : 8 ≤ 16) crc.toBitVec (xs.map UInt8.toBitVec)
  rw [crcOctets_toBitVec, hrun, generator_crcGenerator, List.length_map, octetsPoly,
    mul_comm (X ^ _), mul_comm (X ^ 16)]

/-- **Main result.** `cfdp_crc_update` divides polynomials, in one call or in many, and
    `cfdp_crc_compute` is the CRC of the standard. -/
theorem crc_division :
    (∀ (crc : UInt16) (d : Chunk T), ∃ crc', crcUpdate crc d.data d.len = .ok crc' ∧
      CrcRegister.toPoly crc'.toBitVec =
        (CrcRegister.toPoly crc.toBitVec * X ^ (8 * d.len.toNat) + octetsPoly d.octets * X ^ 16) %ₘ
          (X ^ 16 + X ^ 12 + X ^ 5 + 1)) ∧
    (∀ (crc : UInt16) (d : Chunk T) (chunks : List (Chunk T)),
      chunks.flatMap Chunk.octets = d.octets →
      crcUpdates crc chunks = crcUpdate crc d.data d.len) ∧
    (∀ d : Chunk T, ∃ crc', crcCompute d.data d.len = .ok crc' ∧
      CrcRegister.toPoly crc'.toBitVec = ccsdsCrc d.octets) := by
  refine ⟨?_, ?_, ?_⟩
  · intro crc d
    refine ⟨_, crcUpdate_chunk crc d, ?_⟩
    rw [toPoly_crcOctets, d.length_octets]
    rfl
  · intro crc d chunks hchunks
    rw [crcUpdates_eq, crcUpdate_chunk, hchunks]
  · intro d
    refine ⟨_, crcUpdate_chunk CFDP_CRC_INIT d, ?_⟩
    rw [toPoly_crcOctets, toPoly_init, ccsdsCrc]

end

/-- A chunk that is an object of its own. -/
def Chunk.full (xs : List UInt8) (h : xs.length < 2 ^ T.sizeBits) : Chunk T where
  data := some ⟨Object.full xs, 0⟩
  len := sz xs.length
  readable := by
    rw [toNat_sz h]
    exact (Object.holds_whole xs).readable (Nat.le_refl _)
  given := nofun

/-- The check value of the CRC: `"1234"` and then `"56789"`. -/
theorem crc_division_sample :
    crcUpdates CFDP_CRC_INIT
      [@Chunk.full .checked32 [0x31, 0x32, 0x33, 0x34] (by decide),
        Chunk.full [0x35, 0x36, 0x37, 0x38, 0x39] (by decide)] = .ok 0x29B1 := by
  have hstream := crc_division.2.1 CFDP_CRC_INIT
    (@Chunk.full .checked32 [0x31, 0x32, 0x33, 0x34, 0x35, 0x36, 0x37, 0x38, 0x39] (by decide))
    [Chunk.full [0x31, 0x32, 0x33, 0x34] (by decide),
      Chunk.full [0x35, 0x36, 0x37, 0x38, 0x39] (by decide)] rfl
  have hvalue : crcOctets CFDP_CRC_INIT
      [0x31, 0x32, 0x33, 0x34, 0x35, 0x36, 0x37, 0x38, 0x39] = 0x29B1 := by decide +kernel
  rw [hstream, crcUpdate_chunk, ← hvalue]
  rfl

end EmbeddedCfdp
