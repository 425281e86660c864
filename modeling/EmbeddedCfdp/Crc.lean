import EmbeddedCfdp.CMemory
import EmbeddedCfdp.CrcRegister
import Mathlib.Data.Nat.Bitwise

/-!
# PDU CRC (`cfdp_crc.c`)

The bit-serial CRC-16 of the library, and its reading as the register of
`CrcRegister` with the generator `x^16 + x^12 + x^5 + 1`.
-/

namespace EmbeddedCfdp

open CMemory

def CFDP_CRC_POLYNOMIAL : UInt16 := 0x1021
def CFDP_CRC_INIT : UInt16 := 0xFFFF

/-- The body of the inner loop of `cfdp_crc_update`. -/
def crcBit (crc : UInt16) : UInt16 :=
  let msbSet := (crc &&& 0x8000) ≠ 0
  let crc := crc <<< 1
  if msbSet then crc ^^^ CFDP_CRC_POLYNOMIAL else crc

/-- `left` more rounds of the inner loop. -/
def crcBits : (left : Nat) → UInt16 → UInt16
  | 0, crc => crc
  | left + 1, crc => crcBits left (crcBit crc)

/-- The body of the outer loop: one octet enters at the top of the register. -/
def crcOctet (crc : UInt16) (octet : UInt8) : UInt16 :=
  crcBits 8 (crc ^^^ (octet.toUInt16 <<< 8))

/-- The outer loop of `cfdp_crc_update` at index `i`, with `left = len - i`. -/
def crcUpdateLoop (data : Ptr) : (left i : Nat) → (crc : UInt16) → Except Fault UInt16
  | 0, _, crc => return crc
  | left + 1, i, crc => do
      let octet ← data.load i
      crcUpdateLoop data left (i + 1) (crcOctet crc octet)

variable {T : Target}

def crcUpdate (crc : UInt16) (data : Option Ptr) (len : Size T) : Except Fault UInt16 :=
  match data with
  | none => return crc
  | some data => if len = sz 0 then return crc else crcUpdateLoop data len.toNat 0 crc

def crcCompute (data : Option Ptr) (len : Size T) : Except Fault UInt16 :=
  crcUpdate CFDP_CRC_INIT data len

/-! ### The loops are folds -/

/-- The CRC of an octet string, from a given register. -/
def crcOctets (crc : UInt16) (xs : List UInt8) : UInt16 := xs.foldl crcOctet crc

theorem crcOctets_append (crc : UInt16) (xs ys : List UInt8) :
    crcOctets crc (xs ++ ys) = crcOctets (crcOctets crc xs) ys := List.foldl_append

theorem crcUpdateLoop_eq {data : Ptr} {pre xs : List UInt8} (h : data.Holds (pre ++ xs))
    (crc : UInt16) :
    crcUpdateLoop data xs.length pre.length crc = .ok (crcOctets crc xs) := by
  induction xs generalizing pre crc with
  | nil => rfl
  | cons octet xs ih =>
    have hload : data.load pre.length = .ok octet := h.load (by simp)
    have hstep := @ih (pre ++ [octet]) (by simpa using h) (crcOctet crc octet)
    rw [List.length_append, List.length_singleton] at hstep
    rw [List.length_cons, crcUpdateLoop, hload]
    exact hstep

theorem crcUpdate_eq {data : Ptr} {xs : List UInt8} {len : Size T} (h : data.Holds xs)
    (hlen : xs.length = len.toNat) (crc : UInt16) :
    crcUpdate crc (some data) len = .ok (crcOctets crc xs) := by
  by_cases hzero : len = sz 0
  · have hnil : xs = [] := by
      apply List.eq_nil_of_length_eq_zero
      rw [hlen, hzero, toNat_sz (by have := T.two_pow_ge; omega)]
    simp [crcUpdate, hzero, hnil, crcOctets, pure, Except.pure]
  · simp only [crcUpdate, if_neg hzero]
    rw [← hlen]
    exact @crcUpdateLoop_eq data [] xs h crc

theorem crcCompute_eq {data : Ptr} {xs : List UInt8} {len : Size T} (h : data.Holds xs)
    (hlen : xs.length = len.toNat) :
    crcCompute (some data) len = .ok (crcOctets CFDP_CRC_INIT xs) :=
  crcUpdate_eq h hlen CFDP_CRC_INIT

/-! ### The register -/

/-- The generator without its leading term, as a register. -/
def crcGenerator : BitVec 16 := CFDP_CRC_POLYNOMIAL.toBitVec

theorem and_top_ne_zero_iff (crc : UInt16) :
    (crc &&& 0x8000) ≠ 0 ↔ crc.toBitVec.msb = true := by
  have hmsb : crc.toBitVec.msb = crc.toNat.testBit 15 := BitVec.msb_eq_getLsbD_last _
  have hand : (crc &&& 0x8000).toNat = 2 ^ 15 * (crc.toNat.testBit 15).toNat := by
    rw [UInt16.toNat_and, Nat.and_comm]
    exact Nat.two_pow_and crc.toNat 15
  rw [hmsb, Ne, ← UInt16.toNat_inj, hand]
  cases crc.toNat.testBit 15 <;> decide

theorem crcBit_toBitVec (crc : UInt16) :
    (crcBit crc).toBitVec = CrcRegister.shift crcGenerator crc.toBitVec := by
  unfold crcBit CrcRegister.shift
  by_cases h : crc.toBitVec.msb = true
  · rw [if_pos h, if_pos ((and_top_ne_zero_iff crc).mpr h)]
    rfl
  · rw [if_neg h, if_neg fun hset => h ((and_top_ne_zero_iff crc).mp hset)]
    rfl

theorem crcBits_toBitVec (left : Nat) (crc : UInt16) :
    (crcBits left crc).toBitVec = CrcRegister.shifts crcGenerator left crc.toBitVec := by
  induction left generalizing crc with
  | zero => rfl
  | succ left ih => rw [crcBits, ih, crcBit_toBitVec, CrcRegister.shifts]

theorem crcOctet_toBitVec (crc : UInt16) (octet : UInt8) :
    (crcOctet crc octet).toBitVec =
      CrcRegister.feed crcGenerator crc.toBitVec octet.toBitVec := by
  rw [crcOctet, crcBits_toBitVec]
  rfl

/-- `cfdp_crc_update` runs the register of the CRC over the octets. -/
theorem crcOctets_toBitVec (crc : UInt16) (xs : List UInt8) :
    (crcOctets crc xs).toBitVec =
      CrcRegister.run crcGenerator crc.toBitVec (xs.map UInt8.toBitVec) := by
  induction xs generalizing crc with
  | nil => rfl
  | cons octet xs ih =>
    have hstep := ih (crcOctet crc octet)
    rw [crcOctet_toBitVec] at hstep
    exact hstep

/-- Two octets clear the register exactly when they are its contents. -/
theorem crcOctets_eq_zero_iff (crc : UInt16) (high low : UInt8) :
    crcOctets crc [high, low] = 0 ↔ crc.toNat = high.toNat * 256 + low.toNat := by
  have hlow : low.toNat < 2 ^ 8 := low.toNat_lt
  have hmessage : CrcRegister.messagePoly [high.toBitVec, low.toBitVec] =
      CrcRegister.toPoly (high.toBitVec ++ low.toBitVec) := by
    rw [CrcRegister.toPoly_append, CrcRegister.messagePoly_cons, CrcRegister.messagePoly_cons]
    simp [CrcRegister.messagePoly, CrcRegister.messageBits, CrcRegister.bitsPoly]
  have hjoin : (high.toBitVec ++ low.toBitVec).toNat = high.toNat * 256 + low.toNat := by
    rw [BitVec.toNat_append]
    change high.toNat <<< 8 ||| low.toNat = _
    rw [← Nat.shiftLeft_add_eq_or_of_lt hlow, Nat.shiftLeft_eq]
  -- two octets are as long as the register: it is cleared by its own value alone
  have hclear := @CrcRegister.run_eq_zero_iff 16 crcGenerator (by decide) (by norm_num) 8
    (by norm_num) crc.toBitVec [high.toBitVec, low.toBitVec] rfl
  rw [hmessage] at hclear
  rw [← UInt16.toBitVec_inj, crcOctets_toBitVec, ← hjoin]
  refine hclear.trans ?_
  constructor
  · intro h
    rw [CrcRegister.toPoly_injective h]
    rfl
  · intro h
    congr 1
    exact (BitVec.eq_of_toNat_eq h).symm

end EmbeddedCfdp
