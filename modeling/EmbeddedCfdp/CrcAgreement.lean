import EmbeddedCfdp.PduCrc
import Mathlib.Tactic.TFAE

/-!
# Verifying, appending and the residue

For a buffer that starts with a complete PDU with a CRC, `cfdp_pdu_crc_verify` decides
whether the register ends at zero over the PDU, which is whether `cfdp_pdu_crc_append`
would write the CRC that is there.  Nothing behind the PDU has a part in it.
-/

namespace EmbeddedCfdp

open CMemory

variable {T : Target}

/-- The string starts with a complete PDU whose header announces a CRC and room for it. -/
structure CrcPdu (xs : List UInt8) (hsize : Nat) (hdr : PduHeader) : Prop where
  header : headerDecode xs = some (hsize, hdr)
  crcFlag : hdr.crcFlag = CFDP_CRC_PRESENT
  crcLength : 2 ≤ hdr.dataFieldLength.toNat
  complete : hsize + hdr.dataFieldLength.toNat ≤ xs.length

section Pdu

variable {xs ys : List UInt8} {hsize total : Nat} {hdr : PduHeader} {p : Ptr} {len : Size T}

/-- A PDU is recognised by its own octets. -/
theorem CrcPdu.of_agree (h : CrcPdu xs hsize hdr)
    (htotal : total = hsize + hdr.dataFieldLength.toNat) (hlen : total ≤ ys.length)
    (hagree : ys.take total = xs.take total) : CrcPdu ys hsize hdr := by
  have hheader : ys.take hsize = xs.take hsize := by
    have hcut := congrArg (List.take hsize) hagree
    rwa [List.take_take, List.take_take, Nat.min_eq_left (by omega)] at hcut
  refine ⟨headerDecode_of_agree h.header hheader, h.crcFlag, h.crcLength, ?_⟩
  rwa [← htotal]

/-- The verifier decides whether the register ends at zero. -/
theorem CrcPdu.verify (h32 : 32 ≤ T.sizeBits) (h : CrcPdu xs hsize hdr)
    (htotal : total = hsize + hdr.dataFieldLength.toNat) (hp : p.Holds xs)
    (hlen : xs.length = len.toNat) :
    pduCrcVerify (some p) len = .ok (decide (crcOctets CFDP_CRC_INIT (xs.take total) = 0)) := by
  obtain ⟨hheader, hcrc, hlength, hcomplete⟩ := h
  obtain ⟨b, hrun, haccept⟩ := pduCrcVerify_spec h32 hp hlen
  have htwo : hsize + hdr.dataFieldLength.toNat - 2 + 2 = total := by omega
  have hresidue := @crcOctets_residue xs (hsize + hdr.dataFieldLength.toNat - 2) (by omega)
  rw [htwo] at hresidue
  have hiff : b = true ↔ crcOctets CFDP_CRC_INIT (xs.take total) = 0 := by
    rw [haccept, hresidue]
    constructor
    · rintro ⟨hsize', hdr', hat⟩
      have hsame := hat.header
      rw [hheader, Option.some.injEq, Prod.mk.injEq] at hsame
      obtain ⟨rfl, rfl⟩ := hsame
      exact hat.crc hcrc
    · intro hmatch
      exact ⟨hsize, hdr, hheader, hcomplete, fun _ => hlength, fun _ => hmatch⟩
  rw [hrun, Except.ok.injEq, Bool.eq_iff_iff, decide_eq_true_eq]
  exact hiff

/-- A prefix that cuts into the PDU is not accepted. -/
theorem CrcPdu.verify_short (h32 : 32 ≤ T.sizeBits) (h : CrcPdu xs hsize hdr)
    (hshort : len.toNat < hsize + hdr.dataFieldLength.toNat) (hp : p.Holds (xs.take len.toNat)) :
    pduCrcVerify (some p) len = .ok false := by
  have hcomplete := h.complete
  have hlen : (xs.take len.toNat).length = len.toNat := List.length_take_of_le (by omega)
  obtain ⟨b, hrun, haccept⟩ := pduCrcVerify_spec h32 hp hlen
  rw [hrun]
  cases b with
  | false => rfl
  | true =>
    -- the header of the prefix would be the header of the PDU
    obtain ⟨hsize', hdr', hat⟩ := haccept.mp rfl
    have hcomplete' := hat.complete
    have hagree : xs.take hsize' = (xs.take len.toNat).take hsize' := by
      rw [List.take_take, Nat.min_eq_left (by omega)]
    have hheader := headerDecode_of_agree hat.header hagree
    rw [h.header, Option.some.injEq, Prod.mk.injEq] at hheader
    obtain ⟨rfl, rfl⟩ := hheader
    omega

/-- Appending to a copy without its CRC reproduces the PDU exactly when the register ends
    at zero over it. -/
theorem CrcPdu.append_iff {i : Nat} {cap : Size T} {m : Object} (h : CrcPdu xs hsize hdr)
    (htotal : total = hsize + hdr.dataFieldLength.toNat) (hcap : total ≤ cap.toNat)
    (hext : i + cap.toNat ≤ m.extent) (hcopy : (Ptr.mk m i).Holds (xs.take (total - 2))) :
    (∃ m', pduCrcAppend (some i) (sz (total - 2)) cap m = .ok (sz total, m') ∧
        (Ptr.mk m' i).Holds (xs.take total)) ↔
      crcOctets CFDP_CRC_INIT (xs.take total) = 0 := by
  obtain ⟨hheader, hcrc, hlength, hcomplete⟩ := h
  have htwo : total - 2 + 2 = total := by omega
  have hlen : (xs.take (total - 2)).length = total - 2 := List.length_take_of_le (by omega)
  -- the copy without its CRC still holds the whole header
  have hagree : (xs.take (total - 2)).take hsize = xs.take hsize := by
    rw [List.take_take, Nat.min_eq_left (by omega)]
  have hrun := @pduCrcAppend_run T m i _ cap _ _ hcopy (headerDecode_of_agree hheader hagree)
    hcrc (by omega) (by omega) (by omega)
  rw [hlen, htwo] at hrun
  have hwritten : (Ptr.mk (m.place (i + (total - 2)) (crcField (xs.take (total - 2)))) i).Holds
      (xs.take (total - 2) ++ crcField (xs.take (total - 2))) := by
    have hfit : i + (xs.take (total - 2)).length + (crcField (xs.take (total - 2))).length ≤
        m.extent := by
      rw [hlen, length_crcField]
      omega
    have hplaced := Object.place_holds_right hcopy hfit
    rwa [hlen] at hplaced
  have hparts : xs.take total = xs.take (total - 2) ++ slice xs (total - 2) 2 := by
    rw [slice, ← List.take_add, htwo]
  -- the remainder is zero exactly when the last two octets are the CRC of those before them
  have hfield := @crcField_eq_iff xs (total - 2) (by omega)
  rw [htwo] at hfield
  rw [← hfield]
  constructor
  · rintro ⟨m', hrun', hholds⟩
    rw [hrun, Except.ok.injEq, Prod.mk.injEq] at hrun'
    obtain ⟨_, rfl⟩ := hrun'
    rw [hparts] at hholds
    have hlengths : (xs.take (total - 2) ++ crcField (xs.take (total - 2))).length =
        (xs.take (total - 2) ++ slice xs (total - 2) 2).length := by
      rw [List.length_append, List.length_append, length_crcField, length_slice (by omega)]
    have hcut := List.prefix_of_prefix_length_le hwritten hholds (Nat.le_of_eq hlengths)
    exact List.append_cancel_left (hcut.eq_of_length hlengths)
  · intro hsame
    refine ⟨_, hrun, ?_⟩
    rwa [hparts, ← hsame]

end Pdu

/-- **Main result.** On a buffer that starts with a complete PDU with a CRC, verifying,
    the residue and appending agree, and the octets behind the PDU do not matter. -/
theorem pduCrc_agreement (h32 : 32 ≤ T.sizeBits) {p : Ptr} {xs : List UInt8} {len hsize : Size T}
    {old hdr : PduHeader} (hp : p.Holds xs) (hlen : xs.length = len.toNat)
    (hheader : pduHeaderDeserialize (some p) len (some old) = .ok (hsize, some hdr))
    (hn : hsize ≠ sz 0) (hcrc : hdr.crcFlag = CFDP_CRC_PRESENT)
    (hdfl : 2 ≤ hdr.dataFieldLength.toNat)
    (htotal : hsize.toNat + hdr.dataFieldLength.toNat ≤ len.toNat) :
    let total := hsize.toNat + hdr.dataFieldLength.toNat
    (∀ (i : Nat) (cap : Size T) (m : Object), total ≤ cap.toNat → i + cap.toNat ≤ m.extent →
      (Ptr.mk m i).Holds (xs.take (total - 2)) →
      List.TFAE [pduCrcVerify (some p) len = .ok true,
        crcCompute (some p) (sz total : Size T) = .ok 0,
        ∃ m', pduCrcAppend (some i) (sz (total - 2)) cap m = .ok (sz total, m') ∧
          (Ptr.mk m' i).Holds (xs.take total)]) ∧
    (∀ (q : Ptr) (ys : List UInt8) (len' : Size T), q.Holds ys → ys.length = len'.toNat →
      total ≤ ys.length → ys.take total = xs.take total →
      pduCrcVerify (some q) len' = pduCrcVerify (some p) len) ∧
    (∀ (q : Ptr) (len' : Size T), len'.toNat < total → q.Holds (xs.take len'.toNat) →
      pduCrcVerify (some q) len' = .ok false) := by
  intro total
  have hpdu : CrcPdu xs hsize.toNat hdr :=
    ⟨headerDecode_of_run hp hlen hheader hn, hcrc, hdfl, by omega⟩
  have hverify : pduCrcVerify (some p) len =
      .ok (decide (crcOctets CFDP_CRC_INIT (xs.take total) = 0)) := hpdu.verify h32 rfl hp hlen
  refine ⟨?_, ?_, ?_⟩
  · intro i cap m hcap hext hcopy
    have hlt := len.isLt
    have htake : (xs.take total).length = (sz total : Size T).toNat := by
      rw [toNat_sz (by omega), List.length_take_of_le (by omega)]
    tfae_have 1 ↔ 2 := by
      rw [hverify, crcCompute_eq (hp.take total) htake, Except.ok.injEq, Except.ok.injEq,
        decide_eq_true_eq]
    tfae_have 2 ↔ 3 := by
      rw [crcCompute_eq (hp.take total) htake, Except.ok.injEq]
      exact (hpdu.append_iff rfl hcap hext hcopy).symm
    tfae_finish
  -- verify looks at the octets the header announces and at no others
  · intro q ys len' hq hlen' hle hagree
    have hverify' : pduCrcVerify (some q) len' =
        .ok (decide (crcOctets CFDP_CRC_INIT (ys.take total) = 0)) :=
      (hpdu.of_agree rfl hle hagree).verify h32 rfl hq hlen'
    rw [hverify', hverify, hagree]
  · intro q len' hshort hq
    exact hpdu.verify_short h32 hshort hq

/-- A directive PDU of ten octets and an octet of padding. -/
theorem pduCrc_agreement_sample :
    let buf := pduOctets sampleCrcHeader [0x0C] ++ [0xEE]
    crcCompute (some ⟨Object.full buf, 0⟩) (sz 10 : Size .checked32) = .ok 0 ∧
    pduCrcVerify (some ⟨Object.full buf, 0⟩) (sz 9 : Size .checked32) = .ok false := by
  intro buf
  have hholds := Object.holds_whole buf
  have hheader : pduHeaderDeserialize (some ⟨Object.full buf, 0⟩) (sz 11 : Size .checked32)
      (some default) = .ok (sz 7, some sampleCrcHeader) := by decide +kernel
  have hverify : pduCrcVerify (some ⟨Object.full buf, 0⟩) (sz 11 : Size .checked32) =
      .ok true := by decide +kernel
  have hcopy : (Ptr.mk (Object.full (buf.take 8 ++ [0, 0])) 0).Holds (buf.take 8) :=
    Object.holds_full [] (buf.take 8) [0, 0]
  obtain ⟨hagree, _, hshort⟩ := pduCrc_agreement (Nat.le_refl 32) hholds rfl hheader (by decide)
    rfl (by decide) (by decide)
  have htfae := hagree 0 (sz 10) (Object.full (buf.take 8 ++ [0, 0])) (by decide) (by decide) hcopy
  exact ⟨(htfae.out 0 1).mp hverify, hshort _ (sz 9) (by decide) (hholds.take 9)⟩

end EmbeddedCfdp
