import Mathlib.Data.FinEnum
import Mathlib.Data.Fintype.BigOperators
import Mathlib.Data.Set.Card
import EmbeddedCfdp.PduReception

/-!
# The share of data fields that pass

Behind a header with its CRC flag set, one data field in 65536 passes the CRC: every payload
has one CRC, and the CRC leaves no other freedom.  So whatever was sent, this is the share of
all that could be received in its place.
-/

namespace EmbeddedCfdp

open CMemory

/-! ### Words that end in a check of what is in front -/

section Systematic

variable {α : Type}

/-- The words of `n + k` letters whose last `k` are the check of the first `n`. -/
def checkedWords (check : List α → List α) (n k : Nat) : Set (List α) :=
  {xs | xs.length = n + k ∧ check (xs.take n) = xs.drop n}

/-- A word with its check. -/
theorem checkedWords_eq_image {check : List α → List α} {k : Nat}
    (hcheck : ∀ xs, (check xs).length = k) (n : Nat) :
    checkedWords check n k = (fun xs => xs ++ check xs) '' {xs | xs.length = n} := by
  ext xs
  constructor
  · rintro ⟨hlength, hends⟩
    refine ⟨xs.take n, ?_, ?_⟩
    · change (xs.take n).length = n
      rw [List.length_take, hlength, Nat.min_eq_left (Nat.le_add_right n k)]
    · dsimp only
      rw [hends, List.take_append_drop]
  · rintro ⟨ys, hys, rfl⟩
    change ys.length = n at hys
    subst hys
    constructor
    · rw [List.length_append, hcheck]
    · rw [List.take_left, List.drop_left]

theorem append_check_injOn (check : List α → List α) (n : Nat) :
    Set.InjOn (fun xs => xs ++ check xs) {xs : List α | xs.length = n} := by
  intro xs hxs ys hys hsame
  exact (List.append_inj hsame (hxs.trans hys.symm)).1

/-- There are as many as there are words to check. -/
theorem ncard_checkedWords [Fintype α] {check : List α → List α} {k : Nat}
    (hcheck : ∀ xs, (check xs).length = k) (n : Nat) :
    (checkedWords check n k).ncard = Fintype.card α ^ n := by
  rw [checkedWords_eq_image hcheck, (append_check_injOn check n).ncard_image]
  change Nat.card (List.Vector α n) = _
  rw [Nat.card_eq_fintype_card, card_vector]

end Systematic

/-! ### Data fields -/

variable {T : Target}

section Share

variable {hdr : PduHeader} {n : Nat} {field z : List UInt8}

/-- The CRC of a data field covers the header as well. -/
theorem pduAt_iff_checked (h : hdr.InRange) (hcrc : hdr.crcFlag = CFDP_CRC_PRESENT)
    (hdfl : hdr.dataFieldLength.toNat = n + 2) (hfield : field.length = n + 2) :
    (∃ hsize hdr', PduAt (headerOctets hdr ++ (field ++ z)) hsize hdr') ↔
      crcField (headerOctets hdr ++ field.take n) = field.drop n := by
  have hheader := headerDecode_headerOctets h (field ++ z)
  have hhlen := length_headerOctets hdr
  have hextent : headerLength hdr + hdr.received.dataFieldLength.toNat - 2 =
      headerLength hdr + n := by
    change headerLength hdr + hdr.dataFieldLength.toNat - 2 = _
    omega
  -- the CRC covers the header and all of the data field but its last two octets
  have htake : (headerOctets hdr ++ (field ++ z)).take (headerLength hdr + n) =
      headerOctets hdr ++ field.take n := by
    rw [← hhlen, List.take_length_add_append, List.take_append_of_le_length (by omega)]
  have hslice : slice (headerOctets hdr ++ (field ++ z)) (headerLength hdr + n) 2 =
      field.drop n := by
    have hparts : headerOctets hdr ++ (field ++ z) =
        (headerOctets hdr ++ field.take n) ++ (field.drop n ++ z) := by
      rw [← List.append_assoc (headerOctets hdr ++ field.take n),
        List.append_assoc (headerOctets hdr), List.take_append_drop, List.append_assoc]
    rw [hparts]
    apply slice_append
    · rw [List.length_append, List.length_take]
      omega
    · rw [List.length_drop]
      omega
  have hroom : headerLength hdr + n + 2 ≤ (headerOctets hdr ++ (field ++ z)).length := by
    rw [List.length_append, List.length_append]
    omega
  have hcheck := uintAt_two_eq_iff hroom
    (crcOctets CFDP_CRC_INIT (headerOctets hdr ++ field.take n))
  rw [hslice] at hcheck
  constructor
  · rintro ⟨hsize, hdr', hat⟩
    obtain ⟨rfl, rfl⟩ := hat.unique hheader
    have hends := hat.crc hcrc
    rw [hextent, htake] at hends
    exact hcheck.mp hends
  · intro hends
    refine ⟨headerLength hdr, hdr.received, hheader, ?_, ?_, ?_⟩
    · change headerLength hdr + hdr.dataFieldLength.toNat ≤ _
      omega
    · intro _
      change 2 ≤ hdr.dataFieldLength.toNat
      omega
    · intro _
      rw [hextent, htake]
      exact hcheck.mpr hends

end Share

/-- The data fields that are accepted behind a header, in front of `z`. -/
def acceptedFields (hdr : PduHeader) (z : List UInt8) (len : Size T) : Set (List UInt8) :=
  {field | field.length = hdr.dataFieldLength.toNat ∧
    pduCrcVerify (some ⟨Object.full (headerOctets hdr ++ (field ++ z)), 0⟩) len = .ok true}

theorem acceptedFields_eq (h32 : 32 ≤ T.sizeBits) {hdr : PduHeader} (h : hdr.InRange)
    (hcrc : hdr.crcFlag = CFDP_CRC_PRESENT) {n : Nat}
    (hdfl : hdr.dataFieldLength.toNat = n + 2) {z : List UInt8} {len : Size T}
    (hlen : headerLength hdr + (n + 2) + z.length = len.toNat) :
    acceptedFields hdr z len = checkedWords (fun xs => crcField (headerOctets hdr ++ xs)) n 2 := by
  ext field
  change field.length = _ ∧ _ ↔ field.length = n + 2 ∧ _
  rw [hdfl]
  refine and_congr_right fun hfield => ?_
  have hlength : (headerOctets hdr ++ (field ++ z)).length = len.toNat := by
    rw [List.length_append, List.length_append, length_headerOctets]
    omega
  obtain ⟨b, hverify, haccept⟩ := pduCrcVerify_spec h32 (Object.holds_whole _) hlength
  rw [hverify, Except.ok.injEq, haccept, pduAt_iff_checked h hcrc hdfl hfield]

/-- **Main result.** Behind a header with its CRC flag set, one data field in 65536 is
    accepted, whatever the header, the length and the padding; and whichever of these was
    sent, all the others are taken for it. -/
theorem crc_share (h32 : 32 ≤ T.sizeBits) {hdr : PduHeader} (h : hdr.InRange)
    (hcrc : hdr.crcFlag = CFDP_CRC_PRESENT) (hlong : 2 ≤ hdr.dataFieldLength.toNat)
    {z : List UInt8} {len : Size T}
    (hlen : headerLength hdr + hdr.dataFieldLength.toNat + z.length = len.toNat) :
    (acceptedFields hdr z len).ncard * 65536 =
        {field : List UInt8 | field.length = hdr.dataFieldLength.toNat}.ncard ∧
      ∀ sent ∈ acceptedFields hdr z len,
        (acceptedFields hdr z len \ {sent}).ncard + 1 = 256 ^ (hdr.dataFieldLength.toNat - 2) := by
  obtain ⟨n, hdfl⟩ := Nat.exists_eq_add_of_le' hlong
  have hoctets : Fintype.card UInt8 = 256 := by
    rw [← FinEnum.card_eq_fintypeCard]
    rfl
  have haccepted : (acceptedFields hdr z len).ncard = 256 ^ n := by
    rw [acceptedFields_eq h32 h hcrc hdfl (by rw [← hdfl]; exact hlen),
      ncard_checkedWords fun xs => length_crcField _, hoctets]
  have hall : {field : List UInt8 | field.length = hdr.dataFieldLength.toNat}.ncard =
      256 ^ (n + 2) := by
    change Nat.card (List.Vector UInt8 _) = _
    rw [Nat.card_eq_fintype_card, card_vector, hoctets, hdfl]
  constructor
  · rw [haccepted, hall, Nat.pow_add]
  · intro sent hsent
    -- the set is not empty, as its size is a positive power
    have hfinite : (acceptedFields hdr z len).Finite := by
      apply Set.finite_of_ncard_pos
      rw [haccepted]
      exact Nat.pow_pos (by norm_num)
    rw [Set.ncard_sdiff_singleton_add_one hsent hfinite, haccepted, hdfl, Nat.add_sub_cancel]

/-- Of the data fields of five octets that may come behind the header. -/
theorem crc_share_sample :
    (acceptedFields sampleDirectiveHeader [] (sz 12 : Size .checked32)).ncard * 65536 =
      {field : List UInt8 | field.length = 5}.ncard :=
  (crc_share (Nat.le_refl 32) (by constructor <;> decide) rfl (by decide) rfl).1

end EmbeddedCfdp
