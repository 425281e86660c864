import EmbeddedCfdp.SegmentMetadata

/-!
# File Data and the bound of its buffer

`cfdp_file_data_serialize` compares the capacity once with the sum of its three sizes, added
up in `size_t`.  Where the sum wraps to something that fits the capacity, the check passes and
the writes leave the buffer; everywhere else the capacity bounds them.
-/

namespace EmbeddedCfdp

open CMemory

variable {T : Target} {largeFileFlag : LargeFileFlag} {segmentMetadataFlag : SegMetadataFlag}
  {fd : FileDataPdu T} {i : Nat} {cap : Size T} {m : Object}

/-- What a call of the serialiser owes its capacity: a payload that does not fit is refused
    with nothing written, one that fits is written in its exact size, and nothing is written
    behind the capacity. -/
structure CapacityRespected (fd : FileDataPdu T) (largeFileFlag : LargeFileFlag)
    (segmentMetadataFlag : SegMetadataFlag) (i : Nat) (cap : Size T) (m : Object) : Prop where
  refuses : cap.toNat < fileDataSize largeFileFlag segmentMetadataFlag fd →
    fileDataSerialize (some fd) largeFileFlag segmentMetadataFlag (some i) cap m = .ok (sz 0, m)
  writes : fileDataSize largeFileFlag segmentMetadataFlag fd ≤ cap.toNat →
    ∃ n m', fileDataSerialize (some fd) largeFileFlag segmentMetadataFlag (some i) cap m =
        .ok (n, m') ∧ n.toNat = fileDataSize largeFileFlag segmentMetadataFlag fd ∧
      m.SameOutside m' i cap.toNat

/-- The sum of the sizes wraps, to a value that fits the capacity. -/
def SizeWraps (fd : FileDataPdu T) (largeFileFlag : LargeFileFlag)
    (segmentMetadataFlag : SegMetadataFlag) (cap : Size T) : Prop :=
  2 ^ T.sizeBits ≤ fileDataSize largeFileFlag segmentMetadataFlag fd ∧
    fileDataSize largeFileFlag segmentMetadataFlag fd % 2 ^ T.sizeBits ≤ cap.toNat

theorem not_lt_fileDataNeed_iff :
    ¬ cap < fileDataNeed largeFileFlag segmentMetadataFlag fd ↔
      fileDataSize largeFileFlag segmentMetadataFlag fd % 2 ^ T.sizeBits ≤ cap.toNat := by
  rw [BitVec.lt_def, toNat_fileDataNeed, Nat.not_lt]

/-- Unless the sum wraps into the capacity, a payload that does not fit is refused. -/
theorem refuses_of_not_wraps (hwraps : ¬ SizeWraps fd largeFileFlag segmentMetadataFlag cap)
    (hbig : cap.toNat < fileDataSize largeFileFlag segmentMetadataFlag fd) :
    fileDataSerialize (some fd) largeFileFlag segmentMetadataFlag (some i) cap m =
      .ok (sz 0, m) := by
  apply fileDataSerialize_refuses
  right
  by_contra hroom
  rw [not_lt_fileDataNeed_iff] at hroom
  apply hwraps
  refine ⟨?_, hroom⟩
  by_contra hfits
  rw [Nat.mod_eq_of_lt (Nat.lt_of_not_le hfits)] at hroom
  omega

/-- A payload that fits the capacity is written in full. -/
theorem writes_of_fits
    (hpass : ¬ ((fd.fileData.isNone ∧ fd.fileDataLen > sz 0) ∨
      ¬ segmentMetadataConsistent fd segmentMetadataFlag))
    (hext : i + cap.toNat ≤ m.extent) (hdata : Readable fd.fileData fd.fileDataLen.toNat)
    (hmeta : Readable fd.segmentMetadata fd.segmentMetadataLen.toNat)
    (hfits : fileDataSize largeFileFlag segmentMetadataFlag fd ≤ cap.toNat) :
    ∃ n m', fileDataSerialize (some fd) largeFileFlag segmentMetadataFlag (some i) cap m =
        .ok (n, m') ∧ n.toNat = fileDataSize largeFileFlag segmentMetadataFlag fd ∧
      m.SameOutside m' i cap.toNat := by
  have hlt : fileDataSize largeFileFlag segmentMetadataFlag fd < 2 ^ T.sizeBits :=
    Nat.lt_of_le_of_lt hfits cap.isLt
  obtain ⟨x, hx⟩ : ∃ x, fileDataOf largeFileFlag segmentMetadataFlag fd = some x :=
    ⟨_, dif_neg hpass⟩
  have hlength := length_encode_fileDataOf hdata hmeta hx
  have hencodes := fileDataSerialize_encodes hlt hdata hmeta
  rw [hx, Option.map_some] at hencodes
  refine ⟨_, _, hencodes.writes hext (by rw [hlength]; exact hfits), ?_,
    Object.sameOutside_place (by rw [hlength]; exact hfits)⟩
  rw [hlength, toNat_sz hlt]

/-- **Main result.** On any object of C, for a payload in order, the capacity bounds the
    serialiser except where the sum of the sizes wraps into it. -/
theorem fileData_capacity (hgiven : fd.fileData = none → fd.fileDataLen = sz 0)
    (hconsistent : segmentMetadataConsistent fd segmentMetadataFlag = true)
    (hext : i + cap.toNat ≤ m.extent) (hm : m.extent < 2 ^ T.sizeBits)
    (hdata : fileDataSize largeFileFlag segmentMetadataFlag fd ≤ cap.toNat →
      Readable fd.fileData fd.fileDataLen.toNat)
    (hmeta : fileDataSize largeFileFlag segmentMetadataFlag fd ≤ cap.toNat →
      Readable fd.segmentMetadata fd.segmentMetadataLen.toNat) :
    CapacityRespected fd largeFileFlag segmentMetadataFlag i cap m ↔
      ¬ SizeWraps fd largeFileFlag segmentMetadataFlag cap := by
  have hpass : ¬ ((fd.fileData.isNone ∧ fd.fileDataLen > sz 0) ∨
      ¬ segmentMetadataConsistent fd segmentMetadataFlag) := by
    rw [not_or, not_not, fileData_given_iff]
    exact ⟨hgiven, hconsistent⟩
  constructor
  · rintro hrespected ⟨hwraps, hroom⟩
    -- a size that wraps passes the check of the capacity, so the run would have to be a refusal;
    -- but a refusal past the checks shows that the size did not wrap
    have hrun := hrespected.refuses (Nat.lt_of_lt_of_le cap.isLt hwraps)
    have hlt := fileDataSize_lt hm hpass (not_lt_fileDataNeed_iff.mpr hroom) hrun
    exact Nat.not_le.mpr hlt hwraps
  · intro hwraps
    constructor
    · exact refuses_of_not_wraps hwraps
    · intro hfits
      exact writes_of_fits hpass hext (hdata hfits) (hmeta hfits) hfits

theorem fileData_capacity_sample :
    CapacityRespected sampleFileData CFDP_FILE_SIZE_SMALL CFDP_SEG_METADATA_PRESENT 0 (sz 8)
      (Object.full (List.replicate 8 0)) := by
  have hdata : Readable sampleFileData.fileData sampleFileData.fileDataLen.toNat := by
    rintro q ⟨⟩
    decide
  have hmeta : Readable sampleFileData.segmentMetadata
      sampleFileData.segmentMetadataLen.toNat := by
    rintro q ⟨⟩
    decide
  have hgiven : sampleFileData.fileData = none → sampleFileData.fileDataLen = sz 0 := by
    rintro ⟨⟩
  refine (fileData_capacity hgiven rfl (by decide) (by decide) (fun _ => hdata)
    fun _ => hmeta).mpr ?_
  rintro ⟨hwraps, -⟩
  exact absurd hwraps (by decide)

/-- Four octets of file data, with a length from a subtraction that went below zero. -/
def underflowedLength : FileDataPdu .checked32 :=
  { offset := 0
    fileData := some ⟨Object.full [0xA0, 0xA1, 0xA2, 0xA3], 0⟩
    fileDataLen := sz 0xFFFFFFFC
    recordContinuation := 0
    segmentMetadata := none
    segmentMetadataLen := 0 }

/-- `2 ^ 32` octets pass the check against a buffer of three, and the offset, which is written
    first, already leaves it. -/
theorem underflowedLength_writes_outside :
    fileDataSize CFDP_FILE_SIZE_SMALL CFDP_SEG_METADATA_ABSENT underflowedLength = 2 ^ 32 ∧
    segmentMetadataConsistent underflowedLength CFDP_SEG_METADATA_ABSENT = true ∧
    fileDataSerialize (some underflowedLength) CFDP_FILE_SIZE_SMALL CFDP_SEG_METADATA_ABSENT
      (some 0) (sz 3) (Object.full [0, 0, 0]) = .error .outOfBounds ∧
    ¬ CapacityRespected underflowedLength CFDP_FILE_SIZE_SMALL CFDP_SEG_METADATA_ABSENT 0 (sz 3)
      (Object.full [0, 0, 0]) := by
  have hrun : fileDataSerialize (some underflowedLength) CFDP_FILE_SIZE_SMALL
      CFDP_SEG_METADATA_ABSENT (some 0) (sz 3) (Object.full [0, 0, 0]) =
        .error .outOfBounds := rfl
  refine ⟨rfl, rfl, hrun, ?_⟩
  intro hrespected
  have hrefused := hrespected.refuses (by decide)
  rw [hrun] at hrefused
  cases hrefused

end EmbeddedCfdp
