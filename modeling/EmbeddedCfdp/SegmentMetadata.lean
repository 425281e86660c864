import EmbeddedCfdp.FileDataRoundTrip
import EmbeddedCfdp.FilestoreRoundTrip
import EmbeddedCfdp.SizeWrap

/-!
# The Segment Metadata flag and the fields it governs

Without the flag, the record continuation state, the segment metadata and its length have no
place in a File Data PDU, and the payload must leave them zero.  The serialiser checks the
pointer and the length.  It does not check the record continuation state: the theorem below
says that this is the one way for a field to be dropped.
-/

namespace EmbeddedCfdp

open CMemory

variable {T : Target} {largeFileFlag : LargeFileFlag} {segmentMetadataFlag : SegMetadataFlag}
  {fd : FileDataPdu T} {i : Nat} {cap : Size T} {m : Object}

/-- The fields that the flag governs are zero. -/
def FileDataPdu.LeavesMetadata (fd : FileDataPdu T) : Prop :=
  fd.recordContinuation = 0 ∧ fd.segmentMetadata = none ∧ fd.segmentMetadataLen = 0

/-- What a call of the serialiser owes the flag: a payload that disagrees with it is refused
    with nothing written, and the fields it governs are received as they were sent. -/
structure FlagRespected (fd : FileDataPdu T) (largeFileFlag : LargeFileFlag)
    (segmentMetadataFlag : SegMetadataFlag) (i : Nat) (cap : Size T) (m : Object) : Prop where
  refuses : segmentMetadataFlag ≠ CFDP_SEG_METADATA_PRESENT → ¬ fd.LeavesMetadata →
    fileDataSerialize (some fd) largeFileFlag segmentMetadataFlag (some i) cap m = .ok (sz 0, m)
  received : ∀ (n : Size T) (m' : Object),
    fileDataSerialize (some fd) largeFileFlag segmentMetadataFlag (some i) cap m = .ok (n, m') →
    n ≠ sz 0 → ∃ e : List UInt8, e.length = n.toNat ∧ m' = m.place i e ∧
      ∀ (p : Ptr) (old : FileDataPdu T), p.Holds e →
        ∃ fd', fileDataDeserialize (some p) n largeFileFlag segmentMetadataFlag (some old) =
            .ok (n, some fd') ∧
          fd'.recordContinuation = fd.recordContinuation ∧
          SameOctets (fd.segmentMetadata, fd.segmentMetadataLen)
            (fd'.segmentMetadata, fd'.segmentMetadataLen)

/-- A record continuation state without the flag, in a payload that is otherwise in order and
    fits the buffer. -/
structure DropsContinuation (fd : FileDataPdu T) (largeFileFlag : LargeFileFlag)
    (segmentMetadataFlag : SegMetadataFlag) (cap : Size T) : Prop where
  absent : segmentMetadataFlag ≠ CFDP_SEG_METADATA_PRESENT
  continuation : fd.recordContinuation ≠ 0
  metadata : fd.segmentMetadata = none ∧ fd.segmentMetadataLen = 0
  fileData : fd.fileData = none → fd.fileDataLen = sz 0
  room : ¬ cap < fileDataNeed largeFileFlag segmentMetadataFlag fd

theorem consistent_of_absent (habsent : segmentMetadataFlag ≠ CFDP_SEG_METADATA_PRESENT) :
    segmentMetadataConsistent fd segmentMetadataFlag = true ↔
      fd.segmentMetadata = none ∧ fd.segmentMetadataLen = 0 := by
  rw [segmentMetadataConsistent, if_pos habsent, Bool.and_eq_true, decide_eq_true_eq,
    Option.isNone_iff_eq_none, and_comm]

theorem fileData_given_iff :
    ¬ (fd.fileData.isNone ∧ fd.fileDataLen > sz 0) ↔
      (fd.fileData = none → fd.fileDataLen = sz 0) := by
  rw [gt_iff_lt, sz_lt_iff (size_lt T (by decide)), eq_sz_iff (size_lt T (by decide)),
    Option.isNone_iff_eq_none, not_and]
  constructor
  · intro h hnull
    exact Nat.eq_zero_of_not_pos (h hnull)
  · intro h hnull hpos
    rw [h hnull] at hpos
    exact absurd hpos (by decide)

/-- What the serialiser checks before it writes. -/
theorem fileDataSerialize_checked {n : Size T} {m' : Object}
    (hrun : fileDataSerialize (some fd) largeFileFlag segmentMetadataFlag (some i) cap m =
      .ok (n, m')) (hn : n ≠ sz 0) :
    ¬ ((fd.fileData.isNone ∧ fd.fileDataLen > sz 0) ∨
        ¬ segmentMetadataConsistent fd segmentMetadataFlag) ∧
      ¬ cap < fileDataNeed largeFileFlag segmentMetadataFlag fd := by
  unfold fileDataSerialize at hrun
  dsimp only at hrun
  obtain ⟨hpass, hrun⟩ := Writer.guard_eq_ok hrun hn
  obtain ⟨hroom, _⟩ := Writer.guard_eq_ok hrun hn
  exact ⟨hpass, hroom⟩

/-- A payload that fails a check leaves the buffer as it was. -/
theorem fileDataSerialize_refuses
    (h : ((fd.fileData.isNone ∧ fd.fileDataLen > sz 0) ∨
        ¬ segmentMetadataConsistent fd segmentMetadataFlag) ∨
      cap < fileDataNeed largeFileFlag segmentMetadataFlag fd) :
    fileDataSerialize (some fd) largeFileFlag segmentMetadataFlag (some i) cap m =
      .ok (sz 0, m) := by
  unfold fileDataSerialize
  dsimp only
  -- the two checks stand one behind the other; the second is reached only past the first
  by_cases hpass : (fd.fileData.isNone ∧ fd.fileDataLen > sz 0) ∨
      ¬ segmentMetadataConsistent fd segmentMetadataFlag
  · rw [if_pos hpass]
    rfl
  · have hshort := h.resolve_left hpass
    unfold fileDataNeed at hshort
    rw [if_neg hpass, if_pos hshort]
    rfl

/-- A payload that drops its continuation state is not refused. -/
theorem DropsContinuation.not_refused
    (hdrops : DropsContinuation fd largeFileFlag segmentMetadataFlag cap)
    (hdata : Readable fd.fileData fd.fileDataLen.toNat)
    (hmeta : Readable fd.segmentMetadata fd.segmentMetadataLen.toNat)
    (hext : i + cap.toNat ≤ m.extent) (hm : m.extent < 2 ^ T.sizeBits) :
    fileDataSerialize (some fd) largeFileFlag segmentMetadataFlag (some i) cap m ≠
      .ok (sz 0, m) := by
  intro hrun
  have hpass : ¬ ((fd.fileData.isNone ∧ fd.fileDataLen > sz 0) ∨
      ¬ segmentMetadataConsistent fd segmentMetadataFlag) := by
    rw [not_or, not_not, fileData_given_iff, consistent_of_absent hdrops.absent]
    exact ⟨hdrops.fileData, hdrops.metadata⟩
  have hfits := fileDataSize_lt hm hpass hdrops.room hrun
  have hencodes := fileDataSerialize_encodes hfits hdata hmeta
  obtain ⟨x, hx⟩ : ∃ x, fileDataOf largeFileFlag segmentMetadataFlag fd = some x :=
    ⟨_, dif_neg hpass⟩
  have hlength := length_encode_fileDataOf hdata hmeta hx
  have hroom := hdrops.room
  rw [BitVec.lt_def, toNat_fileDataNeed, Nat.mod_eq_of_lt hfits, ← hlength] at hroom
  rw [hx, Option.map_some] at hencodes
  rw [hencodes.writes hext (by omega), Except.ok.injEq, Prod.mk.injEq] at hrun
  -- a PDU with the flag absent still holds its offset, so it is never empty
  have hpos : 0 < x.encode.length := List.length_pos_of_ne_nil x.encode_ne_nil
  exact sz_ne_zero hpos (by rw [hlength]; exact hfits) hrun.1

/-- The fields the flag governs are received as they were sent, unless one is dropped. -/
theorem governed_received (hstate : fd.recordContinuation.toNat ≤ 3)
    (hdata : Readable fd.fileData fd.fileDataLen.toNat)
    (hmeta : Readable fd.segmentMetadata fd.segmentMetadataLen.toNat)
    (hext : i + cap.toNat ≤ m.extent) (hm : m.extent < 2 ^ T.sizeBits)
    (hkeeps : ¬ DropsContinuation fd largeFileFlag segmentMetadataFlag cap)
    {n : Size T} {m' : Object}
    (hrun : fileDataSerialize (some fd) largeFileFlag segmentMetadataFlag (some i) cap m =
      .ok (n, m')) (hn : n ≠ sz 0) :
    ∃ e : List UInt8, e.length = n.toNat ∧ m' = m.place i e ∧
      ∀ (p : Ptr) (old : FileDataPdu T), p.Holds e →
        ∃ fd', fileDataDeserialize (some p) n largeFileFlag segmentMetadataFlag (some old) =
            .ok (n, some fd') ∧
          fd'.recordContinuation = fd.recordContinuation ∧
          SameOctets (fd.segmentMetadata, fd.segmentMetadataLen)
            (fd'.segmentMetadata, fd'.segmentMetadataLen) := by
  obtain ⟨hpass, hroom⟩ := fileDataSerialize_checked hrun hn
  have hfits := fileDataSize_lt hm hpass hroom hrun
  rw [not_or, not_not, fileData_given_iff] at hpass
  obtain ⟨e, hlength, hm', hreceive⟩ := fileData_decode_encode hfits hdata hmeta hext hrun hn
  refine ⟨e, hlength, hm', fun p old hp => ?_⟩
  obtain ⟨fd', hdecoded, hreceived⟩ := hreceive p old hp
  refine ⟨fd', hdecoded, ?_⟩
  -- with the flag present the record is sent; absent, the decoder returns it as zero
  by_cases hpresent : segmentMetadataFlag = CFDP_SEG_METADATA_PRESENT
  · have hcontinuation := (hreceived.recordContinuation hpresent).2 (Nat.lt_succ_of_le hstate)
    exact ⟨hcontinuation, hreceived.segmentMetadataLen hpresent,
      hreceived.segmentMetadata hpresent⟩
  · obtain ⟨hzero, hnull, hlen⟩ := hreceived.absent hpresent
    have hnone := (consistent_of_absent hpresent).mp hpass.2
    -- the checks pass over `record_continuation`: only `hkeeps` makes it zero
    have hkept : fd.recordContinuation = 0 := by
      by_contra hcontinuation
      exact hkeeps ⟨hpresent, hcontinuation, hnone, hpass.1, hroom⟩
    rw [SameOctets, hzero, hnull, hlen, hkept, hnone.1, hnone.2]
    exact ⟨rfl, rfl, rfl⟩

/-- **Main result.** On any object of C, the serialiser respects the Segment Metadata flag
    except where it drops a record continuation state. -/
theorem segmentMetadata_flag (hstate : fd.recordContinuation.toNat ≤ 3)
    (hdata : Readable fd.fileData fd.fileDataLen.toNat)
    (hmeta : Readable fd.segmentMetadata fd.segmentMetadataLen.toNat)
    (hext : i + cap.toNat ≤ m.extent) (hm : m.extent < 2 ^ T.sizeBits) :
    FlagRespected fd largeFileFlag segmentMetadataFlag i cap m ↔
      ¬ DropsContinuation fd largeFileFlag segmentMetadataFlag cap := by
  constructor
  · intro hrespected hdrops
    apply hdrops.not_refused hdata hmeta hext hm
    apply hrespected.refuses hdrops.absent
    intro hleaves
    exact hdrops.continuation hleaves.1
  · intro hkeeps
    constructor
    -- past the checks only a dropped continuation state could be left, which `hkeeps` excludes
    · intro habsent hsome
      refine fileDataSerialize_refuses ?_
      by_contra hpass
      rw [not_or, not_or, not_not, fileData_given_iff, consistent_of_absent habsent] at hpass
      obtain ⟨⟨hgiven, hnone⟩, hroom⟩ := hpass
      exact hkeeps ⟨habsent, fun hzero => hsome ⟨hzero, hnone.1, hnone.2⟩, hnone, hgiven, hroom⟩
    · intro n m' hrun hn
      exact governed_received hstate hdata hmeta hext hm hkeeps hrun hn

/-- The same file data without its segment metadata. -/
def samplePlainFileData : FileDataPdu .checked32 :=
  { sampleFileData with
    recordContinuation := 0
    segmentMetadata := none
    segmentMetadataLen := 0 }

theorem segmentMetadata_flag_sample :
    FlagRespected sampleFileData CFDP_FILE_SIZE_SMALL CFDP_SEG_METADATA_PRESENT 0 (sz 10)
      (Object.full (List.replicate 10 0)) ∧
    FlagRespected samplePlainFileData CFDP_FILE_SIZE_SMALL CFDP_SEG_METADATA_ABSENT 0 (sz 10)
      (Object.full (List.replicate 10 0)) := by
  have hdata : Readable sampleFileData.fileData sampleFileData.fileDataLen.toNat := by
    rintro q ⟨⟩
    decide
  have hmeta : Readable sampleFileData.segmentMetadata
      sampleFileData.segmentMetadataLen.toNat := by
    rintro q ⟨⟩
    decide
  constructor
  · exact (segmentMetadata_flag (by decide) hdata hmeta (by decide) (by decide)).mpr
      fun hdrops => hdrops.absent rfl
  · have hplain : Readable samplePlainFileData.fileData samplePlainFileData.fileDataLen.toNat :=
      hdata
    have hnone : Readable samplePlainFileData.segmentMetadata
        samplePlainFileData.segmentMetadataLen.toNat := by
      rintro q ⟨⟩
    exact (segmentMetadata_flag (by decide) hplain hnone (by decide) (by decide)).mpr
      fun hdrops => hdrops.continuation rfl

/-- The start of a record in two octets of file data, without segment metadata. -/
def startOfRecord : FileDataPdu .checked32 :=
  { offset := 0
    fileData := some ⟨Object.full [0xA0, 0xA1], 0⟩
    fileDataLen := sz 2
    recordContinuation := 1
    segmentMetadata := none
    segmentMetadataLen := 0 }

/-- Without the flag the start of a record is serialised, and received as neither the start
    nor the end of one. -/
theorem startOfRecord_dropped :
    startOfRecord.recordContinuation.toNat ≤ 3 ∧ ¬ startOfRecord.LeavesMetadata ∧
    fileDataSerialize (some startOfRecord) CFDP_FILE_SIZE_SMALL CFDP_SEG_METADATA_ABSENT (some 0)
      (sz 6) (Object.full (List.replicate 6 0)) =
        .ok (sz 6, Object.full [0, 0, 0, 0, 0xA0, 0xA1]) ∧
    (∃ fd', fileDataDeserialize (some ⟨Object.full [0, 0, 0, 0, 0xA0, 0xA1], 0⟩) (sz 6)
        CFDP_FILE_SIZE_SMALL CFDP_SEG_METADATA_ABSENT (some startOfRecord) =
          .ok (sz 6, some fd') ∧ fd'.recordContinuation ≠ startOfRecord.recordContinuation) ∧
    ¬ FlagRespected startOfRecord CFDP_FILE_SIZE_SMALL CFDP_SEG_METADATA_ABSENT 0 (sz 6)
      (Object.full (List.replicate 6 0)) := by
  have hleaves : ¬ startOfRecord.LeavesMetadata := by
    rintro ⟨hzero, _⟩
    exact absurd hzero (by decide)
  refine ⟨by decide, hleaves, rfl, ⟨_, rfl, by decide⟩, ?_⟩
  intro hrespected
  have hrun := hrespected.refuses (by decide) hleaves
  have hsize := congrArg (Except.map Prod.fst) hrun
  exact absurd (Except.ok.inj hsize) (by decide)

end EmbeddedCfdp
