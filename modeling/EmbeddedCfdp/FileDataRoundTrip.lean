import EmbeddedCfdp.FileDataCodec

/-!
# File Data round trips

What the receiver reports of a File Data payload denotes the payload that was sent,
and sending it again reproduces the data field octet for octet.
-/

namespace EmbeddedCfdp

open CMemory

variable {T : Target} {largeFileFlag : LargeFileFlag} {segmentMetadataFlag : SegMetadataFlag}

/-! ### What was received can be sent again -/

section View

variable {x : FileDataItem largeFileFlag segmentMetadataFlag} {p : Ptr}

theorem holds_segmentMetadata (h : p.Holds x.encode) : (p.add 1).Holds x.segmentMetadata := by
  by_cases hpresent : segmentMetadataFlag = CFDP_SEG_METADATA_PRESENT
  · rw [FileDataItem.encode, FileDataItem.metadata, if_pos hpresent] at h
    exact h.left.tail
  · rw [(x.absent hpresent).2]
    exact List.nil_prefix

theorem holds_fileData (h : p.Holds x.encode) :
    (p.add (metadataOctets segmentMetadataFlag x.segmentMetadata.length +
      (fileSizeOctets largeFileFlag).toNat)).Holds x.fileData := by
  have hlength : (x.metadata ++ BigEndian.encode (fileSizeOctets largeFileFlag).toNat
      x.offset).length = metadataOctets segmentMetadataFlag x.segmentMetadata.length +
        (fileSizeOctets largeFileFlag).toNat := by
    rw [List.length_append, x.length_metadata, BigEndian.length_encode]
  rw [FileDataItem.encode, ← List.append_assoc] at h
  rw [← hlength]
  exact h.right

theorem octetsAt_view_segmentMetadata (h : p.Holds x.encode) :
    octetsAt (x.view (T := T) p).segmentMetadata
      (x.view (T := T) p).segmentMetadataLen.toNat = x.segmentMetadata := by
  have hshort := x.short
  have hlen : (UInt8.ofNat x.segmentMetadata.length).toNat = x.segmentMetadata.length :=
    toNat_ofNat_of_le (by omega)
  change octetsAt (spanAt p 1 x.segmentMetadata) (UInt8.ofNat x.segmentMetadata.length).toNat = _
  rw [hlen, octetsAt_spanAt (holds_segmentMetadata h)]

theorem toNat_view_fileDataLen (hfits : x.encode.length < 2 ^ T.sizeBits) :
    (x.view (T := T) p).fileDataLen.toNat = x.fileData.length := by
  rw [x.length_encode] at hfits
  exact toNat_sz (by omega)

theorem octetsAt_view_fileData (h : p.Holds x.encode) (hfits : x.encode.length < 2 ^ T.sizeBits) :
    octetsAt (x.view (T := T) p).fileData (x.view (T := T) p).fileDataLen.toNat = x.fileData := by
  rw [toNat_view_fileDataLen hfits]
  exact octetsAt_spanAt (holds_fileData h)

theorem fileDataOf_view (h : p.Holds x.encode) (hfits : x.encode.length < 2 ^ T.sizeBits) :
    fileDataOf largeFileFlag segmentMetadataFlag (x.view (T := T) p) = some x := by
  have hshort := x.short
  have hsegment := octetsAt_view_segmentMetadata (T := T) h
  have hdata := octetsAt_view_fileData h hfits
  have hoffset : (x.view (T := T) p).offset.toNat %
      256 ^ (fileSizeOctets largeFileFlag).toNat = x.offset := by
    have hlt := x.offset_lt
    change (UInt64.ofNat x.offset).toNat % _ = _
    rw [UInt64.toNat_ofNat']
    -- an offset of either width fits 64 bits
    rcases fileSizeOctets_eq largeFileFlag with hwidth | hwidth
    · rw [hwidth] at hlt ⊢
      change x.offset < 256 ^ 8 at hlt
      change x.offset % 2 ^ 64 % 256 ^ 8 = x.offset
      omega
    · rw [hwidth] at hlt ⊢
      change x.offset < 256 ^ 4 at hlt
      change x.offset % 2 ^ 64 % 256 ^ 4 = x.offset
      omega
  have hconsistent : segmentMetadataConsistent (x.view (T := T) p) segmentMetadataFlag = true := by
    by_cases hpresent : segmentMetadataFlag = CFDP_SEG_METADATA_PRESENT
    · have hmax : (x.view (T := T) p).segmentMetadataLen ≤ CFDP_SEGMENT_METADATA_MAX_LEN := by
        rw [UInt8.le_iff_toNat_le]
        change (UInt8.ofNat x.segmentMetadata.length).toNat ≤ 63
        rwa [toNat_ofNat_of_le (by omega)]
      have hthere : (x.view (T := T) p).segmentMetadata.isSome = true ∨
          (x.view (T := T) p).segmentMetadataLen = 0 := by
        change (spanAt p 1 x.segmentMetadata).isSome = true ∨
          UInt8.ofNat x.segmentMetadata.length = 0
        -- an empty metadata field is reported as null
        by_cases hnil : x.segmentMetadata = []
        · rw [hnil]
          exact Or.inr rfl
        · rw [spanAt, if_neg hnil]
          exact Or.inl rfl
      rw [segmentMetadataConsistent, if_neg (not_not.mpr hpresent), Bool.and_eq_true,
        decide_eq_true_eq, Bool.or_eq_true, decide_eq_true_eq]
      exact ⟨hmax, hthere⟩
    · have hnil := (x.absent hpresent).2
      rw [segmentMetadataConsistent, if_pos hpresent, FileDataItem.view, hnil]
      rfl
  -- what is reported passes the checks of the serialiser
  have hpass : ¬ (((x.view (T := T) p).fileData.isNone ∧ (x.view (T := T) p).fileDataLen > sz 0) ∨
      ¬ segmentMetadataConsistent (x.view (T := T) p) segmentMetadataFlag) := by
    rw [not_or, not_not, gt_iff_lt, sz_lt_iff (size_lt T (by decide)), toNat_view_fileDataLen hfits,
      Option.isNone_iff_eq_none]
    refine ⟨?_, hconsistent⟩
    rintro ⟨hnull, hpos⟩
    rw [spanAt_eq_none.mp hnull] at hpos
    exact absurd hpos (by decide)
  rw [fileDataOf, dif_neg hpass, Option.some.injEq]
  ext1
  · dsimp only
    by_cases hpresent : segmentMetadataFlag = CFDP_SEG_METADATA_PRESENT
    · rw [if_pos hpresent, ← x.twoBits]
      change x.recordContinuation.toUInt32.toUInt8 &&& 0x3 = _
      rw [UInt8.toUInt8_toUInt32]
    · rw [if_neg hpresent, (x.absent hpresent).1]
  · exact hsegment
  · exact hoffset
  · exact hdata

end View

/-! ### Round trips -/

/-- What the receiver reports of the payload that the sender was given. -/
structure FileDataReceived (largeFileFlag : LargeFileFlag)
    (segmentMetadataFlag : SegMetadataFlag) (sent received : FileDataPdu T) : Prop where
  fileDataLen : received.fileDataLen = sent.fileDataLen
  fileData : octetsAt received.fileData received.fileDataLen.toNat =
    octetsAt sent.fileData sent.fileDataLen.toNat
  offset : received.offset.toNat =
    sent.offset.toNat % 256 ^ fileSizeWidth largeFileFlag
  recordContinuation : segmentMetadataFlag = CFDP_SEG_METADATA_PRESENT →
    received.recordContinuation = sent.recordContinuation &&& 0x3 ∧
      (sent.recordContinuation.toNat < 4 → received.recordContinuation = sent.recordContinuation)
  segmentMetadataLen : segmentMetadataFlag = CFDP_SEG_METADATA_PRESENT →
    received.segmentMetadataLen = sent.segmentMetadataLen
  segmentMetadata : segmentMetadataFlag = CFDP_SEG_METADATA_PRESENT →
    octetsAt received.segmentMetadata received.segmentMetadataLen.toNat =
      octetsAt sent.segmentMetadata sent.segmentMetadataLen.toNat
  absent : segmentMetadataFlag ≠ CFDP_SEG_METADATA_PRESENT →
    received.recordContinuation = CFDP_RECORD_CONT_NEITHER ∧
      received.segmentMetadata = none ∧ received.segmentMetadataLen = 0

theorem fileDataReceived_view {fd : FileDataPdu T}
    {x : FileDataItem largeFileFlag segmentMetadataFlag} {p : Ptr}
    (hfits : fileDataSize largeFileFlag segmentMetadataFlag fd < 2 ^ T.sizeBits)
    (hdata : Readable fd.fileData fd.fileDataLen.toNat)
    (hmeta : Readable fd.segmentMetadata fd.segmentMetadataLen.toNat)
    (hx : fileDataOf largeFileFlag segmentMetadataFlag fd = some x) (h : p.Holds x.encode) :
    FileDataReceived largeFileFlag segmentMetadataFlag fd (x.view p) := by
  rw [← length_encode_fileDataOf hdata hmeta hx] at hfits
  obtain ⟨hnull, hconsistent, hcontinuation, hmetadata, hoffset, hfileData⟩ := fileDataOf_eq_some hx
  have hdataLength := length_octetsAt hdata hnull
  have hmetaLength := length_octetsAt hmeta (consistent_short hconsistent).2
  constructor
  · change sz x.fileData.length = _
    rw [hfileData, hdataLength, sz_toNat]
  · rw [octetsAt_view_fileData h hfits, hfileData]
  · have hlt := fd.offset.toNat_lt
    change (UInt64.ofNat x.offset).toNat = _
    rw [UInt64.toNat_ofNat', hoffset, toNat_fileSizeOctets]
    exact Nat.mod_eq_of_lt (Nat.lt_of_le_of_lt (Nat.mod_le _ _) hlt)
  -- two bits are carried of the record continuation state
  · intro hpresent
    have hmasked : (x.view (T := T) p).recordContinuation = fd.recordContinuation &&& 0x3 := by
      change x.recordContinuation.toUInt32 = _
      rw [hcontinuation hpresent, BitFields.toUInt32_toUInt8_and]
      rfl
    refine ⟨hmasked, fun hlt => ?_⟩
    rw [hmasked]
    exact BitFields.and_mask_of_lt (k := 2) (by norm_num) hlt
  · intro _
    change UInt8.ofNat x.segmentMetadata.length = _
    rw [hmetadata, hmetaLength, UInt8.ofNat_toNat]
  · intro _
    rw [octetsAt_view_segmentMetadata h, hmetadata]
  -- without the flag the receiver reports no metadata
  · intro hne
    obtain ⟨hzero, hnil⟩ := x.absent hne
    rw [FileDataItem.view, hzero, hnil]
    exact ⟨rfl, rfl, rfl⟩

theorem fileData_decode_encode {fd : FileDataPdu T} {i : Nat} {cap n : Size T} {m m' : Object}
    (hfits : fileDataSize largeFileFlag segmentMetadataFlag fd < 2 ^ T.sizeBits)
    (hdata : Readable fd.fileData fd.fileDataLen.toNat)
    (hmeta : Readable fd.segmentMetadata fd.segmentMetadataLen.toNat)
    (hext : i + cap.toNat ≤ m.extent)
    (hrun : fileDataSerialize (some fd) largeFileFlag segmentMetadataFlag (some i) cap m =
      .ok (n, m')) (hn : n ≠ sz 0) :
    ∃ e : List UInt8, e.length = n.toNat ∧ m' = m.place i e ∧
      ∀ (p : Ptr) (old : FileDataPdu T), p.Holds e →
        ∃ fd', fileDataDeserialize (some p) n largeFileFlag segmentMetadataFlag (some old) =
            .ok (n, some fd') ∧ FileDataReceived largeFileFlag segmentMetadataFlag fd fd' := by
  obtain ⟨e, he, hle, hsize, hplace⟩ :=
    (fileDataSerialize_encodes hfits hdata hmeta).of_run hext hrun hn
  obtain ⟨x, hx, rfl⟩ := Option.map_eq_some_iff.mp he
  have hlength : x.encode.length = n.toNat := by
    rw [hsize, toNat_sz (Nat.lt_of_le_of_lt hle cap.isLt)]
  refine ⟨x.encode, hlength, hplace, fun p old hp => ⟨x.view p, ?_, ?_⟩⟩
  · exact (fileDataDeserialize_decodes hp hlength old).accepts_exact (x.decode_encode) hlength
  · exact fileDataReceived_view hfits hdata hmeta hx hp

theorem fileData_encode_decode {p : Ptr} {xs : List UInt8} {len n : Size T}
    {old fd : FileDataPdu T} (h : p.Holds xs) (hlen : xs.length = len.toNat)
    (hrun : fileDataDeserialize (some p) len largeFileFlag segmentMetadataFlag (some old) =
      .ok (n, some fd)) (hn : n ≠ sz 0) {i : Nat} {cap : Size T} {m : Object}
    (hext : i + cap.toNat ≤ m.extent) (hcap : xs.length ≤ cap.toNat) :
    fileDataSerialize (some fd) largeFileFlag segmentMetadataFlag (some i) cap m =
      .ok (len, m.place i xs) := by
  obtain ⟨x, hdec, _, heq⟩ := (fileDataDeserialize_decodes h hlen old).of_run hrun hn
  rw [Option.some.injEq] at heq
  subst heq
  have henc := FileDataItem.encode_of_decode hdec
  have hlt := len.isLt
  have hfits : x.encode.length < 2 ^ T.sizeBits := by rw [henc]; omega
  rw [← henc] at h
  have hof := fileDataOf_view h hfits
  have hdata : Readable (x.view (T := T) p).fileData (x.view (T := T) p).fileDataLen.toNat := by
    rw [toNat_view_fileDataLen hfits]
    exact readable_spanAt (holds_fileData h)
  have hmeta : Readable (x.view (T := T) p).segmentMetadata
      (x.view (T := T) p).segmentMetadataLen.toNat := by
    change Readable _ (UInt8.ofNat x.segmentMetadata.length).toNat
    rw [toNat_ofNat_of_le (Nat.le_trans x.short (by norm_num))]
    exact readable_spanAt (holds_segmentMetadata h)
  have hsize : fileDataSize largeFileFlag segmentMetadataFlag (x.view (T := T) p) <
      2 ^ T.sizeBits := by
    rwa [← length_encode_fileDataOf hdata hmeta hof]
  have hencodes := fileDataSerialize_encodes hsize hdata hmeta
  rw [hof, Option.map_some, henc] at hencodes
  rw [hencodes.writes hext hcap, hlen, sz_toNat]

/-- **Main result.** Under every layout the File Data codec is an exact inverse pair. -/
theorem fileData_codec (largeFileFlag : LargeFileFlag) (segmentMetadataFlag : SegMetadataFlag) :
    (∀ (fd old : FileDataPdu T) (i : Nat) (cap n : Size T) (m m' : Object),
      fileDataSize largeFileFlag segmentMetadataFlag fd < 2 ^ T.sizeBits →
      Readable fd.fileData fd.fileDataLen.toNat →
      Readable fd.segmentMetadata fd.segmentMetadataLen.toNat → i + cap.toNat ≤ m.extent →
      fileDataSerialize (some fd) largeFileFlag segmentMetadataFlag (some i) cap m = .ok (n, m') →
      n ≠ sz 0 →
      ∃ e : List UInt8, e.length = n.toNat ∧ m' = m.place i e ∧ ∀ p : Ptr, p.Holds e →
        ∃ fd', fileDataDeserialize (some p) n largeFileFlag segmentMetadataFlag (some old) =
            .ok (n, some fd') ∧ FileDataReceived largeFileFlag segmentMetadataFlag fd fd') ∧
    (∀ (p : Ptr) (xs : List UInt8) (len n : Size T) (old fd : FileDataPdu T), p.Holds xs →
      xs.length = len.toNat →
      fileDataDeserialize (some p) len largeFileFlag segmentMetadataFlag (some old) =
        .ok (n, some fd) → n ≠ sz 0 →
      ∀ (i : Nat) (cap : Size T) (m : Object), i + cap.toNat ≤ m.extent →
        xs.length ≤ cap.toNat →
        fileDataSerialize (some fd) largeFileFlag segmentMetadataFlag (some i) cap m =
          .ok (len, m.place i xs)) := by
  constructor
  · intro fd old i cap n m m' hfits hdata hmeta hext hrun hn
    obtain ⟨e, hlength, hplace, hreceive⟩ := fileData_decode_encode hfits hdata hmeta hext hrun hn
    exact ⟨e, hlength, hplace, fun p hp => hreceive p old hp⟩
  · intro p xs len n old fd h hlen hrun hn i cap m hext hcap
    exact fileData_encode_decode h hlen hrun hn hext hcap

/-- Two octets of segment metadata and three of file data. -/
def sampleFileData : FileDataPdu .checked32 :=
  { offset := 0x0102030405
    fileData := some ⟨Object.full [0xA0, 0xA1, 0xA2], 0⟩
    fileDataLen := sz 3
    recordContinuation := 2
    segmentMetadata := some ⟨Object.full [0x50, 0x51], 0⟩
    segmentMetadataLen := 2 }

theorem fileData_codec_sample :
    ∃ e : List UInt8, e.length = 10 ∧ ∀ p : Ptr, p.Holds e →
      ∃ fd', fileDataDeserialize (some p) (sz 10) CFDP_FILE_SIZE_SMALL CFDP_SEG_METADATA_PRESENT
          (some default) = .ok (sz 10, some fd') ∧
        FileDataReceived CFDP_FILE_SIZE_SMALL CFDP_SEG_METADATA_PRESENT sampleFileData fd' := by
  have hdata : Readable sampleFileData.fileData sampleFileData.fileDataLen.toNat := by
    rintro q ⟨⟩
    decide
  have hmeta : Readable sampleFileData.segmentMetadata
      sampleFileData.segmentMetadataLen.toNat := by
    rintro q ⟨⟩
    decide
  have hext : 0 + (sz 10 : Size .checked32).toNat ≤ (Object.full (List.replicate 10 0)).extent := by
    decide
  have hrun : fileDataSerialize (some sampleFileData) CFDP_FILE_SIZE_SMALL
      CFDP_SEG_METADATA_PRESENT (some 0) (sz 10) (Object.full (List.replicate 10 0)) =
      .ok (sz 10, (Object.full (List.replicate 10 0)).place 0
        [0x82, 0x50, 0x51, 0x02, 0x03, 0x04, 0x05, 0xA0, 0xA1, 0xA2]) := rfl
  obtain ⟨e, hlength, _, hreceive⟩ := (fileData_codec _ _).1 sampleFileData default 0 (sz 10)
    (sz 10) _ _ (by decide) hdata hmeta hext hrun (by decide)
  exact ⟨e, hlength, hreceive⟩

end EmbeddedCfdp
