import EmbeddedCfdp.BitFields
import EmbeddedCfdp.Pdu
import EmbeddedCfdp.TlvSerialise

/-!
# File Data

What a File Data payload carries under the two flags that fix its layout, the octets
that stand for it, and that the serialiser and the deserialiser of the library compute
this correspondence.  It is one to one: the data field has no spare bits.
-/

namespace EmbeddedCfdp

open CMemory

variable {T : Target} {largeFileFlag : LargeFileFlag} {segmentMetadataFlag : SegMetadataFlag}

/-! ### The octet in front of the segment metadata -/

/-- Two bits of record continuation state and six of length. -/
def segmentMetadataOctet (continuation len : UInt8) : UInt8 :=
  ((continuation &&& 0x3) <<< 6) ||| (len &&& 0x3F)

theorem and_two_bits (b : UInt8) : ∃ n : Fin 4, b &&& 0x3 = UInt8.ofNat n := by
  refine BitFields.forall_octet (P := fun b => ∃ n : Fin 4, b &&& 0x3 = UInt8.ofNat n) ?_ b
  decide +kernel

theorem segmentMetadataOctet_continuation (continuation len : UInt8) :
    (segmentMetadataOctet continuation len >>> 6) &&& 0x3 = continuation &&& 0x3 := by
  obtain ⟨n, hn⟩ := and_two_bits continuation
  rw [segmentMetadataOctet, hn]
  clear hn
  refine BitFields.forall_octet (P := fun len =>
    ((((UInt8.ofNat n) <<< 6) ||| (len &&& 0x3F)) >>> 6) &&& 0x3 = UInt8.ofNat n) ?_ len
  revert n
  decide +kernel

theorem segmentMetadataOctet_len (continuation len : UInt8) :
    segmentMetadataOctet continuation len &&& 0x3F = len &&& 0x3F := by
  obtain ⟨n, hn⟩ := and_two_bits continuation
  rw [segmentMetadataOctet, hn]
  clear hn
  refine BitFields.forall_octet (P := fun len =>
    (((UInt8.ofNat n) <<< 6) ||| (len &&& 0x3F)) &&& 0x3F = len &&& 0x3F) ?_ len
  revert n
  decide +kernel

theorem segmentMetadataOctet_fields (octet : UInt8) :
    segmentMetadataOctet ((octet >>> 6) &&& 0x3) (octet &&& 0x3F) = octet := by
  refine BitFields.forall_octet (P := fun octet =>
    segmentMetadataOctet ((octet >>> 6) &&& 0x3) (octet &&& 0x3F) = octet) ?_ octet
  decide +kernel

theorem and_six_bits_le (octet : UInt8) : (octet &&& 0x3F).toNat ≤ 63 := by
  rw [UInt8.toNat_and]
  exact Nat.and_le_right

theorem and_six_bits {n : Nat} (h : n ≤ 63) : UInt8.ofNat n &&& 0x3F = UInt8.ofNat n := by
  apply UInt8.toNat_inj.mp
  have hmask : n &&& (2 ^ 6 - 1) = n % 2 ^ 6 := Nat.and_two_pow_sub_one_eq_mod _ _
  rw [UInt8.toNat_and, toNat_ofNat_of_le (by omega)]
  change n &&& (2 ^ 6 - 1) = n
  omega

/-! ### The payload and its octets -/

/-- The contents of a File Data data field.  Without segment metadata there is no
    record continuation state either. -/
@[ext] structure FileDataItem (largeFileFlag : LargeFileFlag)
    (segmentMetadataFlag : SegMetadataFlag) where
  recordContinuation : UInt8
  segmentMetadata : List UInt8
  offset : Nat
  fileData : List UInt8
  twoBits : recordContinuation &&& 0x3 = recordContinuation
  short : segmentMetadata.length ≤ 63
  offset_lt : offset < 256 ^ (fileSizeOctets largeFileFlag).toNat
  absent : segmentMetadataFlag ≠ CFDP_SEG_METADATA_PRESENT →
    recordContinuation = 0 ∧ segmentMetadata = []

/-- Octets in front of the offset, for `n` octets of segment metadata. -/
def metadataOctets (segmentMetadataFlag : SegMetadataFlag) (n : Nat) : Nat :=
  if segmentMetadataFlag = CFDP_SEG_METADATA_PRESENT then n + 1 else 0

namespace FileDataItem

variable (x : FileDataItem largeFileFlag segmentMetadataFlag)

def metadata : List UInt8 :=
  if segmentMetadataFlag = CFDP_SEG_METADATA_PRESENT then
    segmentMetadataOctet x.recordContinuation (UInt8.ofNat x.segmentMetadata.length) ::
      x.segmentMetadata
  else []

def encode : List UInt8 :=
  x.metadata ++ (BigEndian.encode (fileSizeOctets largeFileFlag).toNat x.offset ++ x.fileData)

theorem length_metadata :
    x.metadata.length = metadataOctets segmentMetadataFlag x.segmentMetadata.length := by
  unfold metadata metadataOctets
  by_cases h : segmentMetadataFlag = CFDP_SEG_METADATA_PRESENT
  · rw [if_pos h, if_pos h, List.length_cons]
  · rw [if_neg h, if_neg h, List.length_nil]

theorem length_encode : x.encode.length =
    metadataOctets segmentMetadataFlag x.segmentMetadata.length +
      (fileSizeOctets largeFileFlag).toNat + x.fileData.length := by
  rw [encode, List.length_append, List.length_append, length_metadata, BigEndian.length_encode]
  omega

theorem encode_ne_nil : x.encode ≠ [] := by
  intro hnil
  have hlength := x.length_encode
  rw [hnil, List.length_nil] at hlength
  have hpos : 0 < (fileSizeOctets largeFileFlag).toNat := by
    rcases fileSizeOctets_eq largeFileFlag with hwidth | hwidth
    · rw [hwidth]
      decide
    · rw [hwidth]
      decide
  omega

/-- The octets in front of the offset, read off the front of a data field. -/
def metadataLength (segmentMetadataFlag : SegMetadataFlag) (xs : List UInt8) : Nat :=
  metadataOctets segmentMetadataFlag (xs.getD 0 0 &&& 0x3F).toNat

def decode (xs : List UInt8) : Option (FileDataItem largeFileFlag segmentMetadataFlag) :=
  let pos := metadataLength segmentMetadataFlag xs
  let width := (fileSizeOctets largeFileFlag).toNat
  if h : pos + width ≤ xs.length then
    some
      { recordContinuation :=
          if segmentMetadataFlag = CFDP_SEG_METADATA_PRESENT then (xs.getD 0 0 >>> 6) &&& 0x3
          else 0
        segmentMetadata := (xs.take pos).drop 1
        offset := BigEndian.decode (slice xs pos width)
        fileData := xs.drop (pos + width)
        twoBits := by
          split
          · rw [UInt8.and_assoc, UInt8.and_self]
          · rfl
        short := by
          have hle := and_six_bits_le (xs.getD 0 0)
          rw [List.length_drop, List.length_take]
          simp only [pos, metadataLength, metadataOctets]
          split <;> omega
        offset_lt := by
          have hlt := BigEndian.decode_lt (slice xs pos width)
          rwa [length_slice h] at hlt
        absent := by
          intro hne
          have hpos : pos = 0 := if_neg hne
          rw [if_neg hne, hpos]
          exact ⟨rfl, rfl⟩ }
  else none

theorem metadataLength_encode :
    metadataLength segmentMetadataFlag x.encode = x.metadata.length := by
  have hshort := x.short
  rw [length_metadata, metadataLength, metadataOctets, metadataOctets]
  by_cases h : segmentMetadataFlag = CFDP_SEG_METADATA_PRESENT
  · have hfirst : x.encode.getD 0 0 =
        segmentMetadataOctet x.recordContinuation (UInt8.ofNat x.segmentMetadata.length) := by
      rw [encode, metadata, if_pos h]
      rfl
    rw [if_pos h, if_pos h, hfirst, segmentMetadataOctet_len, and_six_bits hshort,
      toNat_ofNat_of_le (by omega)]
  · rw [if_neg h, if_neg h]

theorem decode_encode : decode x.encode = some x := by
  have hwidth := BigEndian.length_encode (fileSizeOctets largeFileFlag).toNat x.offset
  have hroom : metadataLength segmentMetadataFlag x.encode +
      (fileSizeOctets largeFileFlag).toNat ≤ x.encode.length := by
    rw [metadataLength_encode, length_encode, length_metadata]
    omega
  rw [decode, dif_pos hroom, Option.some.injEq]
  -- the four fields in turn; continuation and metadata depend on the flag
  ext1
  · dsimp only
    by_cases h : segmentMetadataFlag = CFDP_SEG_METADATA_PRESENT
    · have hfirst : x.encode.getD 0 0 =
          segmentMetadataOctet x.recordContinuation (UInt8.ofNat x.segmentMetadata.length) := by
        rw [encode, metadata, if_pos h]
        rfl
      rw [if_pos h, hfirst, segmentMetadataOctet_continuation, x.twoBits]
    · rw [if_neg h, (x.absent h).1]
  · dsimp only
    rw [metadataLength_encode, encode, List.take_left, metadata]
    by_cases h : segmentMetadataFlag = CFDP_SEG_METADATA_PRESENT
    · rw [if_pos h]
      rfl
    · rw [if_neg h, (x.absent h).2]
      rfl
  · dsimp only
    rw [metadataLength_encode, encode, slice_append rfl hwidth.symm, BigEndian.decode_encode,
      Nat.mod_eq_of_lt x.offset_lt]
  · dsimp only
    rw [metadataLength_encode, encode, ← List.append_assoc, List.drop_left']
    rw [List.length_append, hwidth]

theorem encode_of_decode {xs : List UInt8}
    {x : FileDataItem largeFileFlag segmentMetadataFlag} (h : decode xs = some x) :
    x.encode = xs := by
  by_cases hroom : metadataLength segmentMetadataFlag xs +
      (fileSizeOctets largeFileFlag).toNat ≤ xs.length
  · rw [decode, dif_pos hroom, Option.some.injEq] at h
    have hmetadata : x.metadata = xs.take (metadataLength segmentMetadataFlag xs) := by
      rw [← h, metadata]
      dsimp only
      -- with the flag the octet packs two bits and the length of what follows
      by_cases hpresent : segmentMetadataFlag = CFDP_SEG_METADATA_PRESENT
      · have hpos : metadataLength segmentMetadataFlag xs = (xs.getD 0 0 &&& 0x3F).toNat + 1 :=
          if_pos hpresent
        rw [if_pos hpresent, if_pos hpresent]
        rw [hpos] at hroom ⊢
        obtain ⟨octet, ys, rfl⟩ := List.exists_cons_of_length_pos (by omega : 0 < xs.length)
        change segmentMetadataOctet ((octet >>> 6) &&& 0x3)
          (UInt8.ofNat (ys.take (octet &&& 0x3F).toNat).length) :: _ = _
        have hlen : (ys.take (octet &&& 0x3F).toNat).length = (octet &&& 0x3F).toNat := by
          rw [List.length_cons] at hroom
          refine List.length_take_of_le ?_
          change (octet &&& 0x3F).toNat + 1 + _ ≤ _ at hroom
          omega
        rw [hlen, UInt8.ofNat_toNat, segmentMetadataOctet_fields]
        rfl
      · have hpos : metadataLength segmentMetadataFlag xs = 0 := if_neg hpresent
        rw [if_neg hpresent, hpos]
        rfl
    have hoffset : BigEndian.encode (fileSizeOctets largeFileFlag).toNat x.offset =
        slice xs (metadataLength segmentMetadataFlag xs) (fileSizeOctets largeFileFlag).toNat := by
      rw [← h]
      have hfield := BigEndian.encode_decode (slice xs (metadataLength segmentMetadataFlag xs)
        (fileSizeOctets largeFileFlag).toNat)
      rwa [length_slice hroom] at hfield
    have hdata : x.fileData = xs.drop (metadataLength segmentMetadataFlag xs +
        (fileSizeOctets largeFileFlag).toNat) := by
      rw [← h]
    rw [encode, hmetadata, hoffset, hdata, slice, ← List.drop_drop, List.take_append_drop,
      List.take_append_drop]
  · rw [decode, dif_neg hroom] at h
    cases h

end FileDataItem

/-! ### Serialising -/

/-- The octets in front of the offset under the flag, as the source computes them. -/
theorem segmentMetadataWrite_puts {fd : FileDataPdu T} (i : Nat)
    (hnull : ¬ (fd.segmentMetadata.isNone ∧ fd.segmentMetadataLen.toNat > 0))
    (hr : Readable fd.segmentMetadata fd.segmentMetadataLen.toNat) :
    Puts (segmentMetadataWrite fd i) i
      (segmentMetadataOctet fd.recordContinuation.toUInt8 fd.segmentMetadataLen ::
        octetsAt fd.segmentMetadata fd.segmentMetadataLen.toNat)
      (sz (fd.segmentMetadataLen.toNat + 1)) := by
  unfold segmentMetadataWrite
  rw [sz_add]
  refine Puts.congr (Puts.bind (Puts.store i _)
    (Puts.copy toNat_pos_iff hnull hr rfl (Puts.pure _ _) fun _ => rfl) rfl) ?_ rfl
  rw [List.append_nil, List.singleton_append]
  rfl

theorem consistent_absent {fd : FileDataPdu T}
    (h : segmentMetadataConsistent fd segmentMetadataFlag = true)
    (hne : segmentMetadataFlag ≠ CFDP_SEG_METADATA_PRESENT) :
    fd.segmentMetadataLen = 0 ∧ fd.segmentMetadata = none := by
  rw [segmentMetadataConsistent, if_pos hne, Bool.and_eq_true, decide_eq_true_eq,
    Option.isNone_iff_eq_none] at h
  exact h

/-- Under either flag the segment metadata is short, and there where it has a length. -/
theorem consistent_short {fd : FileDataPdu T}
    (h : segmentMetadataConsistent fd segmentMetadataFlag = true) :
    fd.segmentMetadataLen.toNat ≤ 63 ∧
      ¬ (fd.segmentMetadata.isNone ∧ fd.segmentMetadataLen.toNat > 0) := by
  -- the flag decides which of the two checks was made
  by_cases hpresent : segmentMetadataFlag = CFDP_SEG_METADATA_PRESENT
  · rw [segmentMetadataConsistent, if_neg (not_not.mpr hpresent), Bool.and_eq_true,
      decide_eq_true_eq, Bool.or_eq_true, decide_eq_true_eq] at h
    obtain ⟨hmax, hnull⟩ := h
    refine ⟨UInt8.le_iff_toNat_le.mp hmax, ?_⟩
    rintro ⟨hnone, hpos⟩
    rcases hnull with hsome | hzero
    · rw [Option.isNone_iff_eq_none] at hnone
      rw [hnone] at hsome
      cases hsome
    · rw [hzero] at hpos
      exact absurd hpos (by decide)
  · obtain ⟨hzero, _⟩ := consistent_absent h hpresent
    rw [hzero]
    exact ⟨by decide, fun hnull => absurd hnull.2 (by decide)⟩

section Serialise

variable (largeFileFlag segmentMetadataFlag) (fd : FileDataPdu T)

/-- The payload that an argument stands for, if it may be encoded under the flags. -/
def fileDataOf : Option (FileDataItem largeFileFlag segmentMetadataFlag) :=
  if h : (fd.fileData.isNone ∧ fd.fileDataLen > sz 0) ∨
      ¬ segmentMetadataConsistent fd segmentMetadataFlag then none
  else
    some
      { recordContinuation :=
          if segmentMetadataFlag = CFDP_SEG_METADATA_PRESENT then
            fd.recordContinuation.toUInt8 &&& 0x3
          else 0
        segmentMetadata := octetsAt fd.segmentMetadata fd.segmentMetadataLen.toNat
        offset := fd.offset.toNat % 256 ^ (fileSizeOctets largeFileFlag).toNat
        fileData := octetsAt fd.fileData fd.fileDataLen.toNat
        twoBits := by
          split
          · rw [UInt8.and_assoc, UInt8.and_self]
          · rfl
        short := Nat.le_trans (length_octetsAt_le _ _)
          (consistent_short (not_not.mp (not_or.mp h).2)).1
        offset_lt := Nat.mod_lt _ (Nat.pow_pos (by norm_num))
        absent := by
          intro hne
          rw [if_neg hne, (consistent_absent (not_not.mp (not_or.mp h).2) hne).2]
          exact ⟨rfl, rfl⟩ }

variable {largeFileFlag segmentMetadataFlag fd}

theorem fileDataOf_eq_some {x : FileDataItem largeFileFlag segmentMetadataFlag}
    (h : fileDataOf largeFileFlag segmentMetadataFlag fd = some x) :
    ¬ (fd.fileData.isNone ∧ fd.fileDataLen.toNat > 0) ∧
      segmentMetadataConsistent fd segmentMetadataFlag = true ∧
      (segmentMetadataFlag = CFDP_SEG_METADATA_PRESENT →
        x.recordContinuation = fd.recordContinuation.toUInt8 &&& 0x3) ∧
      x.segmentMetadata = octetsAt fd.segmentMetadata fd.segmentMetadataLen.toNat ∧
      x.offset = fd.offset.toNat % 256 ^ (fileSizeOctets largeFileFlag).toNat ∧
      x.fileData = octetsAt fd.fileData fd.fileDataLen.toNat := by
  unfold fileDataOf at h
  by_cases hrefuse : (fd.fileData.isNone ∧ fd.fileDataLen > sz 0) ∨
      ¬ segmentMetadataConsistent fd segmentMetadataFlag
  · rw [dif_pos hrefuse] at h
    cases h
  · rw [dif_neg hrefuse, Option.some.injEq] at h
    subst h
    rw [not_or, not_not, gt_iff_lt, sz_lt_iff (size_lt T (by decide))] at hrefuse
    exact ⟨hrefuse.1, hrefuse.2, fun hpresent => if_pos hpresent, rfl, rfl, rfl⟩

/-- The exact number of octets the argument asks for. -/
def fileDataSize (largeFileFlag : LargeFileFlag) (segmentMetadataFlag : SegMetadataFlag)
    (fd : FileDataPdu T) : Nat :=
  metadataOctets segmentMetadataFlag fd.segmentMetadataLen.toNat +
    fileSizeWidth largeFileFlag + fd.fileDataLen.toNat

theorem fileDataSize_eq (largeFileFlag : LargeFileFlag) (segmentMetadataFlag : SegMetadataFlag)
    (fd : FileDataPdu T) : fileDataSize largeFileFlag segmentMetadataFlag fd =
      metadataOctets segmentMetadataFlag fd.segmentMetadataLen.toNat +
        (fileSizeOctets largeFileFlag).toNat + fd.fileDataLen.toNat := by
  rw [fileDataSize, toNat_fileSizeOctets]

theorem length_encode_fileDataOf {x : FileDataItem largeFileFlag segmentMetadataFlag}
    (hdata : Readable fd.fileData fd.fileDataLen.toNat)
    (hmeta : Readable fd.segmentMetadata fd.segmentMetadataLen.toNat)
    (h : fileDataOf largeFileFlag segmentMetadataFlag fd = some x) :
    x.encode.length = fileDataSize largeFileFlag segmentMetadataFlag fd := by
  obtain ⟨hnull, hconsistent, _, hmetadata, _, hfileData⟩ := fileDataOf_eq_some h
  rw [x.length_encode, hmetadata, hfileData, length_octetsAt hdata hnull,
    length_octetsAt hmeta (consistent_short hconsistent).2, fileDataSize_eq]

/-- The offset and the file data, behind `k` octets of segment metadata. -/
theorem offsetAndData_puts {i k : Nat} {w : UInt8}
    (hfits : k + w.toNat + fd.fileDataLen.toNat < 2 ^ T.sizeBits)
    (hnull : ¬ (fd.fileData.isNone ∧ fd.fileDataLen.toNat > 0))
    (hdata : Readable fd.fileData fd.fileDataLen.toNat) :
    Puts (do
        writeUint (i + (sz k : Size T).toNat) fd.offset w
        if fd.fileDataLen > sz 0 then
          memcpy (i + (sz k + sz w.toNat : Size T).toNat) fd.fileData fd.fileDataLen.toNat
          pure (sz k + sz w.toNat + fd.fileDataLen)
        else pure (sz k + sz w.toNat))
      (i + k)
      (BigEndian.encode w.toNat fd.offset.toNat ++ octetsAt fd.fileData fd.fileDataLen.toNat)
      (sz (k + w.toNat + fd.fileDataLen.toNat)) := by
  have hpos : fd.fileDataLen > sz 0 ↔ fd.fileDataLen.toNat > 0 :=
    sz_lt_iff (size_lt T (by decide))
  have hk : (sz k : Size T).toNat = k := toNat_sz (by omega)
  have hkw : (sz (k + w.toNat) : Size T).toNat = k + w.toNat := toNat_sz (by omega)
  rw [sz_add, hk, hkw, ← sz_add (k + w.toNat), sz_toNat]
  -- an empty file data part is not copied
  refine Puts.bind (writeUint_puts _ _ _) (Puts.congr
    (Puts.copy hpos hnull hdata rfl (Puts.pure _ _) ?_) (List.append_nil _) rfl) ?_
  · intro hzero
    have hlen : fd.fileDataLen = sz 0 := (eq_sz_iff (size_lt T (by decide))).mpr hzero
    rw [hlen, sz_add, Nat.add_zero]
  · rw [BigEndian.length_encode]
    omega

theorem fileDataSerialize_encodes
    (hfits : fileDataSize largeFileFlag segmentMetadataFlag fd < 2 ^ T.sizeBits)
    (hdata : Readable fd.fileData fd.fileDataLen.toNat)
    (hmeta : Readable fd.segmentMetadata fd.segmentMetadataLen.toNat) :
    Encodes (fun i n => fileDataSerialize (some fd) largeFileFlag segmentMetadataFlag (some i) n)
      ((fileDataOf largeFileFlag segmentMetadataFlag fd).map FileDataItem.encode) := by
  constructor
  · intro e he
    obtain ⟨x, _, rfl⟩ := Option.map_eq_some_iff.mp he
    exact x.encode_ne_nil
  · intro i len m hext
    have hsize : (if segmentMetadataFlag = CFDP_SEG_METADATA_PRESENT then
          (sz fd.segmentMetadataLen.toNat + sz 1 : Size T) else sz 0) +
        sz (fileSizeOctets largeFileFlag).toNat + fd.fileDataLen =
        sz (fileDataSize largeFileFlag segmentMetadataFlag fd) := by
      rw [fileDataSize_eq, metadataOctets, ← sz_add, ← sz_add, sz_toNat]
      by_cases hpresent : segmentMetadataFlag = CFDP_SEG_METADATA_PRESENT
      · rw [if_pos hpresent, if_pos hpresent, sz_add]
      · rw [if_neg hpresent, if_neg hpresent]
    unfold fileDataSerialize
    refine Outcome.guard_start ?_ fun hpass => ?_
    · intro hrefuse e he
      rw [fileDataOf, dif_pos hrefuse] at he
      cases he
    · obtain ⟨x, hx⟩ : ∃ x, fileDataOf largeFileFlag segmentMetadataFlag fd = some x :=
        ⟨_, dif_neg hpass⟩
      obtain ⟨hnull, hconsistent, hcontinuation, hmetadata, hoffset, hfileData⟩ :=
        fileDataOf_eq_some hx
      have hlength := length_encode_fileDataOf hdata hmeta hx
      dsimp only
      rw [hsize]
      refine Outcome.guard_start ?_ fun hroom => ?_
      · intro hshort e he
        rw [hx, Option.map_some, Option.some.injEq] at he
        rw [lt_sz_iff hfits] at hshort
        rwa [← he, hlength]
      · rw [lt_sz_iff hfits] at hroom
        rw [hx, Option.map_some]
        have htail : BigEndian.encode (fileSizeOctets largeFileFlag).toNat x.offset ++ x.fileData =
            BigEndian.encode (fileSizeOctets largeFileFlag).toNat fd.offset.toNat ++
              octetsAt fd.fileData fd.fileDataLen.toNat := by
          rw [hoffset, hfileData, BigEndian.encode_mod]
        rw [← hlength] at hroom hfits
        -- with segment metadata its octet and its octets go first
        by_cases hpresent : segmentMetadataFlag = CFDP_SEG_METADATA_PRESENT
        · have hsum : fileDataSize largeFileFlag segmentMetadataFlag fd =
              fd.segmentMetadataLen.toNat + 1 + (fileSizeOctets largeFileFlag).toNat +
                fd.fileDataLen.toNat := by
            rw [fileDataSize_eq, metadataOctets, if_pos hpresent]
          have hmetaLength := length_octetsAt hmeta (consistent_short hconsistent).2
          have hhead : x.metadata =
              segmentMetadataOctet fd.recordContinuation.toUInt8 fd.segmentMetadataLen ::
                octetsAt fd.segmentMetadata fd.segmentMetadataLen.toNat := by
            rw [FileDataItem.metadata, if_pos hpresent, hcontinuation hpresent, hmetadata,
              hmetaLength, UInt8.ofNat_toNat, segmentMetadataOctet, UInt8.and_assoc, UInt8.and_self]
            rfl
          rw [if_pos hpresent]
          refine Outcome.of_puts (Puts.congr (Puts.bind (segmentMetadataWrite_puts i
            (consistent_short hconsistent).2 hmeta) (offsetAndData_puts (by omega) hnull hdata) ?_)
            ?_ ?_) rfl (by omega) hext
          · rw [List.length_cons, hmetaLength]
          · rw [FileDataItem.encode, hhead, htail]
          · rw [hlength, hsum]
        · have hsum : fileDataSize largeFileFlag segmentMetadataFlag fd =
              0 + (fileSizeOctets largeFileFlag).toNat + fd.fileDataLen.toNat := by
            rw [fileDataSize_eq, metadataOctets, if_neg hpresent]
          rw [if_neg hpresent]
          refine Outcome.of_puts (Puts.congr (Puts.bind (Puts.pure (sz 0) i)
            (offsetAndData_puts (by omega) hnull hdata) rfl) ?_ ?_) rfl (by omega) hext
          · rw [FileDataItem.encode, FileDataItem.metadata, if_neg hpresent, htail]
          · rw [hlength, hsum]

end Serialise

/-! ### Deserialising -/

section Deserialise

variable {p : Ptr} {xs : List UInt8} {len : Size T}

/-- What is reported for the payload in the data field at `p`. -/
def FileDataItem.view (p : Ptr) (x : FileDataItem largeFileFlag segmentMetadataFlag) :
    FileDataPdu T :=
  { offset := UInt64.ofNat x.offset
    fileData := spanAt p (metadataOctets segmentMetadataFlag x.segmentMetadata.length +
      (fileSizeOctets largeFileFlag).toNat) x.fileData
    fileDataLen := sz x.fileData.length
    recordContinuation := x.recordContinuation.toUInt32
    segmentMetadata := spanAt p 1 x.segmentMetadata
    segmentMetadataLen := UInt8.ofNat x.segmentMetadata.length }

theorem segmentMetadataRead_decodes (h : p.Holds xs) (hlen : xs.length = len.toNat)
    (fd : FileDataPdu T) :
    Decodes (segmentMetadataRead p len fd)
      (if (xs.getD 0 0 &&& 0x3F).toNat + 1 ≤ xs.length then
        some ((xs.getD 0 0 &&& 0x3F).toNat + 1, { fd with
          recordContinuation := ((xs.getD 0 0 >>> 6) &&& 0x3).toUInt32
          segmentMetadataLen := xs.getD 0 0 &&& 0x3F
          segmentMetadata := spanAt p 1 (slice xs 1 (xs.getD 0 0 &&& 0x3F).toNat) })
      else none) := by
  have hle := and_six_bits_le (xs.getD 0 0)
  unfold segmentMetadataRead
  -- the octet itself has to be there, and then as many as it says
  refine Decodes.guard ?_ fun hone => ?_
  · rw [lt_sz_iff (size_lt T (by decide)), ← hlen]
    intro hempty
    rw [if_neg (by omega)]
  · rw [lt_sz_iff (size_lt T (by decide)), ← hlen] at hone
    rw [h.load_getD (by omega), ok_bind]
    dsimp only
    rw [sz_add]
    refine Decodes.guard ?_ fun hroom => ?_
    · rw [lt_sz_iff (size_lt T (by omega)), ← hlen]
      intro hshort
      rw [if_neg (by omega)]
    · rw [lt_sz_iff (size_lt T (by omega)), ← hlen] at hroom
      have hslice : (slice xs 1 (xs.getD 0 0 &&& 0x3F).toNat).length =
          (xs.getD 0 0 &&& 0x3F).toNat := length_slice (by omega)
      rw [spanAt_of_length hslice]
      refine Decodes.accept (if_pos ?_)
      omega

/-- The offset and the file data, behind `k` octets of segment metadata. -/
theorem offsetAndData_decodes (h : p.Holds xs) (hlen : xs.length = len.toNat) {k : Nat} {w : UInt8}
    (hk : k + w.toNat < 65536) (fd : FileDataPdu T) :
    Decodes
      (if len < sz k + sz w.toNat then pure (sz 0, some fd)
      else do
        let offset ← readUint (p.add (sz k : Size T).toNat) w
        let fileDataLen ← Size.sub len (sz k + sz w.toNat)
        pure (len, some { fd with
          offset := offset
          fileData := if len > sz k + sz w.toNat then
            some (p.add (sz k + sz w.toNat : Size T).toNat) else none
          fileDataLen := fileDataLen }))
      (if k + w.toNat ≤ xs.length then
        some (xs.length, some { fd with
          offset := uintAt xs k w.toNat
          fileData := spanAt p (k + w.toNat) (xs.drop (k + w.toNat))
          fileDataLen := sz (xs.drop (k + w.toNat)).length })
      else none) := by
  rw [sz_add]
  refine Decodes.guard ?_ fun hroom => ?_
  · rw [lt_sz_iff (size_lt T (by omega)), ← hlen]
    intro hshort
    rw [if_neg (by omega)]
  · rw [lt_sz_iff (size_lt T (by omega)), ← hlen] at hroom
    -- the pointer stays null where no file data is left
    have hspan : (if len > sz (k + w.toNat) then some (p.add (sz (k + w.toNat) : Size T).toNat)
        else none) = spanAt p (k + w.toNat) (xs.drop (k + w.toNat)) :=
      spanAt_of_rest (by rw [List.length_drop]; omega)
    have hself : sz xs.length = len := by rw [hlen, sz_toNat]
    have hk' : (sz k : Size T).toNat = k := toNat_sz_small (by omega)
    rw [hk', readUint_add h (by omega), ok_bind, sub_sz_left (by omega), ok_bind, hspan, ← hlen,
      List.length_drop]
    conv_lhs => rw [← hself]
    exact Decodes.accept (if_pos (by omega))

/-- The decoded payload as it is reported, field by field. -/
theorem decode_map_view (p : Ptr) (xs : List UInt8) {k width : Nat}
    (hk : k = FileDataItem.metadataLength segmentMetadataFlag xs)
    (hwidth : width = (fileSizeOctets largeFileFlag).toNat) :
    (@FileDataItem.decode largeFileFlag segmentMetadataFlag xs).map
      (fun x => (xs.length, some (x.view (T := T) p))) =
    if k + width ≤ xs.length then
      some (xs.length, some
        { offset := uintAt xs k width
          fileData := spanAt p (k + width) (xs.drop (k + width))
          fileDataLen := sz (xs.drop (k + width)).length
          recordContinuation :=
            if segmentMetadataFlag = CFDP_SEG_METADATA_PRESENT then
              ((xs.getD 0 0 >>> 6) &&& 0x3).toUInt32
            else CFDP_RECORD_CONT_NEITHER
          segmentMetadata := spanAt p 1 (slice xs 1 (k - 1))
          segmentMetadataLen := UInt8.ofNat (k - 1) })
    else none := by
  by_cases hroom : k + width ≤ xs.length
  · have hroom' : FileDataItem.metadataLength segmentMetadataFlag xs +
        (fileSizeOctets largeFileFlag).toNat ≤ xs.length := by rwa [← hk, ← hwidth]
    have hslice : (xs.take k).drop 1 = slice xs 1 (k - 1) := by
      rw [slice, List.drop_take]
    have hlength : (slice xs 1 (k - 1)).length = k - 1 := by
      rw [← hslice, List.length_drop, List.length_take_of_le (by omega)]
    have hoctets : metadataOctets segmentMetadataFlag (slice xs 1 (k - 1)).length = k := by
      rw [hlength, hk, FileDataItem.metadataLength, metadataOctets, metadataOctets]
      by_cases hpresent : segmentMetadataFlag = CFDP_SEG_METADATA_PRESENT
      · rw [if_pos hpresent, if_pos hpresent, Nat.add_sub_cancel]
      · rw [if_neg hpresent, if_neg hpresent]
    rw [if_pos hroom, FileDataItem.decode, dif_pos hroom', Option.map_some]
    simp only [FileDataItem.view]
    rw [← hk, ← hwidth, hslice, hoctets, hlength]
    by_cases hpresent : segmentMetadataFlag = CFDP_SEG_METADATA_PRESENT
    · rw [if_pos hpresent, if_pos hpresent]
      rfl
    · rw [if_neg hpresent, if_neg hpresent]
      rfl
  · have hroom' : ¬ FileDataItem.metadataLength segmentMetadataFlag xs +
        (fileSizeOctets largeFileFlag).toNat ≤ xs.length := by rwa [← hk, ← hwidth]
    rw [if_neg hroom, FileDataItem.decode, dif_neg hroom', Option.map_none]

theorem fileDataDeserialize_decodes (h : p.Holds xs) (hlen : xs.length = len.toNat)
    (fd : FileDataPdu T) :
    Decodes (fileDataDeserialize (some p) len largeFileFlag segmentMetadataFlag (some fd))
      ((@FileDataItem.decode largeFileFlag segmentMetadataFlag xs).map
          fun x => (xs.length, some (x.view p))) := by
  have hwidth : (fileSizeOctets largeFileFlag).toNat < 256 := UInt8.toNat_lt _
  have hle := and_six_bits_le (xs.getD 0 0)
  rw [decode_map_view p xs rfl rfl]
  unfold fileDataDeserialize
  dsimp only
  -- without the flag the offset comes first
  by_cases hpresent : segmentMetadataFlag = CFDP_SEG_METADATA_PRESENT
  · have hk : FileDataItem.metadataLength segmentMetadataFlag xs =
        (xs.getD 0 0 &&& 0x3F).toNat + 1 := if_pos hpresent
    rw [if_pos hpresent, if_pos hpresent, hk]
    refine Decodes.bind (segmentMetadataRead_decodes h hlen _) ?_ ?_
    -- the metadata is cut off: the caller sees a position of 0
    · intro hnone fd'
      rw [ite_eq_right_iff] at hnone
      have hshort : ¬ (xs.getD 0 0 &&& 0x3F).toNat + 1 ≤ xs.length := fun hle => nomatch hnone hle
      rw [if_pos ⟨hpresent, rfl⟩, if_neg (by omega)]
      exact Decodes.refuse rfl
    · intro n fd' hsome
      obtain ⟨_, hval⟩ := Option.ite_none_right_eq_some.mp hsome
      rw [Option.some.injEq, Prod.mk.injEq] at hval
      obtain ⟨rfl, rfl⟩ := hval
      rw [if_neg (fun hzero => sz_ne_zero (by omega) (size_lt T (by omega)) hzero.2)]
      have hdecodes := offsetAndData_decodes h hlen (k := (xs.getD 0 0 &&& 0x3F).toNat + 1)
        (w := fileSizeOctets largeFileFlag) (by omega)
        { fd with
          recordContinuation := ((xs.getD 0 0 >>> 6) &&& 0x3).toUInt32
          segmentMetadataLen := xs.getD 0 0 &&& 0x3F
          segmentMetadata := spanAt p 1 (slice xs 1 (xs.getD 0 0 &&& 0x3F).toNat) }
      rw [Nat.add_sub_cancel, UInt8.ofNat_toNat]
      exact hdecodes
  · have hk : FileDataItem.metadataLength segmentMetadataFlag xs = 0 := if_neg hpresent
    rw [if_neg hpresent, if_neg hpresent, hk]
    change Decodes (if segmentMetadataFlag = CFDP_SEG_METADATA_PRESENT ∧ (sz 0 : Size T) = sz 0 then
      _ else _) _
    rw [if_neg (fun hand => hpresent hand.1)]
    exact offsetAndData_decodes h hlen (k := 0) (w := fileSizeOctets largeFileFlag) (by omega)
        { fd with
          recordContinuation := CFDP_RECORD_CONT_NEITHER
          segmentMetadataLen := 0
          segmentMetadata := none }

end Deserialise

end EmbeddedCfdp
