import EmbeddedCfdp.HeaderCodec

/-!
# The fixed header is transmitted faithfully

Every bit of the encoding is carried by one field: decoding an encoded header gives
its fields back (identifiers modulo their field width), and encoding a decoded header
gives the octets back, up to the two segment bits that a directive ignores.
-/

namespace EmbeddedCfdp

open CMemory

variable {T : Target}

/-! ### The flag octets -/

/-- A flag is a single bit. -/
def IsFlag (flag : CEnum) : Prop := flag ≤ 1

instance (flag : CEnum) : Decidable (IsFlag flag) := inferInstanceAs (Decidable (flag ≤ 1))

theorem IsFlag.exists_fin {flag : CEnum} (h : IsFlag flag) :
    ∃ b : Fin 2, flag = UInt32.ofNat b := by
  have hle : flag.toNat ≤ 1 := UInt32.le_iff_toNat_le.mp h
  refine ⟨⟨flag.toNat, by omega⟩, ?_⟩
  rw [UInt32.ofNat_toNat]

/-- A header with the only defined version, legal lengths and flags of one bit. -/
structure PduHeader.InRange (hdr : PduHeader) : Prop where
  version : hdr.version = CFDP_PROTOCOL_VERSION
  entityIdLength : idLenValid hdr.entityIdLength = true
  transactionSeqLength : idLenValid hdr.transactionSeqLength = true
  pduType : IsFlag hdr.pduType
  direction : IsFlag hdr.direction
  transmissionMode : IsFlag hdr.transmissionMode
  crcFlag : IsFlag hdr.crcFlag
  largeFileFlag : IsFlag hdr.largeFileFlag
  segmentationControl : IsFlag hdr.segmentationControl
  segmentMetadataFlag : IsFlag hdr.segmentMetadataFlag

theorem packOctet0_unpack (xs : List UInt8) (hdr : PduHeader) :
    packOctet0 (headerFlags xs hdr) = xs.getD 0 0 := by
  unfold packOctet0 headerFlags
  dsimp only
  generalize xs.getD 0 0 = o
  revert o
  refine BitFields.forall_octet ?_
  decide +kernel

/-- The type bit selects the mask. -/
theorem segmentFlagsMask_bit (o : UInt8) :
    segmentFlagsMask ((o >>> 4) &&& 0x1).toUInt32 = if o &&& 0x10 = 0 then 0 else 1 := by
  revert o
  refine BitFields.forall_octet ?_
  decide +kernel

theorem packOctet3_unpack (xs : List UInt8) (hdr : PduHeader) :
    packOctet3 (headerFlags xs hdr) =
      if xs.getD 0 0 &&& 0x10 = 0 then xs.getD 3 0 &&& 0x77 else xs.getD 3 0 := by
  unfold packOctet3 headerFlags
  dsimp only
  rw [segmentFlagsMask_bit]
  generalize xs.getD 3 0 = o
  -- file directives clear the two segment flags, file data keeps them
  by_cases htype : xs.getD 0 0 &&& 0x10 = 0
  · rw [if_pos htype, if_pos htype]
    revert o
    refine BitFields.forall_octet ?_
    decide +kernel
  · rw [if_neg htype, if_neg htype]
    revert o
    refine BitFields.forall_octet ?_
    decide +kernel

theorem unpack_packOctet0_bits (a b c d e : Fin 2) :
    let o : UInt8 := ((CFDP_PROTOCOL_VERSION &&& 0x7) <<< 5) |||
      (((UInt32.ofNat a).toUInt8 &&& 0x1) <<< 4) ||| (((UInt32.ofNat b).toUInt8 &&& 0x1) <<< 3) |||
      (((UInt32.ofNat c).toUInt8 &&& 0x1) <<< 2) ||| (((UInt32.ofNat d).toUInt8 &&& 0x1) <<< 1) |||
      ((UInt32.ofNat e).toUInt8 &&& 0x1)
    (o >>> 5) &&& 0x7 = CFDP_PROTOCOL_VERSION ∧ ((o >>> 4) &&& 0x1).toUInt32 = UInt32.ofNat a ∧
      ((o >>> 3) &&& 0x1).toUInt32 = UInt32.ofNat b ∧
      ((o >>> 2) &&& 0x1).toUInt32 = UInt32.ofNat c ∧
      ((o >>> 1) &&& 0x1).toUInt32 = UInt32.ofNat d ∧ (o &&& 0x1).toUInt32 = UInt32.ofNat e := by
  revert a b c d e
  decide +kernel

theorem unpack_packOctet0 {hdr : PduHeader} (h : hdr.InRange) :
    (packOctet0 hdr >>> 5) &&& 0x7 = CFDP_PROTOCOL_VERSION ∧
      ((packOctet0 hdr >>> 4) &&& 0x1).toUInt32 = hdr.pduType ∧
      ((packOctet0 hdr >>> 3) &&& 0x1).toUInt32 = hdr.direction ∧
      ((packOctet0 hdr >>> 2) &&& 0x1).toUInt32 = hdr.transmissionMode ∧
      ((packOctet0 hdr >>> 1) &&& 0x1).toUInt32 = hdr.crcFlag ∧
      (packOctet0 hdr &&& 0x1).toUInt32 = hdr.largeFileFlag := by
  obtain ⟨a, ha⟩ := h.pduType.exists_fin
  obtain ⟨b, hb⟩ := h.direction.exists_fin
  obtain ⟨c, hc⟩ := h.transmissionMode.exists_fin
  obtain ⟨d, hd⟩ := h.crcFlag.exists_fin
  obtain ⟨e, he⟩ := h.largeFileFlag.exists_fin
  rw [packOctet0, h.version, ha, hb, hc, hd, he]
  exact unpack_packOctet0_bits a b c d e

theorem unpack_packOctet3_bits (mask a b : Fin 2) (m n : Fin 8) :
    let mask := UInt8.ofNat mask
    let o : UInt8 := (((UInt32.ofNat a).toUInt8 &&& mask) <<< 7) |||
      (((UInt8.ofNat (m + 1) - 1) &&& 0x7) <<< 4) |||
      (((UInt32.ofNat b).toUInt8 &&& mask) <<< 3) ||| ((UInt8.ofNat (n + 1) - 1) &&& 0x7)
    ((o >>> 7) &&& mask).toUInt32 = UInt32.ofNat a &&& mask.toUInt32 ∧
      ((o >>> 4) &&& 0x7) + 1 = UInt8.ofNat (m + 1) ∧
      ((o >>> 3) &&& mask).toUInt32 = UInt32.ofNat b &&& mask.toUInt32 ∧
      (o &&& 0x7) + 1 = UInt8.ofNat (n + 1) := by
  revert mask a b m n
  decide +kernel

theorem idLenValid.exists_fin {len : UInt8} (h : idLenValid len = true) :
    ∃ n : Fin 8, len = UInt8.ofNat (n + 1) := by
  rw [idLenValid_iff] at h
  refine ⟨⟨len.toNat - 1, by omega⟩, ?_⟩
  have hsucc : len.toNat - 1 + 1 = len.toNat := by omega
  rw [hsucc, UInt8.ofNat_toNat]

theorem segmentFlagsMask_fin (pduType : PduType) :
    ∃ b : Fin 2, segmentFlagsMask pduType = UInt8.ofNat b := by
  unfold segmentFlagsMask
  by_cases h : pduType = CFDP_PDU_TYPE_FILE_DATA
  · exact ⟨1, if_pos h⟩
  · exact ⟨0, if_neg h⟩

theorem unpack_packOctet3 {hdr : PduHeader} (h : hdr.InRange) :
    let mask := segmentFlagsMask hdr.pduType
    ((packOctet3 hdr >>> 7) &&& mask).toUInt32 = hdr.segmentationControl &&& mask.toUInt32 ∧
      ((packOctet3 hdr >>> 4) &&& 0x7) + 1 = hdr.entityIdLength ∧
      ((packOctet3 hdr >>> 3) &&& mask).toUInt32 = hdr.segmentMetadataFlag &&& mask.toUInt32 ∧
      (packOctet3 hdr &&& 0x7) + 1 = hdr.transactionSeqLength := by
  obtain ⟨mask, hmask⟩ := segmentFlagsMask_fin hdr.pduType
  obtain ⟨a, ha⟩ := h.segmentationControl.exists_fin
  obtain ⟨b, hb⟩ := h.segmentMetadataFlag.exists_fin
  obtain ⟨m, hm⟩ := idLenValid.exists_fin h.entityIdLength
  obtain ⟨n, hn⟩ := idLenValid.exists_fin h.transactionSeqLength
  rw [packOctet3, hmask, ha, hb, hm, hn]
  exact unpack_packOctet3_bits mask a b m n

/-! ### Decoding an encoded header -/

/-- The header a receiver decodes: identifiers modulo their field width, and no segment
    flags on a directive. -/
def PduHeader.received (hdr : PduHeader) : PduHeader :=
  { hdr with
    sourceEntityId := UInt64.ofNat (hdr.sourceEntityId.toNat % 256 ^ hdr.entityIdLength.toNat)
    transactionSeqNumber :=
      UInt64.ofNat (hdr.transactionSeqNumber.toNat % 256 ^ hdr.transactionSeqLength.toNat)
    destinationEntityId :=
      UInt64.ofNat (hdr.destinationEntityId.toNat % 256 ^ hdr.entityIdLength.toNat)
    segmentationControl :=
      if hdr.pduType = CFDP_PDU_TYPE_DIRECTIVE then 0 else hdr.segmentationControl
    segmentMetadataFlag :=
      if hdr.pduType = CFDP_PDU_TYPE_DIRECTIVE then 0 else hdr.segmentMetadataFlag }

theorem IsFlag.masked {pduType : PduType} {flag : CEnum} (htype : IsFlag pduType)
    (hflag : IsFlag flag) : flag &&& (segmentFlagsMask pduType).toUInt32 =
      if pduType = CFDP_PDU_TYPE_DIRECTIVE then 0 else flag := by
  obtain ⟨a, rfl⟩ := htype.exists_fin
  obtain ⟨b, rfl⟩ := hflag.exists_fin
  clear htype hflag
  revert a b
  decide

theorem toUInt16_ofNat_decode_encode (v : UInt16) :
    (UInt64.ofNat (BigEndian.decode (BigEndian.encode 2 v.toNat))).toUInt16 = v := by
  have hv := v.toNat_lt
  apply UInt16.toNat_inj.mp
  rw [BigEndian.decode_encode, UInt64.toNat_toUInt16, UInt64.toNat_ofNat']
  omega

theorem headerFlags_headerOctets {hdr : PduHeader} (h : hdr.InRange) (z : List UInt8)
    (ids : PduHeader) :
    headerFlags (headerOctets hdr ++ z) ids = { hdr.received with
      sourceEntityId := ids.sourceEntityId
      transactionSeqNumber := ids.transactionSeqNumber
      destinationEntityId := ids.destinationEntityId } := by
  have h0 : (headerOctets hdr ++ z).getD 0 0 = packOctet0 hdr := rfl
  have h3 : (headerOctets hdr ++ z).getD 3 0 = packOctet3 hdr := rfl
  have hdfl : uintAt (headerOctets hdr ++ z) 1 2 =
      UInt64.ofNat (BigEndian.decode (BigEndian.encode 2 hdr.dataFieldLength.toNat)) := by
    rw [headerOctets, List.cons_append, List.append_assoc]
    exact @uintAt_append [packOctet0 hdr] _ _ 1 2 rfl (BigEndian.length_encode _ _).symm
  obtain ⟨hversion, htype, hdirection, hmode, hcrc, hlarge⟩ := unpack_packOctet0 h
  obtain ⟨hcontrol, hidLen, hmetadata, hseqLen⟩ := unpack_packOctet3 h
  rw [h.pduType.masked h.segmentationControl] at hcontrol
  rw [h.pduType.masked h.segmentMetadataFlag] at hmetadata
  -- field by field, what was packed is unpacked
  unfold headerFlags
  rw [h0, h3, hdfl]
  dsimp only
  rw [hversion, htype, hdirection, hmode, hcrc, hlarge, toUInt16_ofNat_decode_encode, hcontrol,
    hidLen, hmetadata, hseqLen, PduHeader.received, h.version]

theorem uintAt_headerOctets (hdr : PduHeader) (z : List UInt8) :
    uintAt (headerOctets hdr ++ z) 4 hdr.entityIdLength.toNat =
        UInt64.ofNat (hdr.sourceEntityId.toNat % 256 ^ hdr.entityIdLength.toNat) ∧
      uintAt (headerOctets hdr ++ z) (4 + hdr.entityIdLength.toNat)
          hdr.transactionSeqLength.toNat =
        UInt64.ofNat (hdr.transactionSeqNumber.toNat % 256 ^ hdr.transactionSeqLength.toNat) ∧
      uintAt (headerOctets hdr ++ z)
          (4 + hdr.entityIdLength.toNat + hdr.transactionSeqLength.toNat)
          hdr.entityIdLength.toNat =
        UInt64.ofNat (hdr.destinationEntityId.toNat % 256 ^ hdr.entityIdLength.toNat) := by
  have hparts : headerOctets hdr ++ z = (packOctet0 hdr ::
      (BigEndian.encode 2 hdr.dataFieldLength.toNat ++ [packOctet3 hdr])) ++
      (BigEndian.encode hdr.entityIdLength.toNat hdr.sourceEntityId.toNat ++
        (BigEndian.encode hdr.transactionSeqLength.toNat hdr.transactionSeqNumber.toNat ++
          (BigEndian.encode hdr.entityIdLength.toNat hdr.destinationEntityId.toNat ++ z))) := by
    simp only [headerOctets, List.cons_append, List.append_assoc, List.nil_append]
  have hfour : (packOctet0 hdr ::
      (BigEndian.encode 2 hdr.dataFieldLength.toNat ++ [packOctet3 hdr])).length = 4 := by
    simp only [List.length_cons, List.length_append, BigEndian.length_encode, List.length_nil]
  rw [← ofNat_decode_encode, ← ofNat_decode_encode, ← ofNat_decode_encode, hparts]
  refine ⟨uintAt_append hfour.symm (BigEndian.length_encode _ _).symm, ?_, ?_⟩
  · rw [← List.append_assoc]
    refine uintAt_append ?_ (BigEndian.length_encode _ _).symm
    rw [List.length_append, hfour, BigEndian.length_encode]
  · rw [← List.append_assoc, ← List.append_assoc]
    refine uintAt_append ?_ (BigEndian.length_encode _ _).symm
    rw [List.length_append, List.length_append, hfour, BigEndian.length_encode,
      BigEndian.length_encode]

theorem headerDecode_headerOctets {hdr : PduHeader} (h : hdr.InRange) (z : List UInt8) :
    headerDecode (headerOctets hdr ++ z) = some (headerLength hdr, hdr.received) := by
  have hflags := headerFlags_headerOctets h z default
  have hlength : headerLength (headerFlags (headerOctets hdr ++ z) default) =
      headerLength hdr := by rw [hflags]; rfl
  have htotal := length_headerOctets hdr
  have hbounds := headerLength_bounds h.entityIdLength h.transactionSeqLength
  have hat : HeaderAt (headerOctets hdr ++ z) := by
    refine ⟨?_, ?_, ?_⟩
    · rw [List.length_append]
      omega
    · rw [hflags]
      exact h.version
    · rw [hlength, List.length_append]
      omega
  rw [headerDecode, if_pos hat, hlength, hflags]
  obtain ⟨hsrc, hseq, hdest⟩ := uintAt_headerOctets hdr z
  rw [headerIds]
  dsimp only [PduHeader.received]
  rw [hsrc, hseq, hdest]

/-! ### Flags out of range -/

/-- The flags that go on the wire: one bit of each. -/
def PduHeader.onWire (hdr : PduHeader) : PduHeader :=
  { hdr with
    pduType := hdr.pduType &&& 1
    direction := hdr.direction &&& 1
    transmissionMode := hdr.transmissionMode &&& 1
    crcFlag := hdr.crcFlag &&& 1
    largeFileFlag := hdr.largeFileFlag &&& 1
    segmentationControl := hdr.segmentationControl &&& (segmentFlagsMask hdr.pduType).toUInt32
    segmentMetadataFlag := hdr.segmentMetadataFlag &&& (segmentFlagsMask hdr.pduType).toUInt32 }

theorem isFlag_and_of_le {mask : UInt32} (hmask : mask ≤ 1) (flag : CEnum) :
    IsFlag (flag &&& mask) := by
  rw [IsFlag, UInt32.le_iff_toNat_le, UInt32.toNat_and]
  exact Nat.le_trans Nat.and_le_right (UInt32.le_iff_toNat_le.mp hmask)

theorem segmentFlagsMask_le (pduType : PduType) : (segmentFlagsMask pduType).toUInt32 ≤ 1 := by
  unfold segmentFlagsMask
  by_cases h : pduType = CFDP_PDU_TYPE_FILE_DATA
  · rw [if_pos h]
    decide
  · rw [if_neg h]
    decide

theorem PduHeader.onWire_inRange {hdr : PduHeader} (hversion : hdr.version = CFDP_PROTOCOL_VERSION)
    (hid : idLenValid hdr.entityIdLength = true)
    (hseq : idLenValid hdr.transactionSeqLength = true) : hdr.onWire.InRange := by
  have hone : (1 : UInt32) ≤ 1 := by decide
  have hmask := segmentFlagsMask_le hdr.pduType
  constructor
  · exact hversion
  · exact hid
  · exact hseq
  · exact isFlag_and_of_le hone _
  · exact isFlag_and_of_le hone _
  · exact isFlag_and_of_le hone _
  · exact isFlag_and_of_le hone _
  · exact isFlag_and_of_le hone _
  · exact isFlag_and_of_le hmask _
  · exact isFlag_and_of_le hmask _

theorem toUInt8_and_one (flag : CEnum) : (flag &&& 1).toUInt8 &&& 1 = flag.toUInt8 &&& 1 := by
  rw [UInt32.toUInt8_and]
  change flag.toUInt8 &&& 1 &&& 1 = _
  rw [UInt8.and_assoc, UInt8.and_self]

/-- The mask that the receiver applies to a segment flag keeps what the sender's has left. -/
theorem toUInt8_and_segmentFlagsMask (pduType : PduType) (flag : CEnum) :
    (flag &&& (segmentFlagsMask pduType).toUInt32).toUInt8 &&& segmentFlagsMask (pduType &&& 1) =
      flag.toUInt8 &&& segmentFlagsMask pduType := by
  rw [UInt32.toUInt8_and, UInt8.toUInt8_toUInt32]
  unfold segmentFlagsMask
  by_cases h : pduType = CFDP_PDU_TYPE_FILE_DATA
  · subst h
    rw [if_pos rfl, if_pos (by decide), UInt8.and_assoc, UInt8.and_self]
  · rw [if_neg h, UInt8.and_zero, UInt8.zero_and]

theorem headerOctets_onWire (hdr : PduHeader) : headerOctets hdr.onWire = headerOctets hdr := by
  have h0 : packOctet0 hdr.onWire = packOctet0 hdr := by
    unfold packOctet0 PduHeader.onWire
    dsimp only
    rw [toUInt8_and_one, toUInt8_and_one, toUInt8_and_one, toUInt8_and_one, toUInt8_and_one]
  have h3 : packOctet3 hdr.onWire = packOctet3 hdr := by
    unfold packOctet3 PduHeader.onWire
    dsimp only
    rw [toUInt8_and_segmentFlagsMask, toUInt8_and_segmentFlagsMask]
  rw [headerOctets, h0, h3, headerOctets]
  rfl

/-- Whatever header is accepted for encoding, its octets are a header. -/
theorem headerDecode_encoding {hdr : PduHeader} {e : List UInt8}
    (h : headerEncoding hdr = some e) :
    headerDecode e = some (e.length, hdr.onWire.received) := by
  obtain ⟨⟨hversion, hid, hseq⟩, he⟩ := Option.ite_none_right_eq_some.mp h
  have hdecode := headerDecode_headerOctets (PduHeader.onWire_inRange hversion hid hseq) []
  rw [List.append_nil, headerOctets_onWire, Option.some.inj he] at hdecode
  rw [hdecode, ← Option.some.inj he, length_headerOctets]
  rfl

/-! ### Round trips -/

/-- The call on a header every field of which fits. -/
theorem pduHeaderSerialize_run {hdr : PduHeader} (h : hdr.InRange) {i : Nat} {len : Size T}
    {m : Object} (hext : i + len.toNat ≤ m.extent) (hle : headerLength hdr ≤ len.toNat) :
    pduHeaderSerialize (some hdr) (some i) len m =
      .ok (sz (headerLength hdr), m.place i (headerOctets hdr)) := by
  have henc : headerEncoding hdr = some (headerOctets hdr) :=
    if_pos ⟨h.version, h.entityIdLength, h.transactionSeqLength⟩
  have hlength : (headerOctets hdr).length = headerLength hdr := length_headerOctets hdr
  have hencodes := pduHeaderSerialize_encodes (T := T) hdr
  rw [henc] at hencodes
  rw [hencodes.writes hext (by rwa [hlength]), hlength]

/-- **Main result.** A header in range is written as octets that every receiver decodes
    to that header, whatever follows them. -/
theorem pduHeader_decode_encode {hdr : PduHeader} (h : hdr.InRange) :
    ∃ e : List UInt8,
      e.length = 4 + 2 * hdr.entityIdLength.toNat + hdr.transactionSeqLength.toNat ∧
      (∀ (i : Nat) (len : Size T) (m : Object), i + len.toNat ≤ m.extent →
        e.length ≤ len.toNat →
        pduHeaderSerialize (some hdr) (some i) len m = .ok (sz e.length, m.place i e)) ∧
      (∀ (p : Ptr) (z : List UInt8) (len : Size T) (old : PduHeader), p.Holds (e ++ z) →
        (e ++ z).length = len.toNat →
        pduHeaderDeserialize (some p) len (some old) = .ok (sz e.length, some hdr.received)) := by
  refine ⟨headerOctets hdr, length_headerOctets hdr, ?_, ?_⟩
  · intro i len m hext hle
    rw [length_headerOctets] at hle ⊢
    exact pduHeaderSerialize_run h hext hle
  · intro p z len old hp hlen
    rw [length_headerOctets]
    exact pduHeaderDeserialize_run hp hlen (headerDecode_headerOctets h z) old

/-- A File Data header whose source ID is wider than its two-octet field. -/
def sampleHeader : PduHeader :=
  { version := 1, pduType := CFDP_PDU_TYPE_FILE_DATA, direction := 0, transmissionMode := 1,
    crcFlag := CFDP_CRC_PRESENT, largeFileFlag := 0, dataFieldLength := 7,
    segmentationControl := 1, segmentMetadataFlag := 1, entityIdLength := 2,
    transactionSeqLength := 1, sourceEntityId := 0x10203, transactionSeqNumber := 9,
    destinationEntityId := 4 }

theorem sampleHeader_inRange : sampleHeader.InRange := by
  constructor <;> decide

theorem pduHeader_decode_encode_sample :
    sampleHeader.received = { sampleHeader with sourceEntityId := 0x203 } ∧
    ∃ e : List UInt8, e.length = 4 + 2 * 2 + 1 ∧
      (∀ (i : Nat) (len : Size .checked32) (m : Object), i + len.toNat ≤ m.extent →
        e.length ≤ len.toNat →
        pduHeaderSerialize (some sampleHeader) (some i) len m =
          .ok (sz e.length, m.place i e)) ∧
      (∀ (p : Ptr) (z : List UInt8) (len : Size .checked32) (old : PduHeader),
        p.Holds (e ++ z) → (e ++ z).length = len.toNat →
        pduHeaderDeserialize (some p) len (some old) =
          .ok (sz e.length, some sampleHeader.received)) :=
  ⟨by decide +kernel, pduHeader_decode_encode sampleHeader_inRange⟩

/-! ### Encoding a decoded header -/

/-- The octets of a header with the bits cleared that are ignored in a directive. -/
def ignoredCleared (b : List UInt8) : List UInt8 :=
  if b.getD 0 0 &&& 0x10 = 0 then b.modify 3 (· &&& 0x77) else b

theorem toUInt16_uintAt_two {xs : List UInt8} {k : Nat} (hk : k + 2 ≤ xs.length) :
    BigEndian.encode 2 (uintAt xs k 2).toUInt16.toNat = slice xs k 2 := by
  have hlen := length_slice hk
  have hlt := BigEndian.decode_lt (slice xs k 2)
  have hval : (uintAt xs k 2).toUInt16.toNat = (uintAt xs k 2).toNat := by
    rw [hlen] at hlt
    rw [UInt64.toNat_toUInt16, uintAt, toNat_ofNat_decode (by omega)]
    omega
  rw [hval, encode_uintAt hk (by norm_num)]

theorem headerOctets_of_decode {xs : List UInt8} (hat : HeaderAt xs) :
    headerOctets (headerIds xs (headerFlags xs default)) =
      ignoredCleared (xs.take (headerLength (headerFlags xs default))) := by
  obtain ⟨hid, hseq⟩ := headerFlags_valid xs default
  rw [idLenValid_iff] at hid hseq
  have h0 := packOctet0_unpack xs default
  have h3 := packOctet3_unpack xs default
  have hfixed := hat.fixed
  have hcomplete := hat.complete
  unfold headerLength at hcomplete ⊢
  generalize hhdr : headerFlags xs default = hdr at *
  have hlength : hdr.dataFieldLength = (uintAt xs 1 2).toUInt16 := by rw [← hhdr]; rfl
  have hids : BigEndian.encode hdr.entityIdLength.toNat (uintAt xs 4
          hdr.entityIdLength.toNat).toNat ++
        (BigEndian.encode hdr.transactionSeqLength.toNat
            (uintAt xs (4 + hdr.entityIdLength.toNat) hdr.transactionSeqLength.toNat).toNat ++
          BigEndian.encode hdr.entityIdLength.toNat (uintAt xs (4 + hdr.entityIdLength.toNat +
            hdr.transactionSeqLength.toNat) hdr.entityIdLength.toNat).toNat) =
      slice xs 4 (2 * hdr.entityIdLength.toNat + hdr.transactionSeqLength.toNat) := by
    rw [encode_uintAt (by omega) (by omega), encode_uintAt (by omega) (by omega),
      encode_uintAt (by omega) (by omega), ← List.append_assoc, slice_append_slice,
      Nat.add_assoc 4, slice_append_slice]
    congr 1
    omega
  have hoctets : headerOctets (headerIds xs hdr) = packOctet0 hdr ::
      (BigEndian.encode 2 hdr.dataFieldLength.toNat ++ packOctet3 hdr ::
        slice xs 4 (2 * hdr.entityIdLength.toNat + hdr.transactionSeqLength.toNat)) := by
    rw [← hids]
    rfl
  rw [hoctets, hlength, toUInt16_uintAt_two (by omega), h0, h3]
  -- the two ignored bits of octet 3 are cleared in a file directive only
  match xs with
  | o0 :: l1 :: l2 :: o3 :: ids =>
    have htake : 4 + 2 * hdr.entityIdLength.toNat + hdr.transactionSeqLength.toNat =
        2 * hdr.entityIdLength.toNat + hdr.transactionSeqLength.toNat + 4 := by omega
    rw [htake]
    by_cases htype : o0 &&& 0x10 = 0
    · simp [ignoredCleared, slice, htype]
    · simp [ignoredCleared, slice, htype]

theorem headerEncoding_of_decode {xs : List UInt8} {n : Nat} {hdr : PduHeader}
    (h : headerDecode xs = some (n, hdr)) :
    headerEncoding hdr = some (ignoredCleared (xs.take n)) := by
  obtain ⟨hat, heq⟩ := Option.ite_none_right_eq_some.mp h
  rw [Option.some.injEq, Prod.mk.injEq] at heq
  obtain ⟨rfl, rfl⟩ := heq
  obtain ⟨hid, hseq⟩ := headerFlags_valid xs default
  rw [headerEncoding, if_pos ⟨hat.version, hid, hseq⟩, headerOctets_of_decode hat]

theorem headerDecode_of_run {p : Ptr} {xs : List UInt8} {len n : Size T} {old hdr : PduHeader}
    (h : p.Holds xs) (hlen : xs.length = len.toNat)
    (hrun : pduHeaderDeserialize (some p) len (some old) = .ok (n, some hdr)) (hn : n ≠ sz 0) :
    headerDecode xs = some (n.toNat, hdr) := by
  have hdecodes := pduHeaderDeserialize_decodes h (Nat.le_of_eq hlen) (by omega) old
  obtain ⟨⟨k, hdr'⟩, hdec, rfl, heq⟩ := hdecodes.of_run hrun hn
  rw [Option.some.injEq] at heq
  subst heq
  obtain ⟨hat, hval⟩ := Option.ite_none_right_eq_some.mp hdec
  rw [Option.some.injEq, Prod.mk.injEq] at hval
  have hcomplete := hat.complete
  have hlt := len.isLt
  rw [hdec, toNat_sz (by dsimp only; omega)]

theorem length_ignoredCleared (b : List UInt8) : (ignoredCleared b).length = b.length := by
  unfold ignoredCleared
  by_cases h : b.getD 0 0 &&& 0x10 = 0
  · rw [if_pos h, List.length_modify]
  · rw [if_neg h]

theorem length_of_headerDecode {xs : List UInt8} {n : Nat} {hdr : PduHeader}
    (h : headerDecode xs = some (n, hdr)) : 7 ≤ n ∧ n ≤ 28 ∧ n ≤ xs.length := by
  obtain ⟨hat, heq⟩ := Option.ite_none_right_eq_some.mp h
  rw [Option.some.injEq, Prod.mk.injEq] at heq
  obtain ⟨hid, hseq⟩ := headerFlags_valid xs default
  have hbounds := headerLength_bounds hid hseq
  have hcomplete := hat.complete
  omega

/-- The header depends on its own octets only. -/
theorem headerDecode_of_agree {xs ys : List UInt8} {n : Nat} {hdr : PduHeader}
    (h : headerDecode xs = some (n, hdr)) (hagree : ys.take n = xs.take n) :
    headerDecode ys = some (n, hdr) := by
  obtain ⟨hseven, _, hle⟩ := length_of_headerDecode h
  obtain ⟨hat, hval⟩ := Option.ite_none_right_eq_some.mp h
  rw [Option.some.injEq, Prod.mk.injEq] at hval
  obtain ⟨rfl, rfl⟩ := hval
  have hlength : headerLength (headerFlags xs default) ≤ ys.length := by
    have htake := congrArg List.length hagree
    rw [List.length_take, List.length_take] at htake
    omega
  -- nothing is read behind the header
  have hflags : headerFlags ys default = headerFlags xs default := by
    rw [headerFlags, headerFlags, uintAt, uintAt, getD_of_agree hagree (by omega),
      getD_of_agree hagree (by omega), slice_of_agree hagree (by omega)]
  have hids : headerIds ys (headerFlags xs default) = headerIds xs (headerFlags xs default) := by
    unfold headerLength at hagree
    unfold headerIds
    dsimp only
    rw [uintAt, uintAt, uintAt, slice_of_agree hagree (by omega), slice_of_agree hagree (by omega),
      slice_of_agree hagree (by omega)]
    rfl
  have hat' : HeaderAt ys := by
    refine ⟨by omega, ?_, ?_⟩
    · rw [hflags]
      exact hat.version
    · rw [hflags]
      exact hlength
  rw [headerDecode, if_pos hat', hflags, hids]

/-- **Main result.** A header that was decoded is written as the octets it was decoded
    from, up to the bits a directive ignores; so those octets are determined by it. -/
theorem pduHeader_encode_decode {p : Ptr} {xs : List UInt8} {len n : Size T}
    {old hdr : PduHeader} (h : p.Holds xs) (hlen : xs.length = len.toNat)
    (hrun : pduHeaderDeserialize (some p) len (some old) = .ok (n, some hdr)) (hn : n ≠ sz 0) :
    (∀ (i : Nat) (cap : Size T) (m : Object), i + cap.toNat ≤ m.extent →
      n.toNat ≤ cap.toNat → pduHeaderSerialize (some hdr) (some i) cap m =
        .ok (n, m.place i (ignoredCleared (xs.take n.toNat)))) ∧
    (∀ (q : Ptr) (ys : List UInt8) (len' n' : Size T) (old' : PduHeader), q.Holds ys →
      ys.length = len'.toNat →
      pduHeaderDeserialize (some q) len' (some old') = .ok (n', some hdr) → n' ≠ sz 0 →
      ignoredCleared (ys.take n'.toNat) = ignoredCleared (xs.take n.toNat)) := by
  have hdec := headerDecode_of_run h hlen hrun hn
  have henc := headerEncoding_of_decode hdec
  obtain ⟨_, _, hroom⟩ := length_of_headerDecode hdec
  have hlength : (ignoredCleared (xs.take n.toNat)).length = n.toNat := by
    rw [length_ignoredCleared, List.length_take_of_le hroom]
  constructor
  · intro i cap m hext hle
    have hencodes := pduHeaderSerialize_encodes (T := T) hdr
    rw [henc] at hencodes
    have hwrites := hencodes.writes hext (by omega)
    rwa [hlength, sz_toNat] at hwrites
  -- two headers that decode alike are encoded alike
  · intro q ys len' n' old' hq hlen' hrun' hn'
    have henc' := headerEncoding_of_decode (headerDecode_of_run hq hlen' hrun' hn')
    rw [henc, Option.some.injEq] at henc'
    exact henc'.symm

/-- A directive with both segment bits set, and an octet behind the header. -/
def sampleDirective : List UInt8 := [0x22, 0x00, 0x05, 0x88, 7, 8, 9, 0x04]

def sampleDirectiveHeader : PduHeader :=
  { version := 1, pduType := CFDP_PDU_TYPE_DIRECTIVE, direction := 0, transmissionMode := 0,
    crcFlag := CFDP_CRC_PRESENT, largeFileFlag := 0, dataFieldLength := 5,
    segmentationControl := 0, segmentMetadataFlag := 0, entityIdLength := 1,
    transactionSeqLength := 1, sourceEntityId := 7, transactionSeqNumber := 8,
    destinationEntityId := 9 }

theorem pduHeader_encode_decode_sample :
    pduHeaderDeserialize (some ⟨Object.full sampleDirective, 0⟩) (sz 8 : Size .checked32)
      (some default) = .ok (sz 7, some sampleDirectiveHeader) ∧
    ∀ (i : Nat) (cap : Size .checked32) (m : Object), i + cap.toNat ≤ m.extent →
      7 ≤ cap.toNat → pduHeaderSerialize (some sampleDirectiveHeader) (some i) cap m =
        .ok (sz 7, m.place i [0x22, 0x00, 0x05, 0x00, 7, 8, 9]) := by
  have hholds := Object.holds_whole sampleDirective
  have hrun : pduHeaderDeserialize (some ⟨Object.full sampleDirective, 0⟩)
      (sz 8 : Size .checked32) (some default) = .ok (sz 7, some sampleDirectiveHeader) := rfl
  exact ⟨hrun, (pduHeader_encode_decode hholds rfl hrun (by decide)).1⟩

end EmbeddedCfdp
