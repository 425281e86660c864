import EmbeddedCfdp.BitFields
import EmbeddedCfdp.Pdu

/-!
# The fixed header

The octets of a header and the header that an octet string starts with, as pure
functions, and that the serialiser and the deserialiser of the library compute them.
-/

namespace EmbeddedCfdp

open CMemory

variable {T : Target}

/-! ### Encoding -/

def headerOctets (hdr : PduHeader) : List UInt8 :=
  packOctet0 hdr :: (BigEndian.encode 2 hdr.dataFieldLength.toNat ++ packOctet3 hdr ::
    (BigEndian.encode hdr.entityIdLength.toNat hdr.sourceEntityId.toNat ++
      (BigEndian.encode hdr.transactionSeqLength.toNat hdr.transactionSeqNumber.toNat ++
        BigEndian.encode hdr.entityIdLength.toNat hdr.destinationEntityId.toNat)))

/-- What the library accepts for encoding. -/
def headerEncoding (hdr : PduHeader) : Option (List UInt8) :=
  if hdr.version = CFDP_PROTOCOL_VERSION ∧ idLenValid hdr.entityIdLength = true ∧
      idLenValid hdr.transactionSeqLength = true then
    some (headerOctets hdr)
  else none

/-- `cfdp_pdu_header_size` of a header with legal identifier lengths. -/
def headerLength (hdr : PduHeader) : Nat :=
  4 + 2 * hdr.entityIdLength.toNat + hdr.transactionSeqLength.toNat

theorem length_headerOctets (hdr : PduHeader) :
    (headerOctets hdr).length = headerLength hdr := by
  simp only [headerOctets, headerLength, List.length_cons, List.length_append,
    BigEndian.length_encode]
  omega

theorem idLenValid_iff {len : UInt8} :
    idLenValid len = true ↔ 1 ≤ len.toNat ∧ len.toNat ≤ 8 := by
  have hmin : CFDP_ID_LEN_MIN ≤ len ↔ 1 ≤ len.toNat := UInt8.le_iff_toNat_le
  have hmax : len ≤ CFDP_ID_LEN_MAX ↔ len.toNat ≤ 8 := UInt8.le_iff_toNat_le
  rw [idLenValid, Bool.and_eq_true, decide_eq_true_eq, decide_eq_true_eq, hmin, hmax]

theorem pduHeaderSize_valid {hdr : PduHeader} (hid : idLenValid hdr.entityIdLength = true)
    (hseq : idLenValid hdr.transactionSeqLength = true) :
    pduHeaderSize (some hdr) = (sz (headerLength hdr) : Size T) := by
  rw [pduHeaderSize, if_neg (by simp [hid, hseq]), sz_add, sz_add]
  rfl

theorem headerLength_bounds {hdr : PduHeader} (hid : idLenValid hdr.entityIdLength = true)
    (hseq : idLenValid hdr.transactionSeqLength = true) :
    7 ≤ headerLength hdr ∧ headerLength hdr ≤ 28 := by
  rw [idLenValid_iff] at hid hseq
  unfold headerLength
  omega

theorem pduHeaderSerialize_encodes (hdr : PduHeader) :
    Encodes (T := T) (fun i n => pduHeaderSerialize (some hdr) (some i) n)
      (headerEncoding hdr) := by
  constructor
  · intro e he
    obtain ⟨_, hoctets⟩ := Option.ite_none_right_eq_some.mp he
    rw [← Option.some.inj hoctets]
    exact List.cons_ne_nil _ _
  · intro i len m hext
    unfold pduHeaderSerialize
    refine Outcome.guard_start ?_ fun hversion => Outcome.guard_start ?_ fun hpass => ?_
    -- refused for the version, for the widths, or for want of room
    · rintro hversion e he
      obtain ⟨hvalid, _⟩ := Option.ite_none_right_eq_some.mp he
      exact (hversion hvalid.1).elim
    · rintro hrefuse e he
      obtain ⟨⟨_, hid, hseq⟩, hoctets⟩ := Option.ite_none_right_eq_some.mp he
      have hbounds := headerLength_bounds hid hseq
      rw [pduHeaderSize_valid hid hseq] at hrefuse
      rcases hrefuse with hzero | hshort
      · exact (sz_ne_zero (by omega) (size_lt T (by omega)) hzero).elim
      · rw [lt_sz_iff (size_lt T (by omega))] at hshort
        rwa [← Option.some.inj hoctets, length_headerOctets]
    · rw [not_not] at hversion
      by_cases hvalid : idLenValid hdr.entityIdLength = true ∧
          idLenValid hdr.transactionSeqLength = true
      · obtain ⟨hid, hseq⟩ := hvalid
        have hbounds := headerLength_bounds hid hseq
        have hid' := idLenValid_iff.mp hid
        have hseq' := idLenValid_iff.mp hseq
        rw [pduHeaderSize_valid hid hseq, not_or, lt_sz_iff (size_lt T (by omega))] at hpass
        have hfixed : (sz CFDP_PDU_HEADER_FIXED_LEN : Size T).toNat = 4 :=
          toNat_sz_small (by decide)
        have hseqpos : (sz (CFDP_PDU_HEADER_FIXED_LEN + hdr.entityIdLength.toNat) :
            Size T).toNat = 4 + hdr.entityIdLength.toNat :=
          toNat_sz_small (by unfold CFDP_PDU_HEADER_FIXED_LEN; omega)
        have hdestpos : (sz (CFDP_PDU_HEADER_FIXED_LEN + hdr.entityIdLength.toNat +
            hdr.transactionSeqLength.toNat) : Size T).toNat =
            4 + hdr.entityIdLength.toNat + hdr.transactionSeqLength.toNat :=
          toNat_sz_small (by unfold CFDP_PDU_HEADER_FIXED_LEN; omega)
        rw [pduHeaderSize_valid hid hseq]
        dsimp only
        rw [sz_add, sz_add, hfixed, hseqpos, hdestpos]
        -- the four fixed octets, then source, sequence number and destination
        refine Outcome.of_puts (e := headerOctets hdr) (Puts.congr (Puts.bind (Puts.store i _)
          (Puts.bind (writeUint_puts (i + 1) _ _) (Puts.bind (Puts.store (i + 3) _)
            (Puts.bind (writeUint_puts _ _ _) (Puts.bind (writeUint_puts _ _ _)
              (Puts.bind (writeUint_puts _ _ _) (Puts.pure _ _) rfl) ?_) ?_) rfl) ?_) rfl)
          ?_ ?_) ?_ ?_ hext
        · rw [BigEndian.length_encode]
          omega
        · rw [BigEndian.length_encode]
          omega
        · rw [BigEndian.length_encode]
          rfl
        · rw [headerOctets, List.append_nil]
          rfl
        · rw [length_headerOctets]
        · exact if_pos ⟨hversion, hid, hseq⟩
        · rw [length_headerOctets]
          omega
      -- cfdp_pdu_header_size has returned 0, which the guard has excluded
      · have hinvalid : ¬ idLenValid hdr.entityIdLength = true ∨
            ¬ idLenValid hdr.transactionSeqLength = true := not_and_or.mp hvalid
        rw [pduHeaderSize, if_pos hinvalid] at hpass
        exact (hpass (Or.inl rfl)).elim

/-! ### Decoding -/

/-- The fields in the first four octets; the identifiers are those of `hdr`. -/
def headerFlags (xs : List UInt8) (hdr : PduHeader) : PduHeader :=
  let o0 := xs.getD 0 0
  let o3 := xs.getD 3 0
  let pduType : PduType := ((o0 >>> 4) &&& 0x1).toUInt32
  { hdr with
    version := (o0 >>> 5) &&& 0x7
    pduType := pduType
    direction := ((o0 >>> 3) &&& 0x1).toUInt32
    transmissionMode := ((o0 >>> 2) &&& 0x1).toUInt32
    crcFlag := ((o0 >>> 1) &&& 0x1).toUInt32
    largeFileFlag := (o0 &&& 0x1).toUInt32
    dataFieldLength := (uintAt xs 1 2).toUInt16
    segmentationControl := ((o3 >>> 7) &&& segmentFlagsMask pduType).toUInt32
    entityIdLength := ((o3 >>> 4) &&& 0x7) + 1
    segmentMetadataFlag := ((o3 >>> 3) &&& segmentFlagsMask pduType).toUInt32
    transactionSeqLength := (o3 &&& 0x7) + 1 }

/-- The three identifiers, for a header whose other fields are known. -/
def headerIds (xs : List UInt8) (hdr : PduHeader) : PduHeader :=
  let idLen := hdr.entityIdLength.toNat
  let seqLen := hdr.transactionSeqLength.toNat
  { hdr with
    sourceEntityId := uintAt xs 4 idLen
    transactionSeqNumber := uintAt xs (4 + idLen) seqLen
    destinationEntityId := uintAt xs (4 + idLen + seqLen) idLen }

structure HeaderAt (xs : List UInt8) : Prop where
  fixed : 4 ≤ xs.length
  version : (headerFlags xs default).version = CFDP_PROTOCOL_VERSION
  complete : headerLength (headerFlags xs default) ≤ xs.length

instance (xs : List UInt8) : Decidable (HeaderAt xs) :=
  decidable_of_iff (4 ≤ xs.length ∧ (headerFlags xs default).version = CFDP_PROTOCOL_VERSION ∧
      headerLength (headerFlags xs default) ≤ xs.length)
    ⟨fun h => ⟨h.1, h.2.1, h.2.2⟩, fun h => ⟨h.fixed, h.version, h.complete⟩⟩

/-- The length of the header that the string starts with, and the header. -/
def headerDecode (xs : List UInt8) : Option (Nat × PduHeader) :=
  if HeaderAt xs then
    some (headerLength (headerFlags xs default), headerIds xs (headerFlags xs default))
  else none

theorem unpackFlags_eq {p : Ptr} {xs : List UInt8} (h : p.Holds xs) (hlen : 4 ≤ xs.length)
    (hdr : PduHeader) : unpackFlags p hdr = .ok (headerFlags xs hdr) := by
  unfold unpackFlags
  rw [h.load_getD (by omega), ok_bind, h.load_getD (by omega), ok_bind]
  dsimp only
  rw [readUint_add h (by change 1 + 2 ≤ _; omega), ok_bind]
  rfl

/-- Count-minus-one fields of three bits always give legal lengths. -/
theorem idLenValid_count (b : UInt8) : idLenValid ((b &&& 0x7) + 1) = true := by
  refine BitFields.forall_octet (P := fun b => idLenValid ((b &&& 0x7) + 1) = true) ?_ b
  decide +kernel

theorem headerFlags_valid (xs : List UInt8) (hdr : PduHeader) :
    idLenValid (headerFlags xs hdr).entityIdLength = true ∧
      idLenValid (headerFlags xs hdr).transactionSeqLength = true :=
  ⟨idLenValid_count _, idLenValid_count _⟩

/-- Only the octets a header can have need to be readable. -/
theorem pduHeaderDeserialize_decodes {p : Ptr} {xs : List UInt8} {len : Size T}
    (h : p.Holds xs) (hle : xs.length ≤ len.toNat) (hmin : min len.toNat 28 ≤ xs.length)
    (hdr : PduHeader) :
    Decodes (pduHeaderDeserialize (some p) len (some hdr))
      ((headerDecode xs).map fun r => (r.1, some r.2)) := by
  obtain ⟨hid, hseq⟩ := headerFlags_valid xs hdr
  have hbounds := headerLength_bounds hid hseq
  have hlength : headerLength (headerFlags xs hdr) = headerLength (headerFlags xs default) := rfl
  have hid' := idLenValid_iff.mp hid
  have hseq' := idLenValid_iff.mp hseq
  unfold pduHeaderDeserialize
  -- fewer than four octets are no header
  refine Decodes.guard ?_ fun hfour => ?_
  · intro hshort
    rw [lt_sz_iff (size_lt T (by decide)), CFDP_PDU_HEADER_FIXED_LEN] at hshort
    have hnone : headerDecode xs = none := if_neg fun hat => by have := hat.fixed; omega
    rw [hnone, Option.map_none]
  · rw [lt_sz_iff (size_lt T (by decide)), CFDP_PDU_HEADER_FIXED_LEN] at hfour
    rw [unpackFlags_eq h (by omega), ok_bind]
    refine Decodes.guard ?_ fun hversion => Decodes.guard ?_ fun hsize => ?_
    · intro hversion
      have hnone : headerDecode xs = none := if_neg fun hat => hversion hat.version
      rw [hnone, Option.map_none]
    · rw [pduHeaderSize_valid hid hseq, lt_sz_iff (size_lt T (by omega))]
      -- the widths that were read are valid, so only the length can be short
      rintro (hzero | hshort)
      · exact (sz_ne_zero (by omega) (size_lt T (by omega)) hzero).elim
      · have hnone : headerDecode xs = none := if_neg fun hat => by have := hat.complete; omega
        rw [hnone, Option.map_none]
    · rw [pduHeaderSize_valid hid hseq, not_or, lt_sz_iff (size_lt T (by omega))] at hsize
      have hroom : headerLength (headerFlags xs hdr) ≤ xs.length := by omega
      have hsome : headerDecode xs = some (headerLength (headerFlags xs default),
          headerIds xs (headerFlags xs default)) :=
        if_pos ⟨by omega, not_not.mp hversion, by omega⟩
      unfold headerLength at hroom
      have hfixed : (sz CFDP_PDU_HEADER_FIXED_LEN : Size T).toNat = 4 := toNat_sz_small (by decide)
      have hseqpos : (sz (CFDP_PDU_HEADER_FIXED_LEN +
          (headerFlags xs hdr).entityIdLength.toNat) : Size T).toNat =
          4 + (headerFlags xs hdr).entityIdLength.toNat :=
        toNat_sz_small (by unfold CFDP_PDU_HEADER_FIXED_LEN; omega)
      have hdestpos : (sz (CFDP_PDU_HEADER_FIXED_LEN +
          (headerFlags xs hdr).entityIdLength.toNat +
          (headerFlags xs hdr).transactionSeqLength.toNat) : Size T).toNat =
          4 + (headerFlags xs hdr).entityIdLength.toNat +
            (headerFlags xs hdr).transactionSeqLength.toNat :=
        toNat_sz_small (by unfold CFDP_PDU_HEADER_FIXED_LEN; omega)
      rw [pduHeaderSize_valid hid hseq]
      dsimp only
      rw [sz_add, sz_add, hfixed, hseqpos, hdestpos, readUint_add h (by omega), ok_bind,
        readUint_add h (by omega), ok_bind, readUint_add h (by omega), ok_bind]
      refine Decodes.accept ?_
      rw [hsome]
      rfl

/-- The call on a string that starts with a header. -/
theorem pduHeaderDeserialize_run {p : Ptr} {xs : List UInt8} {len : Size T} {n : Nat}
    {hdr : PduHeader} (h : p.Holds xs) (hlen : xs.length = len.toNat)
    (hdec : headerDecode xs = some (n, hdr)) (old : PduHeader) :
    pduHeaderDeserialize (some p) len (some old) = .ok (sz n, some hdr) := by
  have hdecodes := pduHeaderDeserialize_decodes h (Nat.le_of_eq hlen) (by omega) old
  apply hdecodes.accepts
  rw [hdec, Option.map_some]

end EmbeddedCfdp
