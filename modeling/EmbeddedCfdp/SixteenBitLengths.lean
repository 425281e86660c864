import EmbeddedCfdp.MetadataRoundTrip
import EmbeddedCfdp.FinishedOutputs

/-!
# Lengths kept in sixteen bits

`cfdp_metadata_deserialize` and `cfdp_finished_deserialize` take a data field of any
`size_t` length and keep the number of option or response octets in a `uint16_t`.  The
number is right as long as there are at most 65535 of these octets; a data field with
more of them is accepted as well, with the number modulo 65536.
-/

namespace EmbeddedCfdp

open CMemory

variable {T : Target} {p : Ptr} {xs : List UInt8} {len : Size T} {largeFileFlag : LargeFileFlag}

theorem toNat_ofNat16_eq_iff (n : Nat) : (UInt16.ofNat n).toNat = n ↔ n ≤ 65535 := by
  rw [UInt16.toNat_ofNat']
  omega

/-! ### Metadata -/

/-- Where the octets behind the two file names of a Metadata data field start. -/
def metadataOptionsStart (xs : List UInt8) (largeFileFlag : LargeFileFlag) : Nat :=
  let fs := fileSizeWidth largeFileFlag
  let sourceLen := (xs.getD (fs + 2) 0).toNat
  fs + 4 + sourceLen + (xs.getD (fs + 3 + sourceLen) 0).toNat

theorem metadataOptionsStart_eq (xs : List UInt8) (largeFileFlag : LargeFileFlag) :
    metadataOptionsStart xs largeFileFlag =
      (fileSizeOctets largeFileFlag).toNat + 4 +
        (xs.getD ((fileSizeOctets largeFileFlag).toNat + 2) 0).toNat +
        (xs.getD ((fileSizeOctets largeFileFlag).toNat + 3 +
          (xs.getD ((fileSizeOctets largeFileFlag).toNat + 2) 0).toNat) 0).toNat := by
  rw [toNat_fileSizeOctets]
  rfl

theorem Lv.length_of_decode {ys rest : List UInt8} {v : Lv} (h : Lv.decode ys = some (v, rest)) :
    v.octets.length = (ys.getD 0 0).toNat ∧ rest = ys.drop (v.octets.length + 1) := by
  have hys := Lv.decode_eq_some.mp h
  have hlength : (ys.getD 0 0).toNat = v.octets.length := by
    rw [hys]
    exact toNat_ofNat_of_le v.short
  refine ⟨hlength.symm, ?_⟩
  rw [hys, ← Lv.length_encode, List.drop_left]

theorem Lv.decode_eq_none {ys : List UInt8} (h : Lv.decode ys = none) :
    ys.length < (ys.getD 0 0).toNat + 1 := by
  cases ys with
  | nil => exact Nat.succ_pos _
  | cons len ys =>
    have hshort : ¬ len.toNat ≤ ys.length := by
      intro hle
      rw [Lv.decode, if_pos hle] at h
      cases h
    rw [List.length_cons, List.getD_cons_zero]
    omega

theorem getD_drop (xs : List UInt8) (k : Nat) : (xs.drop k).getD 0 0 = xs.getD k 0 := by
  rw [List.getD_eq_getElem?_getD, List.getD_eq_getElem?_getD, List.getElem?_drop, Nat.add_zero]

/-- The names end where the options start. -/
theorem metadataDecode_start {f : MetadataFields} (h : metadataDecode xs largeFileFlag = some f) :
    (fileSizeOctets largeFileFlag).toNat + 4 + f.source.octets.length +
        f.destination.octets.length = metadataOptionsStart xs largeFileFlag ∧
      metadataOptionsStart xs largeFileFlag + f.options.length = xs.length := by
  obtain ⟨flags, size, hsize, hxs⟩ := metadataDecode_eq_some.mp h
  have hwhole := f.length_octets flags hsize
  rw [← hxs] at hwhole
  obtain ⟨_, h⟩ := Option.ite_none_right_eq_some.mp h
  obtain ⟨⟨source, rest⟩, hsource, h⟩ := Option.bind_eq_some_iff.mp h
  obtain ⟨⟨destination, options⟩, hdestination, rfl⟩ := Option.map_eq_some_iff.mp h
  obtain ⟨hsourceLen, hrest⟩ := Lv.length_of_decode hsource
  obtain ⟨hdestinationLen, -⟩ := Lv.length_of_decode hdestination
  dsimp only at hwhole hrest hdestinationLen ⊢
  rw [getD_drop] at hsourceLen
  rw [hrest, List.drop_drop, getD_drop] at hdestinationLen
  -- the destination LV starts one octet behind the source name
  have hindex : (fileSizeOctets largeFileFlag).toNat + 2 + (source.octets.length + 1) =
      (fileSizeOctets largeFileFlag).toNat + 3 + source.octets.length := by omega
  rw [hindex] at hdestinationLen
  have hstart : metadataOptionsStart xs largeFileFlag =
      (fileSizeOctets largeFileFlag).toNat + 4 + source.octets.length +
        destination.octets.length := by
    rw [metadataOptionsStart_eq, ← hsourceLen, ← hdestinationLen]
  omega

/-- What is refused ends before its options start. -/
theorem metadataDecode_eq_none (h : metadataDecode xs largeFileFlag = none)
    (hcode : xs.getD 0 0 = CFDP_DIRECTIVE_METADATA.toUInt8) :
    xs.length < metadataOptionsStart xs largeFileFlag := by
  rw [metadataOptionsStart_eq]
  -- decoding fails at the fixed part, at the source name or at the destination name
  by_cases hroom : (fileSizeOctets largeFileFlag).toNat + 2 ≤ xs.length
  · rw [metadataDecode] at h
    rw [if_pos ⟨hroom, hcode⟩] at h
    cases hsource : Lv.decode (xs.drop ((fileSizeOctets largeFileFlag).toNat + 2)) with
    | none =>
      have hshort := Lv.decode_eq_none hsource
      rw [List.length_drop, getD_drop] at hshort
      omega
    | some r =>
      obtain ⟨source, rest⟩ := r
      obtain ⟨hsourceLen, hrest⟩ := Lv.length_of_decode hsource
      rw [hsource, Option.bind_some, Option.map_eq_none_iff] at h
      have hshort := Lv.decode_eq_none h
      dsimp only at hshort
      have hindex : (fileSizeOctets largeFileFlag).toNat + 2 + (source.octets.length + 1) =
          (fileSizeOctets largeFileFlag).toNat + 3 + source.octets.length := by omega
      rw [hrest, List.drop_drop, List.length_drop, getD_drop, hindex] at hshort
      rw [getD_drop] at hsourceLen
      rw [← hsourceLen]
      omega
  · omega

/-- The length fields of a Metadata PDU add up to what was consumed, unless there are too many
    option octets to be counted. -/
theorem metadata_lengths_exact_iff (hp : p.Holds xs) (hlen : xs.length = len.toNat)
    (md : MetadataPdu) :
    (∀ n out, metadataDeserialize (some p) len largeFileFlag (some md) = .ok (n, out) →
      n ≠ sz 0 → ∃ md', out = some md' ∧
        fileSizeWidth largeFileFlag + 4 + md'.sourceFilenameLen.toNat +
          md'.destinationFilenameLen.toNat + md'.optionsLen.toNat = n.toNat) ↔
    (xs.getD 0 0 = CFDP_DIRECTIVE_METADATA.toUInt8 →
      xs.length ≤ metadataOptionsStart xs largeFileFlag + 65535) := by
  rw [← toNat_fileSizeOctets]
  have hdecodes := metadataDeserialize_decodes hp hlen largeFileFlag md
  -- the names fit their eight-bit lengths; the options alone may not fit sixteen bits
  have hexact : ∀ f, metadataDecode xs largeFileFlag = some f →
      ((fileSizeOctets largeFileFlag).toNat + 4 +
        (f.view p xs largeFileFlag).sourceFilenameLen.toNat +
          (f.view p xs largeFileFlag).destinationFilenameLen.toNat +
            (f.view p xs largeFileFlag).optionsLen.toNat = len.toNat ↔
        f.options.length ≤ 65535) := by
    intro f hf
    obtain ⟨hnames, hwhole⟩ := metadataDecode_start hf
    have hsource : (f.view p xs largeFileFlag).sourceFilenameLen.toNat =
        f.source.octets.length := toNat_ofNat_of_le f.source.short
    have hdestination : (f.view p xs largeFileFlag).destinationFilenameLen.toNat =
        f.destination.octets.length := toNat_ofNat_of_le f.destination.short
    have hoptions : (f.view p xs largeFileFlag).optionsLen = UInt16.ofNat f.options.length := rfl
    rw [hsource, hdestination, hoptions, ← toNat_ofNat16_eq_iff]
    omega
  constructor
  -- refused octets end before the options would start, so there is nothing to bound
  · intro h hcode
    cases hdec : metadataDecode xs largeFileFlag with
    | none =>
      have hshort := metadataDecode_eq_none hdec hcode
      omega
    | some f =>
      obtain ⟨hnames, hwhole⟩ := metadataDecode_start hdec
      have hrun := hdecodes.accepts_exact hdec hlen
      obtain ⟨md', hmd', hsum⟩ := h _ _ hrun (Size.ne_zero (by omega))
      cases hmd'
      have hcounted := (hexact f hdec).mp hsum
      omega
  · intro h n out hrun hn
    obtain ⟨f, hf, rfl, rfl⟩ := hdecodes.of_run hrun hn
    obtain ⟨hnames, hwhole⟩ := metadataDecode_start hf
    obtain ⟨flags, size, -, hxs⟩ := metadataDecode_eq_some.mp hf
    have hcode : xs.getD 0 0 = CFDP_DIRECTIVE_METADATA.toUInt8 := by
      rw [hxs]
      rfl
    have hcounted := h hcode
    refine ⟨_, rfl, ?_⟩
    rw [hlen, sz_toNat]
    exact (hexact f hf).mpr (by omega)

/-! ### Finished -/

/-- The length of the responses of a Finished PDU is right, unless there are too many
    response octets to be counted. -/
theorem finished_lengths_exact_iff (hp : p.Holds xs) (hlen : xs.length = len.toNat)
    (fin : FinishedPdu) :
    (∀ n out, finishedDeserialize (some p) len (some fin) = .ok (n, out) → n ≠ sz 0 →
      ∃ fin', out = some fin' ∧ ∃ c : FinishedTlvs, xs.drop 2 = c.octets ∧
        fin'.filestoreResponsesLen.toNat = c.responsesLength) ↔
    (2 ≤ xs.length → xs.getD 0 0 = CFDP_DIRECTIVE_FINISHED.toUInt8 →
      ∀ c : FinishedTlvs, xs.drop 2 = c.octets → c.responsesLength ≤ 65535) := by
  have hdecodes := finishedDeserialize_decodes hp hlen fin
  -- the cast to sixteen bits is exact exactly up to 65535 octets of responses
  have hexact : ∀ (c : FinishedTlvs) (pos : Nat) (octet : UInt8),
      ((c.scan pos).view p octet).filestoreResponsesLen.toNat = c.responsesLength ↔
        c.responsesLength ≤ 65535 :=
    fun c _ _ => toNat_ofNat16_eq_iff c.responsesLength
  constructor
  · intro h htwo hcode c hdrop
    have hdec := finishedDecode_eq_some_tlvs.mpr ⟨htwo, hcode, c, hdrop, rfl⟩
    have hrun := hdecodes.accepts_exact hdec hlen
    obtain ⟨fin', hfin', c', hdrop', hlength⟩ := h _ _ hrun (Size.ne_zero (by omega))
    cases hfin'
    -- the octets have one reading
    have hdec' := finishedDecode_eq_some_tlvs.mpr ⟨htwo, hcode, c', hdrop', rfl⟩
    rw [hdec, Option.some.injEq] at hdec'
    have hsame : c.responsesLength = c'.responsesLength := congrArg FinishedScan.responses hdec'
    exact (hexact c _ _).mp (hlength.trans hsame.symm)
  · intro h n out hrun hn
    obtain ⟨s, hs, rfl, rfl⟩ := hdecodes.of_run hrun hn
    obtain ⟨htwo, hcode, c, hdrop, rfl⟩ := finishedDecode_eq_some_tlvs.mp hs
    exact ⟨_, rfl, c, hdrop, (hexact c _ _).mpr (h htwo hcode c hdrop)⟩

/-! ### Both decoders -/

/-- **Main result.** The decoded lengths account for every octet exactly where no more than
    65535 octets of options, or of responses, have to be counted. -/
theorem decoded_lengths_exact_iff (hp : p.Holds xs) (hlen : xs.length = len.toNat)
    (largeFileFlag : LargeFileFlag) (md : MetadataPdu) (fin : FinishedPdu) :
    ((∀ n out, metadataDeserialize (some p) len largeFileFlag (some md) = .ok (n, out) →
        n ≠ sz 0 → ∃ md', out = some md' ∧
          fileSizeWidth largeFileFlag + 4 + md'.sourceFilenameLen.toNat +
            md'.destinationFilenameLen.toNat + md'.optionsLen.toNat = n.toNat) ↔
      (xs.getD 0 0 = CFDP_DIRECTIVE_METADATA.toUInt8 →
        xs.length ≤ metadataOptionsStart xs largeFileFlag + 65535)) ∧
    ((∀ n out, finishedDeserialize (some p) len (some fin) = .ok (n, out) → n ≠ sz 0 →
        ∃ fin', out = some fin' ∧ ∃ c : FinishedTlvs, xs.drop 2 = c.octets ∧
          fin'.filestoreResponsesLen.toNat = c.responsesLength) ↔
      (2 ≤ xs.length → xs.getD 0 0 = CFDP_DIRECTIVE_FINISHED.toUInt8 →
        ∀ c : FinishedTlvs, xs.drop 2 = c.octets → c.responsesLength ≤ 65535)) :=
  ⟨metadata_lengths_exact_iff hp hlen md, finished_lengths_exact_iff hp hlen fin⟩

/-- The responses are part of the TLVs. -/
theorem FinishedTlvs.responsesLength_le (c : FinishedTlvs) :
    c.responsesLength ≤ c.octets.length := by
  rw [FinishedTlvs.octets, FinishedTlvs.items, List.flatMap_append, List.length_append]
  exact Nat.le_add_right _ _

/-- A Metadata PDU with two empty names and one option, and a Finished PDU with one response and
    a fault location. -/
theorem decoded_lengths_exact_iff_sample :
    (∃ md', metadataDeserialize
        (some ⟨Object.full [0x07, 0x00, 0, 0, 0, 0, 0x00, 0x00, 0x05, 0x00], 0⟩)
        (sz 10 : Size .checked32) CFDP_FILE_SIZE_SMALL (some default) = .ok (sz 10, some md') ∧
      fileSizeWidth CFDP_FILE_SIZE_SMALL + 4 + md'.sourceFilenameLen.toNat +
        md'.destinationFilenameLen.toNat + md'.optionsLen.toNat =
          (sz 10 : Size .checked32).toNat) ∧
    ∃ fin', finishedDeserialize
        (some ⟨Object.full [0x05, 0x40, 0x01, 0x03, 0x00, 0x00, 0x00, 0x06, 0x01, 0x07], 0⟩)
        (sz 10 : Size .checked32) (some default) = .ok (sz 10, some fin') ∧
      ∃ c : FinishedTlvs,
        [0x01, 0x03, 0x00, 0x00, 0x00, 0x06, 0x01, 0x07] = c.octets ∧
        fin'.filestoreResponsesLen.toNat = c.responsesLength := by
  have hp := Object.holds_whole [0x07, 0x00, 0, 0, 0, 0, 0x00, 0x00, 0x05, 0x00]
  have hrun : metadataDeserialize
      (some ⟨Object.full [0x07, 0x00, 0, 0, 0, 0, 0x00, 0x00, 0x05, 0x00], 0⟩)
      (sz 10 : Size .checked32) CFDP_FILE_SIZE_SMALL (some default) = .ok (sz 10, _) := rfl
  have hexact := (@decoded_lengths_exact_iff .checked32 _ _ (sz 10) hp rfl CFDP_FILE_SIZE_SMALL
    default default).1.mpr fun _ => by decide
  obtain ⟨md', hout, hlengths⟩ := hexact _ _ hrun (by decide)
  rw [hout] at hrun
  have hp' := Object.holds_whole
    [0x05, 0x40, 0x01, 0x03, 0x00, 0x00, 0x00, 0x06, 0x01, 0x07]
  have hrun' : finishedDeserialize
      (some ⟨Object.full [0x05, 0x40, 0x01, 0x03, 0x00, 0x00, 0x00, 0x06, 0x01, 0x07], 0⟩)
      (sz 10 : Size .checked32) (some default) = .ok (sz 10, _) := rfl
  have hexact' := (@decoded_lengths_exact_iff .checked32 _ _ (sz 10) hp' rfl CFDP_FILE_SIZE_SMALL
    default default).2.mpr fun _ _ c hc =>
      Nat.le_trans c.responsesLength_le (by rw [← hc]; decide)
  obtain ⟨fin', hout', hlengths'⟩ := hexact' _ _ hrun' (by decide)
  rw [hout'] at hrun'
  exact ⟨⟨md', hrun, hlengths⟩, fin', hrun', hlengths'⟩

/-! ### A data field with 65536 octets to count -/

/-- TLVs without a value. -/
def emptyTlvs (type : UInt8) (n : Nat) : List TlvItem := List.replicate n ⟨type, [], by simp⟩

theorem length_emptyTlvs (type : UInt8) (n : Nat) :
    (tlvCodec.chain (emptyTlvs type n)).length = 2 * n := by
  induction n with
  | zero => rfl
  | succ n ih =>
    rw [emptyTlvs, List.replicate_succ, PrefixCodec.chain_cons, List.length_append]
    change 2 + (tlvCodec.chain (emptyTlvs type n)).length = _
    omega

/-- A Metadata PDU without file names, in front of `n` empty Flow Labels. -/
def flowLabels (n : Nat) : MetadataFields :=
  ⟨⟨[], by simp⟩, ⟨[], by simp⟩, tlvCodec.chain (emptyTlvs 0x05 n)⟩

/-- The Flow Labels are counted modulo 65536. -/
theorem flowLabels_run (n : Nat) (hlen : 8 + 2 * n = len.toNat) (md : MetadataPdu) :
    ∃ md', metadataDeserialize (some ⟨Object.full ((flowLabels n).octets 0 [0, 0, 0, 0]), 0⟩) len
        CFDP_FILE_SIZE_SMALL (some md) = .ok (len, some md') ∧ md'.sourceFilenameLen = 0 ∧
      md'.destinationFilenameLen = 0 ∧ md'.optionsLen = UInt16.ofNat (2 * n) := by
  have hoptions : (flowLabels n).options.length = 2 * n := length_emptyTlvs _ n
  have hlength : ((flowLabels n).octets 0 [0, 0, 0, 0]).length = len.toNat := by
    rw [@MetadataFields.length_octets CFDP_FILE_SIZE_SMALL [0, 0, 0, 0] (flowLabels n) 0 rfl,
      hoptions, ← hlen]
    change 4 + 0 + 0 + 2 * n + 4 = 8 + 2 * n
    omega
  have hdec := (@metadataDecode_eq_some CFDP_FILE_SIZE_SMALL _ (flowLabels n)).mpr
    ⟨0, [0, 0, 0, 0], rfl, rfl⟩
  have hrun := (metadataDeserialize_decodes
    (Object.holds_whole ((flowLabels n).octets 0 [0, 0, 0, 0])) hlength CFDP_FILE_SIZE_SMALL
    md).accepts_exact hdec hlength
  refine ⟨_, hrun, rfl, rfl, ?_⟩
  rw [MetadataFields.view, hoptions]

/-- A Finished PDU with `n` empty responses. -/
def emptyResponses (n : Nat) : FinishedTlvs where
  responses := emptyTlvs CFDP_TLV_FILESTORE_RESPONSE.toUInt8 n
  entityIds := []
  response_type := by
    intro t ht
    rw [List.eq_of_mem_replicate ht]
  entityId_type := by simp

theorem responsesLength_emptyResponses (n : Nat) :
    (emptyResponses n).responsesLength = 2 * n := length_emptyTlvs _ n

theorem emptyResponses_run (n : Nat) (hlen : 2 + 2 * n = len.toNat) (fin : FinishedPdu) :
    ∃ fin', finishedDeserialize
        (some ⟨Object.full (CFDP_DIRECTIVE_FINISHED.toUInt8 :: 0 :: (emptyResponses n).octets), 0⟩)
        len (some fin) = .ok (len, some fin') ∧
      fin'.filestoreResponsesLen = UInt16.ofNat (2 * n) := by
  have hlength : (CFDP_DIRECTIVE_FINISHED.toUInt8 :: 0 :: (emptyResponses n).octets).length =
      len.toNat := by
    rw [List.length_cons, List.length_cons, FinishedTlvs.octets, FinishedTlvs.items,
      emptyResponses, List.append_nil]
    change (tlvCodec.chain (emptyTlvs _ n)).length + 1 + 1 = _
    rw [length_emptyTlvs]
    omega
  have hdec := (@finishedDecode_eq_some_tlvs
    (CFDP_DIRECTIVE_FINISHED.toUInt8 :: 0 :: (emptyResponses n).octets) _).mpr
    ⟨Nat.le_add_left 2 _, rfl, emptyResponses n, rfl, rfl⟩
  have hrun := (finishedDeserialize_decodes
    (Object.holds_whole (CFDP_DIRECTIVE_FINISHED.toUInt8 :: 0 :: (emptyResponses n).octets))
    hlength fin).accepts_exact hdec hlength
  refine ⟨_, hrun, ?_⟩
  rw [FinishedScan.view, FinishedTlvs.scan, responsesLength_emptyResponses]

/-- Both data fields are consumed whole, and according to the struct there was nothing. -/
theorem decoded_lengths_wrap :
    (∃ md', metadataDeserialize
        (some ⟨Object.full ((flowLabels 32768).octets 0 [0, 0, 0, 0]), 0⟩)
        (sz 65544 : Size .checked32) CFDP_FILE_SIZE_SMALL (some default) =
          .ok (sz 65544, some md') ∧
      fileSizeWidth CFDP_FILE_SIZE_SMALL + 4 + md'.sourceFilenameLen.toNat +
        md'.destinationFilenameLen.toNat + md'.optionsLen.toNat = 8) ∧
    (∃ fin', finishedDeserialize
        (some ⟨Object.full (CFDP_DIRECTIVE_FINISHED.toUInt8 :: 0 :: (emptyResponses 32768).octets),
          0⟩)
        (sz 65538 : Size .checked32) (some default) = .ok (sz 65538, some fin') ∧
      (emptyResponses 32768).responsesLength = 65536 ∧
      fin'.filestoreResponsesLen.toNat = 0) := by
  constructor
  · obtain ⟨md', hrun, hsource, hdestination, hoptions⟩ :=
      @flowLabels_run .checked32 (sz 65544) 32768 rfl default
    refine ⟨md', hrun, ?_⟩
    rw [hsource, hdestination, hoptions]
    rfl
  · obtain ⟨fin', hrun, hresponses⟩ := @emptyResponses_run .checked32 (sz 65538) 32768 rfl default
    refine ⟨fin', hrun, responsesLength_emptyResponses 32768, ?_⟩
    rw [hresponses]
    rfl

end EmbeddedCfdp
