import EmbeddedCfdp.DirectiveDeserialise
import EmbeddedCfdp.FilestoreRoundTrip

/-!
# A Metadata PDU from sender to receiver

A Metadata PDU is a fixed part of known width, two file names, and whatever remains as
options.  What the decoder cuts out of a PDU is what the encoder lays down, part by part,
so that each undoes the other up to the spare bits of the second octet.
-/

namespace EmbeddedCfdp

open CMemory

variable {T : Target} {p : Ptr} {largeFileFlag : LargeFileFlag}

/-! ### The parts of a Metadata PDU -/

/-- The flags, the file size, the file names and the options, one after another. -/
def MetadataFields.octets (flags : UInt8) (size : List UInt8) (f : MetadataFields) :
    List UInt8 :=
  CFDP_DIRECTIVE_METADATA.toUInt8 :: flags ::
    (size ++ (f.source.encode ++ (f.destination.encode ++ f.options)))

theorem metadataDecode_eq_some {xs : List UInt8} {f : MetadataFields} :
    metadataDecode xs largeFileFlag = some f ↔
      ∃ flags size, size.length = (fileSizeOctets largeFileFlag).toNat ∧
        xs = f.octets flags size := by
  unfold metadataDecode
  constructor
  · intro h
    obtain ⟨⟨hroom, hcode⟩, h⟩ := Option.ite_none_right_eq_some.mp h
    obtain ⟨⟨source, rest⟩, hsource, h⟩ := Option.bind_eq_some_iff.mp h
    obtain ⟨⟨destination, options⟩, hdestination, rfl⟩ := Option.map_eq_some_iff.mp h
    -- the code and the flags are the first two octets
    rcases xs with _ | ⟨code, _ | ⟨flags, ys⟩⟩
    · simp at hroom
    · simp at hroom
    · simp only [List.length_cons, Nat.add_le_add_iff_right] at hroom
      have hcode' : code = CFDP_DIRECTIVE_METADATA.toUInt8 := hcode
      have hys := Lv.decode_eq_some.mp hsource
      have hrest := Lv.decode_eq_some.mp hdestination
      dsimp only at hys hrest
      rw [List.drop_succ_cons, List.drop_succ_cons] at hys
      refine ⟨flags, ys.take (fileSizeOctets largeFileFlag).toNat,
        List.length_take_of_le hroom, ?_⟩
      rw [MetadataFields.octets, ← hrest, ← hys, List.take_append_drop, hcode']
  · rintro ⟨flags, size, hsize, rfl⟩
    have hroom : (fileSizeOctets largeFileFlag).toNat + 2 ≤ (f.octets flags size).length := by
      simp only [MetadataFields.octets, List.length_cons, List.length_append]
      omega
    have hdrop : (f.octets flags size).drop ((fileSizeOctets largeFileFlag).toNat + 2) =
        f.source.encode ++ (f.destination.encode ++ f.options) := by
      rw [MetadataFields.octets, List.drop_succ_cons, List.drop_succ_cons,
        List.drop_left' hsize]
    have hsource := Lv.decode_eq_some.mpr (Eq.refl (f.source.encode ++
      (f.destination.encode ++ f.options)))
    have hdestination := Lv.decode_eq_some.mpr (Eq.refl (f.destination.encode ++ f.options))
    rw [if_pos ⟨hroom, rfl⟩, hdrop, hsource, Option.bind_some, hdestination, Option.map_some]

section Parts

variable {f : MetadataFields} {flags : UInt8} {size : List UInt8}

theorem MetadataFields.length_octets (f : MetadataFields) (flags : UInt8)
    (hsize : size.length = (fileSizeOctets largeFileFlag).toNat) :
    (f.octets flags size).length = (fileSizeOctets largeFileFlag).toNat +
      f.source.octets.length + f.destination.octets.length + f.options.length + 4 := by
  simp only [MetadataFields.octets, List.length_cons, List.length_append, Lv.length_encode, hsize]
  omega

/-- Where the decoder looks for the file names and the options. -/
theorem MetadataFields.holds_parts (hsize : size.length = (fileSizeOctets largeFileFlag).toNat)
    (h : p.Holds (f.octets flags size)) :
    (p.add (2 + (fileSizeOctets largeFileFlag).toNat)).Holds f.source.encode ∧
      (p.add (2 + (fileSizeOctets largeFileFlag).toNat + f.source.encode.length)).Holds
        f.destination.encode ∧
      (p.add (f.optionsStart largeFileFlag)).Holds f.options := by
  have hnames := h.tail.tail.right
  rw [Ptr.add_add, Ptr.add_add, hsize, ← Nat.add_assoc] at hnames
  have hsecond := hnames.right
  rw [Ptr.add_add] at hsecond
  have hoptions := hsecond.right
  rw [Ptr.add_add] at hoptions
  exact ⟨hnames.left, hsecond.left, hoptions⟩

theorem MetadataFields.uintAt_octets
    (hsize : size.length = (fileSizeOctets largeFileFlag).toNat) :
    uintAt (f.octets flags size) 2 (fileSizeOctets largeFileFlag).toNat =
      UInt64.ofNat (BigEndian.decode size) :=
  @uintAt_append [CFDP_DIRECTIVE_METADATA.toUInt8, flags] _ _ _ _ rfl hsize.symm

end Parts

/-! ### The flags -/

theorem unpack_metadataFlags_bits (closure : Bool) (type : Fin 16) :
    let flags := ((if closure then (1 : UInt8) else 0) <<< 6) ||| (UInt8.ofNat type &&& 0xF)
    decide ((flags >>> 6) &&& 0x1 ≠ 0) = closure ∧ flags &&& 0xF = UInt8.ofNat type := by
  revert closure type
  decide +kernel

theorem unpack_metadataFlags {md : MetadataPdu} (h : md.checksumType ≤ 15) :
    decide ((metadataFlags md >>> 6) &&& 0x1 ≠ 0) = md.closureRequested ∧
      (metadataFlags md &&& 0xF).toUInt32 = md.checksumType := by
  obtain ⟨type, htype, htype'⟩ := BitFields.exists_octet (k := 16) (by norm_num)
    (Nat.lt_succ_of_le (UInt32.le_iff_toNat_le.mp h))
  obtain ⟨hclosure, hchecksum⟩ := unpack_metadataFlags_bits md.closureRequested type
  rw [metadataFlags, htype, hchecksum]
  exact ⟨hclosure, htype'⟩

/-- Packing what was unpacked clears the spare bits. -/
theorem pack_metadataFlags (flags : UInt8) :
    ((if decide ((flags >>> 6) &&& 0x1 ≠ 0) = true then (1 : UInt8) else 0) <<< 6) |||
      ((flags &&& 0xF).toUInt32.toUInt8 &&& 0xF) = flags &&& 0x4F := by
  refine BitFields.forall_octet (P := fun flags =>
    ((if decide ((flags >>> 6) &&& 0x1 ≠ 0) = true then (1 : UInt8) else 0) <<< 6) |||
      ((flags &&& 0xF).toUInt32.toUInt8 &&& 0xF) = flags &&& 0x4F) ?_ flags
  decide +kernel

/-! ### Sending and receiving -/

/-- No pointer is null where its length is not zero. -/
structure MetadataPdu.Given (md : MetadataPdu) : Prop where
  sourceFilename : md.sourceFilename = none → md.sourceFilenameLen = 0
  destinationFilename : md.destinationFilename = none → md.destinationFilenameLen = 0
  options : md.options = none → md.optionsLen = 0

/-- What the receiver reports of the PDU that was sent. -/
structure MetadataPdu.ReceivedAs (largeFileFlag : LargeFileFlag) (md md' : MetadataPdu) :
    Prop where
  closureRequested : md'.closureRequested = md.closureRequested
  checksumType : md'.checksumType = md.checksumType
  fileSize : md'.fileSize.toNat = md.fileSize.toNat % 256 ^ fileSizeWidth largeFileFlag
  sourceFilename : SameOctets (md.sourceFilename, md.sourceFilenameLen)
    (md'.sourceFilename, md'.sourceFilenameLen)
  destinationFilename : SameOctets (md.destinationFilename, md.destinationFilenameLen)
    (md'.destinationFilename, md'.destinationFilenameLen)
  optionsLen : md'.optionsLen = md.optionsLen
  options : octetsAt md'.options md'.optionsLen.toNat = octetsAt md.options md.optionsLen.toNat

section Exchange

variable {md : MetadataPdu}

theorem MetadataPdu.Given.options_given (h : md.Given) :
    ¬ (md.options.isNone ∧ md.optionsLen > 0) := by
  rintro ⟨hnull, hpos⟩
  rw [h.options (Option.isNone_iff_eq_none.mp hnull)] at hpos
  exact absurd hpos (by decide)

/-- The octets sent for a PDU, as the parts the decoder looks for. -/
theorem metadataEncoding_eq (largeFileFlag : LargeFileFlag) (h : md.Given) :
    ∃ f : MetadataFields, metadataEncoding md largeFileFlag = some (f.octets (metadataFlags md)
        (BigEndian.encode (fileSizeOctets largeFileFlag).toNat md.fileSize.toNat)) ∧
      lvOf md.sourceFilename md.sourceFilenameLen = some f.source ∧
      lvOf md.destinationFilename md.destinationFilenameLen = some f.destination ∧
      f.options = octetsAt md.options md.optionsLen.toNat := by
  obtain ⟨source, hsource⟩ := lvOf_isSome.mpr h.sourceFilename
  obtain ⟨destination, hdestination⟩ := lvOf_isSome.mpr h.destinationFilename
  refine ⟨⟨source, destination, octetsAt md.options md.optionsLen.toNat⟩, ?_, hsource,
    hdestination, rfl⟩
  rw [metadataEncoding, if_neg h.options_given, withNames, hsource, Option.bind_some, hdestination,
    Option.map_some, metadataFixed, MetadataFields.octets]
  simp only [List.cons_append, List.append_assoc]

theorem metadata_receivedAs {f : MetadataFields} (htype : md.checksumType ≤ 15) (hmd : md.Sourced)
    (hgiven : md.Given) (hsource : lvOf md.sourceFilename md.sourceFilenameLen = some f.source)
    (hdestination : lvOf md.destinationFilename md.destinationFilenameLen = some f.destination)
    (hoptions : f.options = octetsAt md.options md.optionsLen.toNat) {xs : List UInt8}
    (hxs : xs = f.octets (metadataFlags md)
      (BigEndian.encode (fileSizeOctets largeFileFlag).toNat md.fileSize.toNat))
    (h : p.Holds xs) : md.ReceivedAs largeFileFlag (f.view p xs largeFileFlag) := by
  subst hxs
  have hsize := BigEndian.length_encode (fileSizeOctets largeFileFlag).toNat md.fileSize.toNat
  obtain ⟨hfirst, hsecond, hrest⟩ := MetadataFields.holds_parts hsize h
  obtain ⟨hclosure, hchecksum⟩ := unpack_metadataFlags htype
  have hnull := hgiven.options_given
  rw [toNat_pos_iff_uint16] at hnull
  have hlength : f.options.length = md.optionsLen.toNat := by
    rw [hoptions, length_octetsAt hmd.options hnull]
  have hoptionsLen : UInt16.ofNat f.options.length = md.optionsLen := by
    rw [hlength, UInt16.ofNat_toNat]
  constructor
  · exact hclosure
  · exact hchecksum
  · change (uintAt _ 2 _).toNat = _
    have hwidth := (length_fileSizeOctets largeFileFlag).1
    rw [MetadataFields.uintAt_octets hsize, toNat_ofNat_decode (by omega), BigEndian.decode_encode,
      toNat_fileSizeOctets]
  · exact Lv.sameOctets_field hmd.sourceFilename hsource hfirst
  · exact Lv.sameOctets_field hmd.destinationFilename hdestination hsecond
  · exact hoptionsLen
  · change octetsAt (spanAt p _ f.options) (UInt16.ofNat f.options.length).toNat = _
    rw [hoptionsLen, ← hlength, octetsAt_spanAt hrest, hlength, hoptions]

end Exchange

section Reencoding

variable {f : MetadataFields} {flags : UInt8} {size : List UInt8}

theorem MetadataFields.given_view (f : MetadataFields) (p : Ptr) (xs : List UInt8)
    (largeFileFlag : LargeFileFlag) (hoptions : f.options.length ≤ 65535) :
    (f.view p xs largeFileFlag).Given ∧
      (f.view p xs largeFileFlag).optionsLen.toNat = f.options.length := by
  have hlen : (f.view p xs largeFileFlag).optionsLen.toNat = f.options.length := by
    change (UInt16.ofNat f.options.length).toNat = _
    rw [UInt16.toNat_ofNat', Nat.mod_eq_of_lt (by omega)]
  refine ⟨⟨fun hnull => ?_, fun hnull => ?_, fun hnull => ?_⟩, hlen⟩
  · change UInt8.ofNat f.source.octets.length = 0
    rw [spanAt_eq_none.mp hnull]
    rfl
  · change UInt8.ofNat f.destination.octets.length = 0
    rw [spanAt_eq_none.mp hnull]
    rfl
  · apply UInt16.toNat_inj.mp
    rw [hlen, spanAt_eq_none.mp hnull]
    rfl

/-- What is reported for a PDU is encoded as that PDU with its spare bits cleared. -/
theorem metadataEncoding_view (hsize : size.length = (fileSizeOctets largeFileFlag).toNat)
    (hoptions : f.options.length ≤ 65535) (h : p.Holds (f.octets flags size)) :
    (f.view p (f.octets flags size) largeFileFlag).Sourced ∧
      metadataEncoding (f.view p (f.octets flags size) largeFileFlag) largeFileFlag =
        some (f.octets (flags &&& 0x4F) size) := by
  obtain ⟨hfirst, hsecond, hrest⟩ := MetadataFields.holds_parts hsize h
  obtain ⟨hsource, hsourceRead⟩ := Lv.lvOf_field hfirst
  obtain ⟨hdestination, hdestinationRead⟩ := Lv.lvOf_field hsecond
  obtain ⟨hgiven, hlen⟩ := f.given_view p (f.octets flags size) largeFileFlag hoptions
  constructor
  · refine ⟨hsourceRead, hdestinationRead, ?_⟩
    rw [hlen]
    exact readable_spanAt hrest
  · obtain ⟨f', henc, hsource', hdestination', hoptions'⟩ :=
      metadataEncoding_eq largeFileFlag hgiven
    rw [hlen] at hoptions'
    -- what is reported is read as the fields it was decoded from
    have hsame : f' = f := by
      obtain ⟨source', destination', options'⟩ := f'
      obtain rfl : f.source = source' := Option.some.inj (hsource.symm.trans hsource')
      obtain rfl : f.destination = destination' :=
        Option.some.inj (hdestination.symm.trans hdestination')
      obtain rfl : options' = f.options := hoptions'.trans (octetsAt_spanAt hrest)
      rfl
    have hflags : metadataFlags (f.view p (f.octets flags size) largeFileFlag) = flags &&& 0x4F :=
      pack_metadataFlags flags
    have hvalue : (f.view p (f.octets flags size) largeFileFlag).fileSize =
        UInt64.ofNat (BigEndian.decode size) := MetadataFields.uintAt_octets hsize
    have hwidth := (length_fileSizeOctets largeFileFlag).1
    rw [henc, hsame, hflags, hvalue, ← hsize, encode_ofNat_decode (by omega)]

end Reencoding

/-- A PDU is sent with exactly its size and received as it was given. -/
theorem metadata_encode_decode (largeFileFlag : LargeFileFlag) {md : MetadataPdu}
    (htype : md.checksumType ≤ 15) (hmd : md.Sourced) (hgiven : md.Given) :
    ∃ e : List UInt8, e.length = metadataSize md largeFileFlag ∧
      (∀ (i : Nat) (cap : Size T) (m : Object), i + cap.toNat ≤ m.extent →
        e.length ≤ cap.toNat →
        metadataSerialize (some md) largeFileFlag (some i) cap m =
          .ok (sz e.length, m.place i e)) ∧
      ∀ (p : Ptr) (len : Size T) (old : MetadataPdu), p.Holds e → e.length = len.toNat →
        ∃ md', metadataDeserialize (some p) len largeFileFlag (some old) =
            .ok (len, some md') ∧ md.ReceivedAs largeFileFlag md' := by
  have hsize := BigEndian.length_encode (fileSizeOctets largeFileFlag).toNat md.fileSize.toNat
  obtain ⟨f, henc, hsource, hdestination, hoptions⟩ :=
    metadataEncoding_eq largeFileFlag hgiven
  have hlength : (f.octets (metadataFlags md) (BigEndian.encode
      (fileSizeOctets largeFileFlag).toNat md.fileSize.toNat)).length =
      metadataSize md largeFileFlag := by
    have hnull := hgiven.options_given
    rw [toNat_pos_iff_uint16] at hnull
    rw [f.length_octets _ hsize, hoptions, length_octetsAt hmd.options hnull,
      (lvOf_eq_some hmd.sourceFilename hsource).2.2,
      (lvOf_eq_some hmd.destinationFilename hdestination).2.2, metadataSize_eq]
  refine ⟨_, hlength, ?_, ?_⟩
  · intro i cap m hext hle
    have hfits : metadataSize md largeFileFlag < 2 ^ T.sizeBits := by
      rw [← hlength]
      exact Nat.lt_of_le_of_lt hle cap.isLt
    have hencodes := metadataSerialize_encodes hfits hmd
    rw [henc] at hencodes
    exact hencodes.writes hext hle
  · intro p len old hp hlen
    have hdec := metadataDecode_eq_some.mpr ⟨_, _, hsize, Eq.refl (f.octets (metadataFlags md)
      (BigEndian.encode (fileSizeOctets largeFileFlag).toNat md.fileSize.toNat))⟩
    have hrun := (metadataDeserialize_decodes hp hlen largeFileFlag old).accepts_exact hdec hlen
    exact ⟨_, hrun, metadata_receivedAs htype hmd hgiven hsource hdestination hoptions rfl hp⟩

/-- An accepted PDU is sent again as it came, with its spare bits cleared. -/
theorem metadata_decode_encode {largeFileFlag : LargeFileFlag} {p : Ptr} {xs : List UInt8}
    {len n : Size T} {old md : MetadataPdu} (hp : p.Holds xs) (hlen : xs.length = len.toNat)
    (hrun : metadataDeserialize (some p) len largeFileFlag (some old) = .ok (n, some md))
    (hn : n ≠ sz 0)
    (hshort : xs.length ≤ fileSizeWidth largeFileFlag + 4 +
      md.sourceFilenameLen.toNat + md.destinationFilenameLen.toNat + 65535)
    {i : Nat} {cap : Size T} {m : Object} (hext : i + cap.toNat ≤ m.extent)
    (hle : xs.length ≤ cap.toNat) :
    metadataSerialize (some md) largeFileFlag (some i) cap m =
      .ok (len, m.place i (xs.set 1 (xs.getD 1 0 &&& 0x4F))) := by
  obtain ⟨f, hdec, _, heq⟩ :=
    (metadataDeserialize_decodes hp hlen largeFileFlag old).of_run hrun hn
  obtain ⟨flags, size, hsize, rfl⟩ := metadataDecode_eq_some.mp hdec
  rw [Option.some.injEq] at heq
  subst heq
  have hsourceLen : (f.view p (f.octets flags size) largeFileFlag).sourceFilenameLen.toNat =
      f.source.octets.length := toNat_ofNat_of_le f.source.short
  have hdestinationLen :
      (f.view p (f.octets flags size) largeFileFlag).destinationFilenameLen.toNat =
        f.destination.octets.length := toNat_ofNat_of_le f.destination.short
  have hlength := f.length_octets flags hsize
  rw [hsourceLen, hdestinationLen, ← toNat_fileSizeOctets] at hshort
  obtain ⟨hmd, henc⟩ := metadataEncoding_view hsize (by omega) hp
  have hlength' := f.length_octets (flags &&& 0x4F) hsize
  have hlt := cap.isLt
  obtain ⟨_, hview⟩ := f.given_view p (f.octets flags size) largeFileFlag (by omega)
  have hfits : metadataSize (f.view p (f.octets flags size) largeFileFlag) largeFileFlag <
      2 ^ T.sizeBits := by
    rw [metadataSize_eq, hsourceLen, hdestinationLen, hview]
    omega
  have hencodes := metadataSerialize_encodes hfits hmd
  rw [henc] at hencodes
  -- the reserved bits of the flags octet are not kept
  have hset : (f.octets flags size).set 1 ((f.octets flags size).getD 1 0 &&& 0x4F) =
      f.octets (flags &&& 0x4F) size := rfl
  rw [hset, hencodes.writes hext (by omega), hlength', ← hlength, hlen, sz_toNat]

/-- **Main result.** The Metadata codec is an inverse pair: a PDU is sent with exactly its
    size and received as it was given, and an accepted PDU is sent again as it came, with
    the spare bits of its second octet cleared. -/
theorem metadata_codec (largeFileFlag : LargeFileFlag) :
    (∀ md : MetadataPdu, md.checksumType ≤ 15 → md.Sourced → md.Given →
      ∃ e : List UInt8, e.length = metadataSize md largeFileFlag ∧
        (∀ (i : Nat) (cap : Size T) (m : Object), i + cap.toNat ≤ m.extent →
          e.length ≤ cap.toNat →
          metadataSerialize (some md) largeFileFlag (some i) cap m =
            .ok (sz e.length, m.place i e)) ∧
        ∀ (p : Ptr) (len : Size T) (old : MetadataPdu), p.Holds e → e.length = len.toNat →
          ∃ md', metadataDeserialize (some p) len largeFileFlag (some old) =
              .ok (len, some md') ∧ md.ReceivedAs largeFileFlag md') ∧
    (∀ (p : Ptr) (xs : List UInt8) (len n : Size T) (old md : MetadataPdu), p.Holds xs →
      xs.length = len.toNat →
      metadataDeserialize (some p) len largeFileFlag (some old) = .ok (n, some md) →
      n ≠ sz 0 →
      xs.length ≤ fileSizeWidth largeFileFlag + 4 + md.sourceFilenameLen.toNat +
        md.destinationFilenameLen.toNat + 65535 →
      ∀ (i : Nat) (cap : Size T) (m : Object), i + cap.toNat ≤ m.extent →
        xs.length ≤ cap.toNat →
        metadataSerialize (some md) largeFileFlag (some i) cap m =
          .ok (len, m.place i (xs.set 1 (xs.getD 1 0 &&& 0x4F)))) := by
  constructor
  · intro md htype hmd hgiven
    exact metadata_encode_decode largeFileFlag htype hmd hgiven
  · intro p xs len n old md hp hlen hrun hn hshort i cap m hext hle
    exact metadata_decode_encode hp hlen hrun hn hshort hext hle

/-- A source file name of one octet, no destination file name, and an option. -/
def sampleMetadata : MetadataPdu :=
  { closureRequested := true
    checksumType := 15
    fileSize := 0x0102030405
    sourceFilename := some ⟨Object.full [0x61], 0⟩
    sourceFilenameLen := 1
    destinationFilename := none
    destinationFilenameLen := 0
    options := some ⟨Object.full [0x06, 0x00], 0⟩
    optionsLen := 2 }

/-- The same received with its spare bits set. -/
def sampleMetadataOctets : List UInt8 :=
  [0x07, 0xFF, 0x02, 0x03, 0x04, 0x05, 0x01, 0x61, 0x00, 0x06, 0x00]

theorem metadata_codec_sample :
    (∃ e : List UInt8, e.length = 11 ∧ ∀ p : Ptr, p.Holds e →
      ∃ md', metadataDeserialize (some p) (sz 11 : Size .checked32) CFDP_FILE_SIZE_SMALL
          (some default) = .ok (sz 11, some md') ∧
        sampleMetadata.ReceivedAs CFDP_FILE_SIZE_SMALL md') ∧
    ∃ md, metadataDeserialize (some ⟨Object.full sampleMetadataOctets, 0⟩)
          (sz 11 : Size .checked32) CFDP_FILE_SIZE_SMALL (some default) = .ok (sz 11, some md) ∧
        metadataSerialize (some md) CFDP_FILE_SIZE_SMALL (some 0) (sz 11 : Size .checked32)
            (Object.full (List.replicate 11 0)) =
          .ok (sz 11, (Object.full (List.replicate 11 0)).place 0
            (sampleMetadataOctets.set 1 0x4F)) := by
  have hmd : sampleMetadata.Sourced := by
    constructor
    · rintro q ⟨⟩
      decide
    · rintro q ⟨⟩
    · rintro q ⟨⟩
      decide
  have hgiven : sampleMetadata.Given := by
    constructor
    · rintro ⟨⟩
    · rintro -
      rfl
    · rintro ⟨⟩
  have hholds := Object.holds_whole sampleMetadataOctets
  constructor
  · obtain ⟨e, hlength, _, hreceive⟩ :=
      (metadata_codec (T := .checked32) CFDP_FILE_SIZE_SMALL).1 sampleMetadata (by decide) hmd
        hgiven
    have hsize : e.length = 11 := hlength
    exact ⟨e, hsize, fun p hp => hreceive p (sz 11) default hp hsize⟩
  · refine ⟨_, rfl, ?_⟩
    exact (metadata_codec (T := .checked32) CFDP_FILE_SIZE_SMALL).2 _ sampleMetadataOctets (sz 11)
      (sz 11) default _ hholds rfl rfl (by decide) (by decide) 0 (sz 11) _ (by decide) (by decide)

end EmbeddedCfdp
