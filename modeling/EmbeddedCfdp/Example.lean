import EmbeddedCfdp.Checksum
import EmbeddedCfdp.PduExchange

/-!
# The worked example (`examples/example.c`)

The example assembles a Metadata, a File Data and an EOF PDU for a file, each with a CRC,
and parses the File Data PDU back.  Unlike the sender of the quick start, `emit_pdu` gets
the payload from an array of its own and checks that it fits, so it refuses where the other
sends an empty PDU; where neither refuses, they leave the same octets.  The file is a
parameter here.
-/

namespace EmbeddedCfdp

open CMemory

variable {T : Target} {N : NakCapacity T}

/-! ### Emitting a PDU -/

/-- The loop that copies the payload, with `left` octets to go. -/
def emitCopyLoop (out : Nat) (payload : Ptr) : (left i : Nat) → Writer Unit
  | 0, _ => return ()
  | left + 1, i => do
      let octet ← payload.load i
      store (out + i) octet
      emitCopyLoop out payload left (i + 1)

/-- The header is an in/out parameter. -/
def emitPdu (hdr : PduHeader) (payload : Ptr) (payloadLen : Size T) (out : Nat)
    (outLen : Size T) : Writer (Size T × PduHeader) := do
  let hlen : Size T := pduHeaderSize (some hdr)
  let hdr := hdr.sized (payloadLen + sz CFDP_PDU_CRC_LEN).toNat
  let n ← pduHeaderSerialize (some hdr) (some out) outLen
  if n = sz 0 ∨ outLen < hlen + payloadLen then return (sz 0, hdr)
  emitCopyLoop (out + hlen.toNat) payload payloadLen.toNat 0
  let total ← pduCrcAppend (some out) (hlen + payloadLen) outLen
  if total = sz 0 then return (sz 0, hdr)
  return (total, hdr)

theorem emitCopyLoop_puts {out : Nat} {payload : Ptr} {pre xs : List UInt8}
    (h : payload.Holds (pre ++ xs)) :
    Puts (emitCopyLoop out payload xs.length pre.length) (out + pre.length) xs () := by
  induction xs generalizing pre with
  | nil => exact Puts.pure () _
  | cons octet xs ih =>
    have hload : payload.load pre.length = .ok octet := h.load (by simp)
    have hrest := @ih (pre ++ [octet]) (by simpa using h)
    rw [List.length_append, List.length_singleton] at hrest
    exact Puts.bind (Puts.lift hload _) (Puts.bind (Puts.store _ _) hrest rfl) rfl

section Emit

variable {hdr : PduHeader} {i : Nat} {cap : Size T} {m : Object} {e : List UInt8} {p : Ptr}

theorem emitPdu_run (h32 : 32 ≤ T.sizeBits) (h : hdr.InRange) (hp : p.Holds e)
    (hfits : e.length + 28 < 2 ^ T.sizeBits) (hext : i + cap.toNat ≤ m.extent) :
    ∃ total m', emitPdu hdr p (sz e.length) i cap m =
        .ok ((total, hdr.sized (e.length + 2)), m') ∧ m.SameOutside m' i cap.toNat ∧
      (total ≠ sz 0 ↔ hdr.crcFlag = CFDP_CRC_PRESENT ∧ e.length + 2 < 65536 ∧
        headerLength hdr + e.length + 2 ≤ cap.toNat) ∧
      (total ≠ sz 0 → SizedFor (hdr.sized (e.length + 2)) e ∧
        (pduOctets (hdr.sized (e.length + 2)) e).length = total.toNat ∧
        (Ptr.mk m' i).Holds (pduOctets (hdr.sized (e.length + 2)) e)) := by
  obtain ⟨hseven, h28⟩ := h.headerLength_bounds
  have hlt := cap.isLt
  have hsize : (pduHeaderSize (some hdr) : Size T) = sz (headerLength hdr) :=
    pduHeaderSize_valid h.entityIdLength h.transactionSeqLength
  have hhlen : (sz (headerLength hdr) : Size T).toNat = headerLength hdr :=
    toNat_sz_small (by omega)
  have hplen : (sz e.length : Size T).toNat = e.length := toNat_sz (by omega)
  have hcount : (sz e.length + sz CFDP_PDU_CRC_LEN : Size T).toNat = e.length + 2 := by
    rw [sz_add]
    exact toNat_sz (by unfold CFDP_PDU_CRC_LEN; omega)
  have hshort : cap < sz (headerLength hdr) + sz e.length ↔
      cap.toNat < headerLength hdr + e.length := by
    rw [sz_add, lt_sz_iff (by omega)]
  unfold emitPdu
  rw [hsize, hcount]
  -- the payload is copied when it fits behind the header
  by_cases hfit : headerLength hdr + e.length ≤ cap.toNat
  · have hheader : (headerOctets (hdr.sized (e.length + 2))).length = headerLength hdr :=
      length_headerOctets _
    have hwrites : pduHeaderSerialize (some (hdr.sized (e.length + 2))) (some i) cap m =
        .ok (sz (headerLength hdr), m.place i (headerOctets (hdr.sized (e.length + 2)))) :=
      pduHeaderSerialize_run (h.sized _) hext (Nat.le_of_add_right_le hfit)
    have hcopy : emitCopyLoop (i + headerLength hdr) p e.length 0
        (m.place i (headerOctets (hdr.sized (e.length + 2)))) =
          .ok ((), m.place i (headerOctets (hdr.sized (e.length + 2)) ++ e)) := by
      rw [← Object.place_place_right (show i + headerLength hdr = _ by rw [hheader])]
      refine @emitCopyLoop_puts _ p [] e hp _ ?_
      rw [Object.place_extent]
      change i + headerLength hdr + e.length ≤ _
      omega
    have hpass : ¬ ((sz (headerLength hdr) : Size T) = sz 0 ∨
        cap < sz (headerLength hdr) + sz e.length) := by
      rw [hshort]
      rintro (hzero | hsmall)
      · exact sz_ne_zero (by omega) (size_lt T (by omega)) hzero
      · omega
    have happend := @pduCrcAppend_assembled T hdr i cap m e h32 h hfit hext
    rw [Writer.bind_ok hwrites, if_neg hpass, hhlen, hplen, Writer.bind_ok hcopy]
    rw [sz_add]
    -- the PDU is there; the CRC is appended, or the total is 0
    by_cases hfits : hdr.crcFlag = CFDP_CRC_PRESENT ∧ e.length + 2 < 65536 ∧
        headerLength hdr + e.length + 2 ≤ cap.toNat
    · have hsized := sizedFor_sized_crc hfits.1 hfits.2.1
      have htotal := length_pduOctets hsized
      rw [PduHeader.toNat_sized hfits.2.1] at htotal
      change _ = headerLength hdr + _ at htotal
      have hne : (sz (headerLength hdr + e.length + 2) : Size T) ≠ sz 0 :=
        sz_ne_zero (by omega) (by omega)
      rw [if_pos hfits] at happend
      rw [Writer.bind_ok happend, if_neg hne]
      refine ⟨_, _, rfl, Object.sameOutside_place (by omega), iff_of_true hne hfits, fun _ => ?_⟩
      exact ⟨hsized, by rw [toNat_sz (by omega)]; omega, Object.place_holds (by omega)⟩
    · rw [if_neg hfits] at happend
      rw [Writer.bind_ok happend, if_pos rfl]
      refine ⟨_, _, rfl, Object.sameOutside_place ?_, iff_of_false (fun hne => hne rfl) hfits,
        fun hne => (hne rfl).elim⟩
      rw [List.length_append, hheader]
      exact hfit
  · have hrefuse : cap < sz (headerLength hdr) + sz e.length := hshort.mpr (Nat.lt_of_not_le hfit)
    obtain ⟨n, m', hrun, hsame⟩ :=
      (@pduHeaderSerialize_encodes T (hdr.sized (e.length + 2))).stays_inside hext
    rw [Writer.bind_ok hrun, if_pos (Or.inr hrefuse)]
    exact ⟨_, m', rfl, hsame, iff_of_false (fun hne => hne rfl) fun hand => by omega,
      fun hne => (hne rfl).elim⟩

end Emit

/-- `hdr` comes uninitialised. -/
def fillCommonHeader (hdr : PduHeader) (type : PduType) : PduHeader :=
  { hdr with
    version := CFDP_PROTOCOL_VERSION
    pduType := type
    direction := CFDP_DIRECTION_TOWARD_RECEIVER
    transmissionMode := CFDP_TRANS_MODE_UNACKNOWLEDGED
    crcFlag := CFDP_CRC_PRESENT
    largeFileFlag := CFDP_FILE_SIZE_SMALL
    segmentationControl := CFDP_SEG_CTRL_BOUNDARIES_NOT_PRESERVED
    segmentMetadataFlag := CFDP_SEG_METADATA_ABSENT
    entityIdLength := 1
    transactionSeqLength := 2
    sourceEntityId := 1
    transactionSeqNumber := 42
    destinationEntityId := 2 }

/-- An array of `n` octets. -/
def array (n : Nat) : Object := Object.full (List.replicate n 0)

/-- What the three `build_` functions have in common: a payload is serialised into an array of
    `room` octets and emitted. -/
def buildPdu (type : PduType) (x : DataField N) (room : Nat) (out : Nat) (outLen : Size T) :
    Writer (Size T × PduHeader) := do
  let hdr := fillCommonHeader default type
  let (plen, payload) ← (x.serialiser hdr).run (some 0) (sz room) (array room)
  emitPdu hdr ⟨payload, 0⟩ plen out outLen

/-- A string literal, with its terminator. -/
def literal (octets : List UInt8) : Option Ptr := some ⟨Object.full (octets ++ [0]), 0⟩

def exampleMetadata (fileLen : Size T) : MetadataPdu :=
  { closureRequested := false
    checksumType := CFDP_CHECKSUM_MODULAR
    fileSize := UInt64.ofNat fileLen.toNat
    sourceFilename := literal [0x73, 0x72, 0x63, 0x2E, 0x64, 0x61, 0x74]
    sourceFilenameLen := 7
    destinationFilename := literal [0x64, 0x73, 0x74, 0x2E, 0x64, 0x61, 0x74]
    destinationFilenameLen := 7
    options := none
    optionsLen := 0 }

def exampleFileData (file : Ptr) (fileLen : Size T) : FileDataPdu T :=
  { offset := 0
    fileData := some file
    fileDataLen := fileLen
    recordContinuation := 0
    segmentMetadata := none
    segmentMetadataLen := 0 }

def exampleEof (fileLen : Size T) (fileChecksum : UInt32) : EofPdu :=
  { conditionCode := CFDP_COND_NO_ERROR
    fileChecksum := fileChecksum
    fileSize := UInt64.ofNat fileLen.toNat
    faultLocationEntityId := 0
    faultLocationLen := 0 }

def buildMetadata (N : NakCapacity T) (fileLen : Size T) :
    (out : Nat) → (outLen : Size T) → Writer (Size T × PduHeader) :=
  buildPdu CFDP_PDU_TYPE_DIRECTIVE (.metadata (exampleMetadata fileLen) : DataField N) 64

def buildFileData (N : NakCapacity T) (file : Ptr) (fileLen : Size T) :
    (out : Nat) → (outLen : Size T) → Writer (Size T × PduHeader) :=
  buildPdu CFDP_PDU_TYPE_FILE_DATA (.fileData (exampleFileData file fileLen) : DataField N) 64

def buildEof (N : NakCapacity T) (file : Ptr) (fileLen : Size T) (out : Nat) (outLen : Size T) :
    Writer (Size T × PduHeader) := do
  let fileChecksum ← checksumCompute (some file) fileLen
  buildPdu CFDP_PDU_TYPE_DIRECTIVE (.eof (exampleEof fileLen fileChecksum) : DataField N) 16
    out outLen

/-- What the receiver reconstructs and prints, unless it discards the PDU.  `fd` comes
    uninitialised, and whether it was filled in is not checked. -/
def parseAndVerify (pdu : Ptr) (pduLen : Size T) (fd : FileDataPdu T) :
    Except Fault (Option (FileDataPdu T × UInt32)) := do
  if ¬ (← pduCrcVerify (some pdu) pduLen) then return none
  let (hlen, hdr) ← pduHeaderDeserialize (some pdu) pduLen (some default)
  let hdr := hdr.getD default
  let payloadLen ← pduPayloadSize (some hdr)
  let (_, out) ← fileDataDeserialize (some (pdu.add hlen.toNat)) payloadLen hdr.largeFileFlag
    hdr.segmentMetadataFlag (some fd)
  let fd := out.getD fd
  let checksum ← checksumUpdate 0 fd.offset fd.fileData fd.fileDataLen
  return some (fd, checksum)

/-- The three arrays of `main`, and what is made of the second. -/
structure Transfer (T : Target) where
  metadataPdu : Object
  fileDataPdu : Object
  eofPdu : Object
  received : Option (FileDataPdu T × UInt32)

def exampleMain (N : NakCapacity T) (file : Ptr) (fileLen : Size T) (fd : FileDataPdu T) :
    Except Fault (Transfer T) := do
  let (_, metadataPdu) ← buildMetadata N fileLen 0 (sz 96) (array 96)
  let (_, fileDataPdu) ← buildFileData N file fileLen 0 (sz 96) (array 96)
  let (_, eofPdu) ← buildEof N file fileLen 0 (sz 32) (array 32)
  let received ← parseAndVerify ⟨fileDataPdu, 0⟩ (sz 96 : Size T) fd
  return { metadataPdu, fileDataPdu, eofPdu, received }

section Transfer

variable {hdr : PduHeader} {e : List UInt8}

theorem fillCommonHeader_inRange {type : PduType} (h : IsFlag type) (hdr : PduHeader) :
    (fillCommonHeader hdr type).InRange :=
  ⟨rfl, rfl, rfl, h, (by decide : IsFlag CFDP_DIRECTION_TOWARD_RECEIVER),
    (by decide : IsFlag CFDP_TRANS_MODE_UNACKNOWLEDGED), (by decide : IsFlag CFDP_CRC_PRESENT),
    (by decide : IsFlag CFDP_FILE_SIZE_SMALL),
    (by decide : IsFlag CFDP_SEG_CTRL_BOUNDARIES_NOT_PRESERVED),
    (by decide : IsFlag CFDP_SEG_METADATA_ABSENT)⟩

/-- A PDU at the front of an array, as a receiver of the whole array sees it. -/
theorem holds_array {m : Object} {pdu : List UInt8} {n : Nat} (hm : (array n).SameOutside m 0 n)
    (h : (Ptr.mk m 0).Holds pdu) :
    ∃ z, (Ptr.mk m 0).Holds (pdu ++ z) ∧ (pdu ++ z).length = n := by
  obtain ⟨z, hz⟩ := h
  have hextent : m.extent = n := by
    rw [hm.extent]
    exact List.length_replicate
  have hlength : m.octets.length = n := by
    rw [hm.length]
    exact List.length_replicate
  refine ⟨z, ?_, ?_⟩
  · rw [hz]
    exact List.prefix_refl _
  · rw [hz, Ptr.readable, List.drop_zero, List.length_take, hextent, hlength, Nat.min_self]

theorem array_extent (n : Nat) : (array n).extent = n := List.length_replicate

/-- A payload that fits its array is emitted, if the PDU fits the other one. -/
theorem buildPdu_run (h32 : 32 ≤ T.sizeBits) {type : PduType} (htype : IsFlag type)
    {x : DataField N} (hsourced : (x.serialiser (fillCommonHeader default type)).Sourced)
    (he : (x.serialiser (fillCommonHeader default type)).encoding = some e) {room n : Nat}
    (hroom : e.length ≤ room) (hn : e.length + 10 ≤ n) (hsmall : room < 65536 ∧ n < 65536) :
    ∃ out m z, buildPdu type x room 0 (sz n : Size T) (array n) = .ok (out, m) ∧
      SizedFor ((fillCommonHeader default type).sized (e.length + 2)) e ∧
      (Ptr.mk m 0).Holds (pduOctets ((fillCommonHeader default type).sized (e.length + 2)) e ++ z) ∧
      (pduOctets ((fillCommonHeader default type).sized (e.length + 2)) e ++ z).length =
        (sz n : Size T).toNat := by
  have hpow := T.two_pow_ge_of_le h32
  have hroomSize : (sz room : Size T).toNat = room := toNat_sz_small hsmall.1
  have hsize : (sz n : Size T).toNat = n := toNat_sz_small hsmall.2
  have hencodes := (x.serialiser (fillCommonHeader default type)).encodes h32 hsourced
  rw [he] at hencodes
  have hserialise := @Encodes.writes T _ e hencodes 0 (sz room) (array room)
    (by rw [hroomSize, array_extent, Nat.zero_add]) (by rw [hroomSize]; exact hroom)
  have hholds : (Ptr.mk ((array room).place 0 e) 0).Holds e :=
    Object.place_holds (by rw [array_extent, Nat.zero_add]; exact hroom)
  obtain ⟨total, m, hemit, hsame, htotal, hpdu⟩ := @emitPdu_run T _ 0 (sz n) (array n) e _ h32
    (fillCommonHeader_inRange htype default) hholds (by omega)
    (by rw [hsize, array_extent, Nat.zero_add])
  have hlength : headerLength (fillCommonHeader default type) = 8 := rfl
  have hne : total ≠ sz 0 := htotal.mpr ⟨rfl, by omega, by omega⟩
  obtain ⟨hsized, _, hholds'⟩ := hpdu hne
  rw [hsize] at hsame
  obtain ⟨z, hz, hwhole⟩ := holds_array hsame hholds'
  refine ⟨(total, (fillCommonHeader default type).sized (e.length + 2)), m, z, ?_, hsized, hz,
    hwhole.trans hsize.symm⟩
  unfold buildPdu
  rw [Writer.bind_ok (Writer.lift_ok hserialise)]
  exact hemit

/-- Of a File Data PDU in an array, the file data is reconstructed. -/
theorem parseAndVerify_run (h32 : 32 ≤ T.sizeBits) (hrange : hdr.InRange) (hsized : SizedFor hdr e)
    {p : Ptr} {z : List UInt8} {len : Size T} (h : p.Holds (pduOctets hdr e ++ z))
    (hlen : (pduOctets hdr e ++ z).length = len.toNat) {fd : FileDataPdu T}
    (hrun : ∀ old, fileDataDeserialize (some (p.add (headerLength hdr))) (sz e.length)
      hdr.received.largeFileFlag hdr.received.segmentMetadataFlag (some old) =
        .ok (sz e.length, some fd))
    {sum : UInt32} (hsum : checksumUpdate 0 fd.offset fd.fileData fd.fileDataLen = .ok sum)
    (old : FileDataPdu T) : parseAndVerify p len old = .ok (some (fd, sum)) := by
  obtain ⟨hseven, h28⟩ := hrange.headerLength_bounds
  obtain ⟨hverify, hheader, hsize, _⟩ := pduOctets_received h32 hrange hsized h hlen default
  have hhlen : (sz (headerLength hdr) : Size T).toNat = headerLength hdr :=
    toNat_sz_small (by omega)
  unfold parseAndVerify
  rw [hverify, ok_bind, if_neg (not_not.mpr rfl), hheader, ok_bind]
  dsimp only [Option.getD_some]
  rw [hsize, ok_bind, hhlen, hrun, ok_bind]
  dsimp only [Option.getD_some]
  rw [hsum]
  rfl

/-- What is built is received, by a receiver that is handed the whole array. -/
theorem buildPdu_received (h32 : 32 ≤ T.sizeBits) {type : PduType} (htype : IsFlag type)
    {x : DataField N} (hx : x.InRange) (hxtype : type = x.pduType)
    (hsourced : (x.serialiser (fillCommonHeader default type)).Sourced)
    (he : (x.serialiser (fillCommonHeader default type)).encoding = some e) {room n : Nat}
    (hroom : e.length ≤ room) (hn : e.length + 10 ≤ n) (hsmall : room < 65536 ∧ n < 65536) :
    ∃ out m hdr x', buildPdu type x room 0 (sz n : Size T) (array n) = .ok (out, m) ∧
      receivePdu N (some ⟨m, 0⟩) (sz n) = .ok (some (hdr, x')) ∧
      x.ReceivedAs (fillCommonHeader default type) x' := by
  obtain ⟨out, m, z, hrun, hsized, hholds, hlen⟩ :=
    buildPdu_run h32 htype hsourced he hroom hn hsmall
  have hrange := (fillCommonHeader_inRange htype default).sized (e.length + 2)
  obtain ⟨hpayload, hreceive⟩ := receivePdu_pduOctets (N := N) h32 hrange hsized hholds hlen
  obtain ⟨r, hdec, hreceived⟩ := DataField.decode_encoding hx hsourced hxtype he hpayload
  have hsame : DataField.decode N _ e ((fillCommonHeader default type).sized (e.length + 2)) =
    some r := hdec
  rw [DataField.decode_received, hsame] at hreceive
  exact ⟨out, m, _, r.2, hrun, hreceive, hreceived⟩

theorem readable_literal (octets : List UInt8) : Readable (literal octets) octets.length := by
  apply (Object.holds_whole (octets ++ [0])).readable
  rw [List.length_append]
  exact Nat.le_add_right _ _

theorem exampleMetadata_encoding (fileLen : Size T) :
    (exampleMetadata fileLen).Sourced ∧ (exampleMetadata fileLen).Given ∧
      ∃ e : List UInt8, metadataEncoding (exampleMetadata fileLen) CFDP_FILE_SIZE_SMALL = some e ∧
        e.length = 22 := by
  have hsourced : (exampleMetadata fileLen).Sourced := by
    refine ⟨readable_literal _, readable_literal _, ?_⟩
    rintro q ⟨⟩
  have hgiven : (exampleMetadata fileLen).Given :=
    ⟨(fun hnull => nomatch hnull), (fun hnull => nomatch hnull), fun _ => rfl⟩
  obtain ⟨f, henc, _⟩ := metadataEncoding_eq CFDP_FILE_SIZE_SMALL hgiven
  refine ⟨hsourced, hgiven, _, henc, ?_⟩
  obtain ⟨hpass, hnames⟩ := Option.ite_none_left_eq_some.mp henc
  rw [toNat_pos_iff_uint16] at hpass
  rw [length_withNames hsourced hpass hnames, length_metadataFixed]
  rfl

/-- The file data of a file, as the serialiser encodes it. -/
theorem exampleFileData_encoding {file : Ptr} {xs : List UInt8} {fileLen : Size T}
    (h : file.Holds xs) (hlen : xs.length = fileLen.toNat)
    (hfits : xs.length + 4 < 2 ^ T.sizeBits) :
    (Serialiser.fileData (N := N) (some (exampleFileData file fileLen)) CFDP_FILE_SIZE_SMALL
      CFDP_SEG_METADATA_ABSENT).Sourced ∧
    ∃ y, fileDataOf CFDP_FILE_SIZE_SMALL CFDP_SEG_METADATA_ABSENT
        (exampleFileData file fileLen) = some y ∧ y.encode.length = xs.length + 4 := by
  -- four octets of offset in front, and no segment metadata
  have hsize : fileDataSize CFDP_FILE_SIZE_SMALL CFDP_SEG_METADATA_ABSENT
      (exampleFileData file fileLen) = xs.length + 4 := by
    rw [hlen, Nat.add_comm]
    exact congrArg (· + _) (Nat.zero_add 4)
  have hdata : Readable (exampleFileData file fileLen).fileData
      (exampleFileData file fileLen).fileDataLen.toNat := h.readable (Nat.le_of_eq hlen.symm)
  have hmeta : Readable (exampleFileData file fileLen).segmentMetadata
      (exampleFileData file fileLen).segmentMetadataLen.toNat := by
    rintro q ⟨⟩
  have hpass : ¬ (((exampleFileData file fileLen).fileData.isNone ∧
      (exampleFileData file fileLen).fileDataLen > sz 0) ∨
      ¬ segmentMetadataConsistent (exampleFileData file fileLen) CFDP_SEG_METADATA_ABSENT) := by
    rintro (⟨hnull, _⟩ | hother)
    · cases hnull
    · exact hother rfl
  refine ⟨⟨by rw [hsize]; exact hfits, hdata, hmeta⟩, _, dif_neg hpass, ?_⟩
  rw [length_encode_fileDataOf hdata hmeta (dif_neg hpass), hsize]

theorem readable_view {largeFileFlag : LargeFileFlag} {segmentMetadataFlag : SegMetadataFlag}
    {y : FileDataItem largeFileFlag segmentMetadataFlag} {p : Ptr} (h : p.Holds y.encode)
    (hfits : y.encode.length < 2 ^ T.sizeBits) :
    Readable (y.view (T := T) p).fileData (y.view (T := T) p).fileDataLen.toNat := by
  rw [toNat_view_fileDataLen hfits]
  exact readable_spanAt (holds_fileData h)

/-- The file data that was built is what is parsed. -/
theorem buildFileData_parsed (N : NakCapacity T) (h32 : 32 ≤ T.sizeBits) {file : Ptr}
    {xs : List UInt8} {fileLen : Size T} (h : file.Holds xs) (hlen : xs.length = fileLen.toNat)
    (hshort : xs.length ≤ 60) :
    ∃ out m fd, buildFileData N file fileLen 0 (sz 96) (array 96) = .ok (out, m) ∧
      fd.offset = 0 ∧ octetsAt fd.fileData fd.fileDataLen.toNat = xs ∧
      ∀ old, parseAndVerify ⟨m, 0⟩ (sz 96 : Size T) old =
        .ok (some (fd, 0 + checksumSum 0 xs)) := by
  have hpow := T.two_pow_ge_of_le h32
  obtain ⟨hsourced, y, hy, hlength⟩ := exampleFileData_encoding (N := N) h hlen (by omega)
  obtain ⟨out, m, z, hbuild, hsized, hholds, hlen'⟩ :=
    @buildPdu_run T N y.encode h32 CFDP_PDU_TYPE_FILE_DATA (by decide)
      (.fileData (exampleFileData file fileLen)) hsourced
      (congrArg (Option.map FileDataItem.encode) hy) 64 96 (by omega) (by omega) (by decide)
  have hrange := (fillCommonHeader_inRange (by decide : IsFlag CFDP_PDU_TYPE_FILE_DATA)
    default).sized (y.encode.length + 2)
  obtain ⟨hpayload, _⟩ := receivePdu_pduOctets (N := N) h32 hrange hsized hholds hlen'
  have hsize : y.encode.length = (sz y.encode.length : Size T).toNat :=
    (toNat_sz (by omega)).symm
  have hview := fileDataReceived_view hsourced.1 hsourced.2.1 hsourced.2.2 hy hpayload
  have hreadable := readable_view (T := T) hpayload (by omega)
  have hrun := fun old =>
    (fileDataDeserialize_decodes hpayload hsize old).accepts_exact y.decode_encode hsize
  generalize y.view (T := T) ((Ptr.mk m 0).add _) = fd at hview hreadable hrun
  -- the program sends one segment, so the offset is 0 and the data is the file
  have hoffset : fd.offset = 0 := UInt64.toNat_inj.mp (hview.offset.trans (Nat.zero_mod _))
  have hdata : octetsAt fd.fileData fd.fileDataLen.toNat = xs := by
    rw [hview.fileData, ← h.octetsAt, hlen]
    rfl
  refine ⟨out, m, fd, hbuild, hoffset, hdata, ?_⟩
  apply parseAndVerify_run h32 hrange hsized hholds hlen' hrun
  rw [hoffset, checksumUpdate_octetsAt hreadable, hdata]

end Transfer

/-- **Main result.** The example delivers every file of up to 60 octets, which is as much as
    its payload array takes: the receiver reconstructs the file at offset 0 with the file's
    checksum, and the other two PDUs carry its size, its names and that checksum. -/
theorem example_transfer (N : NakCapacity T) (h32 : 32 ≤ T.sizeBits) {file : Ptr}
    {xs : List UInt8} {fileLen : Size T} (h : file.Holds xs) (hlen : xs.length = fileLen.toNat)
    (hshort : xs.length ≤ 60) (old : FileDataPdu T) :
    ∃ t fd sum, exampleMain N file fileLen old = .ok t ∧ t.received = some (fd, sum) ∧
      fd.offset = 0 ∧ octetsAt fd.fileData fd.fileDataLen.toNat = xs ∧
      checksumCompute (some file) fileLen = .ok sum ∧
      (∃ hdr md, receivePdu N (some ⟨t.metadataPdu, 0⟩) (sz 96) =
          .ok (some (hdr, .metadata md)) ∧
        (exampleMetadata fileLen).ReceivedAs CFDP_FILE_SIZE_SMALL md) ∧
      ∃ hdr eof, receivePdu N (some ⟨t.eofPdu, 0⟩) (sz 32) = .ok (some (hdr, .eof eof)) ∧
        eof.fileChecksum = sum ∧ eof.fileSize.toNat = xs.length := by
  have hpow := T.two_pow_ge_of_le h32
  have hfile : Readable (some file) fileLen.toNat := h.readable (Nat.le_of_eq hlen.symm)
  have hwhole : octetsAt (some file) fileLen.toNat = xs := by rw [← hlen, h.octetsAt]
  have hsum : checksumCompute (some file) fileLen = .ok (0 + checksumSum 0 xs) := by
    rw [checksumCompute, checksumUpdate_octetsAt hfile, hwhole]
  -- Metadata
  obtain ⟨hsourced, hgiven, e, he, hlength⟩ := exampleMetadata_encoding fileLen
  obtain ⟨out, metadataPdu, hdr, x', hbuildMetadata, hreceiveMetadata, hmetadata⟩ :=
    @buildPdu_received T N e h32 CFDP_PDU_TYPE_DIRECTIVE (by decide)
      (.metadata (exampleMetadata fileLen))
      ⟨(by decide : CFDP_CHECKSUM_MODULAR ≤ 15), hgiven⟩ rfl hsourced he 64 96 (by omega)
      (by omega) (by decide)
  -- File Data
  obtain ⟨out', fileDataPdu, fd, hbuildFileData, hoffset, hdata, hparse⟩ :=
    buildFileData_parsed N h32 h hlen hshort
  -- EOF
  have heofEncoding := eofEncoding_eq_some.mpr ⟨Or.inl rfl,
    Eq.refl (eofFixed (exampleEof fileLen (0 + checksumSum 0 xs)) CFDP_FILE_SIZE_SMALL ++
      faultLocationTail (exampleEof fileLen (0 + checksumSum 0 xs)).faultLocation)⟩
  have heofLength := length_eofEncoding heofEncoding
  change _ = 10 at heofLength
  obtain ⟨out'', eofPdu, hdr'', x'', hbuildEof, hreceiveEof, heof⟩ :=
    @buildPdu_received T N _ h32 CFDP_PDU_TYPE_DIRECTIVE (by decide)
      (.eof (exampleEof fileLen (0 + checksumSum 0 xs))) (by decide : CFDP_COND_NO_ERROR ≤ 15)
      rfl trivial heofEncoding 16 32 (by omega) (by omega) (by decide)
  cases hmetadata with
  | metadata hmetadata =>
    cases heof with
    | eof heof =>
      refine ⟨⟨metadataPdu, fileDataPdu, eofPdu, _⟩, _, _, ?_, rfl, hoffset, hdata, hsum,
        ⟨_, _, hreceiveMetadata, hmetadata⟩, _, _, hreceiveEof, heof.fileChecksum, ?_⟩
      · have hbuildMetadata' : buildMetadata N fileLen 0 (sz 96) (array 96) =
            .ok (out, metadataPdu) := hbuildMetadata
        have hbuildEof' : buildEof N file fileLen 0 (sz 32) (array 32) = .ok (out'', eofPdu) := by
          rw [buildEof, Writer.bind_ok (Writer.lift_ok hsum)]
          exact hbuildEof
        rw [exampleMain, hbuildMetadata', ok_bind]
        dsimp only
        rw [hbuildFileData, ok_bind]
        dsimp only
        rw [hbuildEof', ok_bind]
        dsimp only
        rw [hparse old]
        rfl
      · rw [heof.fileSize]
        change (UInt64.ofNat fileLen.toNat).toNat % 4294967296 = _
        rw [UInt64.toNat_ofNat', ← hlen]
        omega

/-- `g_file` -/
def sampleFile : List UInt8 :=
  [0x4F, 0x70, 0x65, 0x6E, 0x53, 0x70, 0x61, 0x63, 0x65, 0x43, 0x6F, 0x64, 0x65, 0x20,
   0x43, 0x46, 0x44, 0x50, 0x20, 0x64, 0x65, 0x6D, 0x6F, 0x20, 0x70, 0x61, 0x79, 0x6C,
   0x6F, 0x61, 0x64]

theorem example_transfer_sample :
    ∃ t fd sum, exampleMain defaultNakCapacity ⟨Object.full sampleFile, 0⟩ (sz 31) default =
        .ok t ∧ t.received = some (fd, sum) ∧ fd.offset = 0 ∧
      octetsAt fd.fileData fd.fileDataLen.toNat = sampleFile ∧
      ∃ hdr eof, receivePdu defaultNakCapacity (some ⟨t.eofPdu, 0⟩) (sz 32) =
        .ok (some (hdr, .eof eof)) ∧ eof.fileChecksum = sum := by
  obtain ⟨t, fd, sum, hrun, hreceived, hoffset, hdata, _, _, hdr, eof, heof, hsum, _⟩ :=
    @example_transfer .checked32 defaultNakCapacity (Nat.le_refl 32) _ _ (sz 31)
      (Object.holds_whole sampleFile) rfl (by decide) default
  exact ⟨t, fd, sum, hrun, hreceived, hoffset, hdata, hdr, eof, heof, hsum⟩

/-! ### Parsing any octets -/

section Parse

variable {p : Ptr} {xs : List UInt8} {len : Size T}

/-- Whatever else has been decoded, the file data has not. -/
structure FileDataPdu.SameData (fd fd' : FileDataPdu T) : Prop where
  offset : fd'.offset = fd.offset
  fileData : fd'.fileData = fd.fileData
  fileDataLen : fd'.fileDataLen = fd.fileDataLen

theorem segmentMetadataRead_keeps {fd fd' : FileDataPdu T} {pos : Size T}
    (h : segmentMetadataRead p len fd = .ok (pos, fd')) : fd.SameData fd' ∧ pos.toNat ≤ 64 := by
  unfold segmentMetadataRead at h
  -- both refusals leave the fields; success sets the metadata only
  by_cases hempty : len < sz 1
  · rw [if_pos hempty] at h
    cases h
    exact ⟨⟨rfl, rfl, rfl⟩, Nat.zero_le _⟩
  · rw [if_neg hempty] at h
    obtain ⟨octet, _, h⟩ := bind_eq_ok.mp h
    dsimp only at h
    by_cases hshort : len < sz (octet &&& 0x3F).toNat + sz 1
    · rw [if_pos hshort] at h
      cases h
      exact ⟨⟨rfl, rfl, rfl⟩, Nat.zero_le _⟩
    · rw [if_neg hshort] at h
      cases h
      have hle := and_six_bits_le octet
      refine ⟨⟨rfl, rfl, rfl⟩, ?_⟩
      rw [sz_add, toNat_sz_small (by omega)]
      omega

/-- What follows the segment metadata: the last return is of `len`, which is not 0 behind the
    check on it. -/
theorem fileDataRefused_keeps {c : Prop} [Decidable c] {largeFileFlag : LargeFileFlag}
    {old fd : FileDataPdu T} {pos : Size T} {rest : Except Fault (Size T × Option (FileDataPdu T))}
    {out : Option (FileDataPdu T)}
    (h : (if c then pure (sz 0, some fd)
      else if len < pos + sz (fileSizeOctets largeFileFlag).toNat then pure (sz 0, some fd)
      else rest) = .ok (sz 0, out))
    (hsame : old.SameData fd) (hpos : pos.toNat ≤ 64)
    (hrest : ∀ {n out}, rest = .ok (n, out) → n = len) :
    ∃ fd', out = some fd' ∧ old.SameData fd' := by
  by_cases hrefused : c
  · rw [if_pos hrefused] at h
    cases h
    exact ⟨fd, rfl, hsame⟩
  · rw [if_neg hrefused] at h
    by_cases hshort : len < pos + sz (fileSizeOctets largeFileFlag).toNat
    · rw [if_pos hshort] at h
      cases h
      exact ⟨fd, rfl, hsame⟩
    · rw [if_neg hshort] at h
      obtain ⟨height, hfour⟩ := length_fileSizeOctets largeFileFlag
      -- past both checks the rest returns the length, which is not 0 here
      exfalso
      apply hshort
      rw [← hrest h, ← sz_toNat pos, sz_add, BitVec.lt_def, toNat_sz_small (by omega),
        toNat_sz_small (by omega)]
      omega

/-- A payload that is refused leaves the file data as it was. -/
theorem fileDataDeserialize_keeps {largeFileFlag : LargeFileFlag}
    {segmentMetadataFlag : SegMetadataFlag} {old : FileDataPdu T} {out : Option (FileDataPdu T)}
    (h : fileDataDeserialize (some p) len largeFileFlag segmentMetadataFlag (some old) =
      .ok (sz 0, out)) : ∃ fd, out = some fd ∧ old.SameData fd := by
  unfold fileDataDeserialize at h
  dsimp only at h
  -- returning 0 is a refusal before the file data was assigned, with or without metadata
  by_cases hpresent : segmentMetadataFlag = CFDP_SEG_METADATA_PRESENT
  · rw [if_pos hpresent] at h
    obtain ⟨⟨pos, fd⟩, hmetadata, h⟩ := bind_eq_ok.mp h
    obtain ⟨hsame, hpos⟩ := segmentMetadataRead_keeps hmetadata
    refine fileDataRefused_keeps h ⟨hsame.offset, hsame.fileData, hsame.fileDataLen⟩ hpos ?_
    intro n out hrest
    obtain ⟨_, _, hrest⟩ := bind_eq_ok.mp hrest
    obtain ⟨_, _, hrest⟩ := bind_eq_ok.mp hrest
    cases hrest
    rfl
  · rw [if_neg hpresent] at h
    obtain ⟨⟨pos, fd⟩, hmetadata, h⟩ := bind_eq_ok.mp h
    cases hmetadata
    dsimp only at h
    refine fileDataRefused_keeps h ⟨rfl, rfl, rfl⟩ (Nat.zero_le _) ?_
    intro n out hrest
    obtain ⟨_, _, hrest⟩ := bind_eq_ok.mp hrest
    obtain ⟨_, _, hrest⟩ := bind_eq_ok.mp hrest
    cases hrest
    rfl

theorem checksumUpdate_nothing (offset : UInt64) :
    checksumUpdate 0 offset (some ⟨Object.full [], 0⟩) (sz 1 : Size T) = .error .outOfBounds := by
  have hone : (sz 1 : Size T).toNat = 1 := toNat_sz_small (by decide)
  unfold checksumUpdate
  dsimp only
  rw [if_neg (sz_ne_zero Nat.one_pos (size_lt T (by decide))), hone]
  rfl

/-- Behind an accepted PDU the file data is decoded over what `fd` comes with. -/
theorem parseAndVerify_of_pduAt (h32 : 32 ≤ T.sizeBits) (h : p.Holds xs)
    (hlen : xs.length = len.toNat) {hsize : Nat} {hdr : PduHeader} (hat : PduAt xs hsize hdr)
    (old : FileDataPdu T) :
    parseAndVerify p len old =
      (fileDataDeserialize (some (p.add hsize)) (sz (payloadLength hdr)) hdr.largeFileFlag
        hdr.segmentMetadataFlag (some old)) >>= fun r =>
      (checksumUpdate 0 (r.2.getD old).offset (r.2.getD old).fileData
        (r.2.getD old).fileDataLen) >>= fun sum => .ok (some (r.2.getD old, sum)) := by
  obtain ⟨b, hverify, haccept⟩ := pduCrcVerify_spec h32 h hlen
  have htrue : b = true := haccept.mpr ⟨hsize, hdr, hat⟩
  subst htrue
  obtain ⟨_, h28, _⟩ := length_of_headerDecode hat.header
  have hhsize : (sz hsize : Size T).toNat = hsize := toNat_sz_small (by omega)
  unfold parseAndVerify
  rw [hverify, ok_bind, if_neg (not_not.mpr rfl), pduHeaderDeserialize_run h hlen hat.header,
    ok_bind]
  dsimp only [Option.getD_some]
  rw [pduPayloadSize_eq, ok_bind, hhsize]
  rfl

/-- What is accepted is not discarded, whatever `fd` comes with. -/
theorem parseAndVerify_reports (h32 : 32 ≤ T.sizeBits) (h : p.Holds xs)
    (hlen : xs.length = len.toNat) {hsize : Nat} {hdr : PduHeader} (hat : PduAt xs hsize hdr)
    (old : FileDataPdu T) : parseAndVerify p len old ≠ .ok none := by
  rw [parseAndVerify_of_pduAt h32 h hlen hat]
  intro hnone
  obtain ⟨r, _, hrest⟩ := bind_eq_ok.mp hnone
  obtain ⟨sum, _, hreport⟩ := bind_eq_ok.mp hrest
  exact Option.some_ne_none _ (Except.ok.inj hreport)

/-- **Main result.** On any octets, `parse_and_verify` discards exactly what the CRC check
    refuses, and where the file data codec accepts the payload it reports what this decoded,
    with its checksum.  Where the codec refuses, which is not checked, it goes by the memory
    that `fd` comes with, and some contents of this make it read outside every object. -/
theorem parse_any (h32 : 32 ≤ T.sizeBits) (h : p.Holds xs) (hlen : xs.length = len.toNat) :
    ∃ accepted, pduCrcVerify (some p) len = .ok accepted ∧
      (∀ old, parseAndVerify p len old = .ok none ↔ accepted = false) ∧
      (accepted = true → ∃ (hsize payloadLen n : Size T) (hdr : PduHeader)
        (out : Option (FileDataPdu T)),
        pduHeaderDeserialize (some p) len (some default) = .ok (hsize, some hdr) ∧
        pduPayloadSize (some hdr) = .ok payloadLen ∧
        fileDataDeserialize (some (p.add hsize.toNat)) payloadLen hdr.largeFileFlag
          hdr.segmentMetadataFlag (some default) = .ok (n, out) ∧
        (n ≠ sz 0 → ∃ fd, out = some fd ∧ ∀ old, parseAndVerify p len old =
          .ok (some (fd, checksumSum fd.offset (octetsAt fd.fileData fd.fileDataLen.toNat)))) ∧
        (n = sz 0 → ∃ old, parseAndVerify p len old = .error .outOfBounds)) := by
  obtain ⟨b, hverify, haccept⟩ := pduCrcVerify_spec h32 h hlen
  refine ⟨b, hverify, ?_, ?_⟩
  · intro old
    cases b with
    | false =>
      refine iff_of_true ?_ rfl
      unfold parseAndVerify
      rw [hverify, ok_bind, if_pos (by decide)]
      rfl
    | true =>
      obtain ⟨hsize, hdr, hat⟩ := haccept.mp rfl
      exact iff_of_false (parseAndVerify_reports h32 h hlen hat old) (by decide)
  · intro htrue
    obtain ⟨hsize, hdr, hat⟩ := haccept.mp htrue
    have hparse := parseAndVerify_of_pduAt h32 h hlen hat
    obtain ⟨_, h28, _⟩ := length_of_headerDecode hat.header
    have hcomplete := hat.complete
    have hpayload := payloadLength_le hdr
    have hdfl := hdr.dataFieldLength.toNat_lt
    have hhsize : (sz hsize : Size T).toNat = hsize := toNat_sz_small (by omega)
    have hholds : (p.add hsize).Holds (slice xs hsize (payloadLength hdr)) := h.slice (by omega)
    have hplen : (slice xs hsize (payloadLength hdr)).length =
        (sz (payloadLength hdr) : Size T).toNat := by
      rw [length_slice (by omega), toNat_sz_small (by omega)]
    have hbehind : fileDataDeserialize (some (p.add (sz hsize : Size T).toNat))
        (sz (payloadLength hdr) : Size T) hdr.largeFileFlag hdr.segmentMetadataFlag =
          fileDataDeserialize (some (p.add hsize)) (sz (payloadLength hdr)) hdr.largeFileFlag
            hdr.segmentMetadataFlag := by rw [hhsize]
    have hdecodes := fun old => @fileDataDeserialize_decodes T hdr.largeFileFlag
      hdr.segmentMetadataFlag _ _ _ hholds hplen old
    cases hdec : @FileDataItem.decode hdr.largeFileFlag hdr.segmentMetadataFlag
        (slice xs hsize (payloadLength hdr)) with
    | some y =>
      have hrun := fun old => (hdecodes old).accepts_exact hdec hplen
      have hencode := FileDataItem.encode_of_decode hdec
      have hreadable := readable_view (T := T) (y := y) (p := p.add hsize)
        (by rw [hencode]; exact hholds) (by rw [hencode, hplen]; exact BitVec.isLt _)
      refine ⟨sz hsize, sz (payloadLength hdr), sz (payloadLength hdr), hdr, _,
        pduHeaderDeserialize_run h hlen hat.header _, pduPayloadSize_eq hdr,
        (congrFun hbehind _).trans (hrun default), ?_, ?_⟩
      · intro _
        refine ⟨_, rfl, fun old => ?_⟩
        rw [hparse old, hrun old, ok_bind]
        dsimp only [Option.getD_some]
        rw [checksumUpdate_octetsAt hreadable, ok_bind, UInt32.zero_add]
      · intro hzero
        have hlength := y.length_encode
        have hwidth := (length_fileSizeOctets hdr.largeFileFlag).2
        rw [hencode, hplen, hzero, toNat_sz_small (by decide)] at hlength
        omega
    | none =>
      obtain ⟨out, hrun⟩ := (hdecodes default).refuses (by rw [hdec, Option.map_none])
      refine ⟨sz hsize, sz (payloadLength hdr), sz 0, hdr, out,
        pduHeaderDeserialize_run h hlen hat.header _, pduPayloadSize_eq hdr,
        (congrFun hbehind _).trans hrun, fun hne => (hne rfl).elim, fun _ => ?_⟩
      -- a pointer to nothing, with a length of 1
      refine ⟨{ (default : FileDataPdu T) with
        fileData := some ⟨Object.full [], 0⟩, fileDataLen := sz 1 }, ?_⟩
      obtain ⟨out', hrun'⟩ := (hdecodes { (default : FileDataPdu T) with
        fileData := some ⟨Object.full [], 0⟩, fileDataLen := sz 1 }).refuses
          (by rw [hdec, Option.map_none])
      obtain ⟨fd, rfl, hkept⟩ := fileDataDeserialize_keeps hrun'
      rw [hparse, hrun', ok_bind, Option.getD_some, hkept.fileData, hkept.fileDataLen,
        checksumUpdate_nothing]
      rfl

end Parse

/-- A PDU with a good CRC, and a payload too short for an offset. -/
theorem parse_any_sample :
    ∃ old, parseAndVerify ⟨Object.full (pduOctets sampleCrcHeader [0x0C]), 0⟩
      (sz 10 : Size .checked32) old = .error .outOfBounds := by
  obtain ⟨accepted, hverify, _, haccepted⟩ := @parse_any .checked32 _ _ (sz 10)
    (Nat.le_refl 32) (Object.holds_whole (pduOctets sampleCrcHeader [0x0C])) rfl
  have htrue : (pduCrcVerify (some ⟨Object.full (pduOctets sampleCrcHeader [0x0C]), 0⟩)
      (sz 10 : Size .checked32)).toOption = some true := by decide +kernel
  rw [hverify] at htrue
  have hheader : pduHeaderDeserialize
      (some ⟨Object.full (pduOctets sampleCrcHeader [0x0C]), 0⟩) (sz 10 : Size .checked32)
        (some default) = .ok (sz 7, some sampleCrcHeader.received) := rfl
  obtain ⟨hsize, payloadLen, n, hdr, out, hheader', hsize', hrun, _, hwild⟩ :=
    haccepted (Option.some.inj htrue)
  rw [hheader] at hheader'
  cases hheader'
  cases hsize'
  cases hrun
  exact hwild rfl

end EmbeddedCfdp
