import EmbeddedCfdp.CrcAppend
import EmbeddedCfdp.PduReception

/-!
# Any PDU from sender to receiver

The sender of the quick start in `README.md`, for every payload that the library can encode.
Whatever the serialisers make of their arguments, the octets that are sent are a PDU; the
receiver gets the payload back as it was given, or nothing where the sender had nothing to
put into it.
-/

namespace EmbeddedCfdp

open CMemory

variable {T : Target} {N : NakCapacity T}

/-! ### What is sent and what is received -/

/-- The responses are Filestore Response TLVs, one after another. -/
def FinishedPdu.CarriesResponses (fin : FinishedPdu) : Prop :=
  ∃ responses : List TlvItem, (∀ t ∈ responses, t.type = CFDP_TLV_FILESTORE_RESPONSE.toUInt8) ∧
    octetsAt fin.filestoreResponses fin.filestoreResponsesLen.toNat = tlvCodec.chain responses

/-- The codes in a data field fit the bits they are given. -/
def DataField.InRange : DataField N → Prop
  | .fileData _ => True
  | .eof pdu => pdu.conditionCode ≤ 15
  | .finished fin => fin.InRange ∧ fin.CarriesResponses
  | .ack pdu => pdu.conditionCode ≤ 15 ∧ pdu.transactionStatus ≤ 3
  | .metadata md => md.checksumType ≤ 15 ∧ md.Given
  | .nak _ => True
  | .prompt response => response ≤ 1
  | .keepAlive _ => True

/-- The PDU type that goes with a data field. -/
def DataField.pduType (x : DataField N) : PduType :=
  if x.directive = none then CFDP_PDU_TYPE_FILE_DATA else CFDP_PDU_TYPE_DIRECTIVE

/-- What the receiver reports of a Finished PDU that was sent. -/
structure FinishedPdu.ReceivedAs (fin fin' : FinishedPdu) : Prop where
  conditionCode : fin'.conditionCode = fin.conditionCode
  deliveryCode : fin'.deliveryCode = fin.deliveryCode
  fileStatus : fin'.fileStatus = fin.fileStatus
  filestoreResponsesLen : fin'.filestoreResponsesLen = fin.filestoreResponsesLen
  filestoreResponses : octetsAt fin'.filestoreResponses fin'.filestoreResponsesLen.toNat =
    octetsAt fin.filestoreResponses fin.filestoreResponsesLen.toNat
  faultLocation : CallsForFaultLocation fin.conditionCode →
    fin'.faultLocationEntityId.toNat =
        fin.faultLocationEntityId.toNat % 256 ^ fin.faultLocationLen.toNat ∧
      fin'.faultLocationLen = fin.faultLocationLen
  noFaultLocation : ¬ CallsForFaultLocation fin.conditionCode →
    fin'.faultLocationEntityId = 0 ∧ fin'.faultLocationLen = 0

/-- What the receiver reports of a data field that was sent under the header `hdr`. -/
inductive DataField.ReceivedAs (hdr : PduHeader) : DataField N → DataField N → Prop where
  | fileData {fd fd' : FileDataPdu T} :
      FileDataReceived hdr.largeFileFlag hdr.segmentMetadataFlag fd fd' →
      ReceivedAs hdr (.fileData fd) (.fileData fd')
  | eof {pdu pdu' : EofPdu} : pdu.ReceivedAs hdr.largeFileFlag pdu' →
      ReceivedAs hdr (.eof pdu) (.eof pdu')
  | finished {fin fin' : FinishedPdu} : fin.ReceivedAs fin' →
      ReceivedAs hdr (.finished fin) (.finished fin')
  | ack (pdu : AckPdu) : ReceivedAs hdr (.ack pdu) (.ack pdu)
  | metadata {md md' : MetadataPdu} : md.ReceivedAs hdr.largeFileFlag md' →
      ReceivedAs hdr (.metadata md) (.metadata md')
  | nak {pdu pdu' : NakPdu N} : pdu.ReceivedAs hdr.largeFileFlag pdu' →
      ReceivedAs hdr (.nak pdu) (.nak pdu')
  | prompt (response : PromptResponse) : ReceivedAs hdr (.prompt response) (.prompt response)
  | keepAlive {progress progress' : UInt64} :
      progress'.toNat = progress.toNat % 256 ^ fileSizeWidth hdr.largeFileFlag →
      ReceivedAs hdr (.keepAlive progress) (.keepAlive progress')

/-! ### The codes of the short directives -/

theorem unpack_ackOctets_bits (condition : Fin 16) (status : Fin 4) :
    let o := ((UInt8.ofNat condition &&& 0xF) <<< 4) ||| (UInt8.ofNat status &&& 0x3)
    (o >>> 4) &&& 0xF = UInt8.ofNat condition ∧ o &&& 0x3 = UInt8.ofNat status := by
  revert condition status
  decide +kernel

/-- The subtype that is packed beside a directive code is the one that is checked. -/
theorem ackSubtype_packed {code : DirectiveCode} (h : ackDirectiveValid code = true) :
    let o := ((code.toUInt8 &&& 0xF) <<< 4) ||| (ackDirectiveSubtype code &&& 0xF)
    ((o >>> 4) &&& 0xF).toUInt32 = code ∧ o &&& 0xF = ackDirectiveSubtype code := by
  have hcode : code = CFDP_DIRECTIVE_EOF ∨ code = CFDP_DIRECTIVE_FINISHED := by
    simpa [ackDirectiveValid] using h
  rcases hcode with rfl | rfl
  · decide
  · decide

theorem ackDecode_ackOctets {ack : AckPdu} (h : ackDirectiveValid ack.ackDirectiveCode = true)
    (hcondition : ack.conditionCode ≤ 15) (hstatus : ack.transactionStatus ≤ 3) :
    ackDecode (ackOctets ack) = some ack := by
  obtain ⟨hcode, hsubtype⟩ := ackSubtype_packed h
  have hdirective : ackedDirective (ackOctets ack) = ack.ackDirectiveCode := hcode
  obtain ⟨a, ha, ha'⟩ := BitFields.exists_octet (k := 16) (by norm_num)
    (Nat.lt_succ_of_le (UInt32.le_iff_toNat_le.mp hcondition))
  obtain ⟨b, hb, hb'⟩ := BitFields.exists_octet (k := 4) (by norm_num)
    (Nat.lt_succ_of_le (UInt32.le_iff_toNat_le.mp hstatus))
  obtain ⟨hhigh, hlow⟩ := unpack_ackOctets_bits a b
  have hoctet : (ackOctets ack).getD 2 0 =
      ((UInt8.ofNat a &&& 0xF) <<< 4) ||| (UInt8.ofNat b &&& 0x3) := by
    rw [← ha, ← hb]
    rfl
  rw [ackDecode, hdirective, hoctet, hhigh, hlow, ha', hb']
  exact if_pos ⟨Nat.le_refl 3, rfl, h, hsubtype⟩

theorem promptDecode_promptOctets {response : PromptResponse} (h : response ≤ 1) :
    promptDecode (promptOctets response) = some response := by
  obtain ⟨a, ha, ha'⟩ := BitFields.exists_octet (k := 2) (by norm_num)
    (Nat.lt_succ_of_le (UInt32.le_iff_toNat_le.mp h))
  have hbit : ((((UInt8.ofNat a &&& 0x1) <<< 7) >>> 7) &&& 0x1) = UInt8.ofNat a := by
    clear ha ha'
    revert a
    decide +kernel
  have hoctet : (promptOctets response).getD 1 0 = (UInt8.ofNat a &&& 0x1) <<< 7 := by
    rw [← ha]
    rfl
  rw [promptDecode, hoctet, hbit, ha']
  exact if_pos ⟨Nat.le_refl 2, rfl⟩

theorem keepAliveDecode_keepAliveOctets (progress : UInt64) (largeFileFlag : LargeFileFlag) :
    keepAliveDecode (keepAliveOctets progress largeFileFlag) largeFileFlag = some (UInt64.ofNat
      (progress.toNat % 256 ^ (fileSizeOctets largeFileFlag).toNat)) := by
  have hvalue : uintAt (keepAliveOctets progress largeFileFlag) 1
      (fileSizeOctets largeFileFlag).toNat = UInt64.ofNat (BigEndian.decode
        (BigEndian.encode (fileSizeOctets largeFileFlag).toNat progress.toNat)) := by
    have happend := @uintAt_append [CFDP_DIRECTIVE_KEEP_ALIVE.toUInt8]
      (BigEndian.encode (fileSizeOctets largeFileFlag).toNat progress.toNat) [] 1
      (fileSizeOctets largeFileFlag).toNat rfl (BigEndian.length_encode _ _).symm
    rwa [List.append_nil] at happend
  rw [keepAliveDecode, hvalue, BigEndian.decode_encode]
  exact if_pos ⟨Nat.le_of_eq (length_keepAliveOctets progress largeFileFlag).symm, rfl⟩

/-! ### Finished -/

theorem finished_receivedAs {fin : FinishedPdu} (h : fin.InRange) (hcarries : fin.CarriesResponses)
    (hr : Readable fin.filestoreResponses fin.filestoreResponsesLen.toNat) {e : List UInt8}
    (he : finishedEncoding fin = some e) {p : Ptr} (hp : p.Holds e) :
    ∃ s, finishedDecode e = some s ∧ fin.ReceivedAs (s.view p (e.getD 1 0)) := by
  obtain ⟨responses, htype, hresponses⟩ := hcarries
  obtain ⟨hgiven, _⟩ := Option.ite_none_left_eq_some.mp he
  rw [toNat_pos_iff_uint16] at hgiven
  have hlength : (tlvCodec.chain responses).length = fin.filestoreResponsesLen.toNat := by
    rw [← hresponses, length_octetsAt hr hgiven]
  -- to the serialiser the responses are one string of octets, here given as one list
  have hspan : fin.Carries [tlvCodec.chain responses] := by
    constructor
    · rw [List.flatten_singleton, hlength]
    · intro q hq
      rw [List.flatten_singleton, ← hresponses, hq]
      exact holds_octetsAt
    · intro hnull
      rw [List.flatten_singleton, ← hresponses, hnull, octetsAt_none]
  obtain ⟨ids, hencoding, hone, hnone⟩ := finishedEncoding_eq h hspan
  rw [he, Option.some.injEq, List.flatten_singleton] at hencoding
  subst hencoding
  have hdec : finishedDecode (CFDP_DIRECTIVE_FINISHED.toUInt8 :: finishedStatus fin ::
      (tlvCodec.chain responses ++ entityIdCodec.chain ids)) =
      some ⟨(tlvCodec.chain responses ++ entityIdCodec.chain ids).length,
        (tlvCodec.chain responses).length, ids.getLast?⟩ := by
    apply finishedDecode_eq_some.mpr
    exact ⟨Nat.le_add_left _ _, rfl, responses, ids, htype, rfl, rfl⟩
  have hbehind : (p.add 2).Holds (tlvCodec.chain responses) := by
    have htail := hp.tail.tail.left
    rwa [Ptr.add_add] at htail
  obtain ⟨hcondition, hdelivery, hstatus⟩ := unpack_finishedStatus h
  have hlen : UInt16.ofNat (tlvCodec.chain responses).length = fin.filestoreResponsesLen := by
    rw [hlength, UInt16.ofNat_toNat]
  refine ⟨_, hdec, hcondition, hdelivery, hstatus, hlen, ?_, ?_, ?_⟩
  · dsimp only [FinishedScan.view]
    rw [hlen, hresponses, ← hlength]
    by_cases hzero : (tlvCodec.chain responses).length = 0
    · rw [if_pos hzero, octetsAt_none, List.eq_nil_of_length_eq_zero hzero]
    · rw [if_neg hzero]
      exact hbehind.octetsAt
  · intro hrequired
    obtain ⟨id, rfl, hoctets⟩ := hone hrequired
    constructor
    · change (UInt64.ofNat (BigEndian.decode id.octets)).toNat = _
      rw [toNat_ofNat_decode id.max, hoctets, BigEndian.decode_encode]
    · change UInt8.ofNat id.octets.length = _
      rw [hoctets, BigEndian.length_encode, UInt8.ofNat_toNat]
  · intro hrequired
    rw [hnone hrequired]
    exact ⟨rfl, rfl⟩

/-! ### Every data field -/

/-- The flags that the header keeps decide how the data field is decoded. -/
theorem DataField.decode_received (p : Ptr) (xs : List UInt8) (hdr : PduHeader) :
    DataField.decode N p xs hdr.received = DataField.decode N p xs hdr := by
  unfold DataField.decode
  by_cases htype : hdr.pduType = CFDP_PDU_TYPE_DIRECTIVE
  · rw [if_pos htype, if_pos (show hdr.received.pduType = _ from htype)]
    rfl
  · have hflag : hdr.received.segmentMetadataFlag = hdr.segmentMetadataFlag := if_neg htype
    rw [if_neg htype, if_neg (show hdr.received.pduType ≠ _ from htype), hflag]
    rfl

/-- A directive is decoded under the code that its encoding starts with. -/
theorem DataField.decode_directive {hdr : PduHeader} {x : DataField N} {d : Directive}
    {e : List UInt8} (hd : x.directive = some d) (htype : hdr.pduType = x.pduType)
    (he : (x.serialiser hdr).encoding = some e) (p : Ptr) :
    DataField.decode N p e hdr = d.decode N p e hdr.largeFileFlag := by
  have hdirective : hdr.pduType = CFDP_PDU_TYPE_DIRECTIVE := by
    rw [htype, DataField.pduType, hd]
    exact if_neg (Option.some_ne_none d)
  exact DataField.decode_of_code hdirective (head_of_encoding hd he) p

/-- What is decoded from what was encoded. -/
theorem DataField.decode_encoding {hdr : PduHeader} {x : DataField N} (hx : x.InRange)
    (hsourced : (x.serialiser hdr).Sourced) (htype : hdr.pduType = x.pduType) {e : List UInt8}
    (he : (x.serialiser hdr).encoding = some e) {p : Ptr} (hp : p.Holds e) :
    ∃ r, DataField.decode N p e hdr = some r ∧ x.ReceivedAs hdr r.2 := by
  -- file data has its own decoder; the directives go through the one their code names
  cases x with
  | fileData fd =>
    obtain ⟨hfits, hdata, hmeta⟩ := hsourced
    obtain ⟨y, hy, rfl⟩ := Option.map_eq_some_iff.mp he
    have hfile : hdr.pduType ≠ CFDP_PDU_TYPE_DIRECTIVE := by
      rw [htype]
      exact (by decide : CFDP_PDU_TYPE_FILE_DATA ≠ CFDP_PDU_TYPE_DIRECTIVE)
    refine ⟨(y.encode.length, .fileData (y.view p)), ?_, ?_⟩
    · rw [DataField.decode, if_neg hfile, y.decode_encode, Option.map_some]
    · exact .fileData (fileDataReceived_view hfits hdata hmeta hy hp)
  | eof pdu =>
    rw [DataField.decode_directive rfl htype he]
    have hdec := eofDecode_encoding he
    exact ⟨_, by rw [Directive.decode, hdec, Option.map_some],
      .eof (eof_receivedAs hx (eofEncoding_eq_some.mp he).1)⟩
  | finished fin =>
    rw [DataField.decode_directive rfl htype he]
    obtain ⟨s, hdec, hreceived⟩ := finished_receivedAs hx.1 hx.2 hsourced he hp
    exact ⟨_, by rw [Directive.decode, hdec, Option.map_some], .finished hreceived⟩
  | ack pdu =>
    rw [DataField.decode_directive rfl htype he]
    obtain ⟨hvalid, henc⟩ := Option.ite_none_right_eq_some.mp he
    have hdec := ackDecode_ackOctets hvalid hx.1 hx.2
    rw [Option.some.inj henc] at hdec
    exact ⟨_, by rw [Directive.decode, hdec, Option.map_some], .ack pdu⟩
  | metadata md =>
    rw [DataField.decode_directive rfl htype he]
    obtain ⟨f, henc, hsource, hdestination, hoptions⟩ :=
      metadataEncoding_eq hdr.largeFileFlag hx.2
    have hoctets : e = _ := Option.some.inj (he.symm.trans henc)
    have hsize := BigEndian.length_encode (fileSizeOctets hdr.largeFileFlag).toNat md.fileSize.toNat
    have hdec := metadataDecode_eq_some.mpr ⟨_, _, hsize, hoctets⟩
    exact ⟨_, by rw [Directive.decode, hdec, Option.map_some],
      .metadata (metadata_receivedAs hx.1 hsourced hx.2 hsource hdestination hoptions hoctets hp)⟩
  | nak pdu =>
    rw [DataField.decode_directive rfl htype he]
    obtain ⟨hfew, henc⟩ := Option.ite_none_left_eq_some.mp he
    -- the count is compared as a `size_t`, which holds the capacity
    have hfits := N.fits
    rw [gt_iff_lt, sz_lt_iff (by omega), Nat.not_lt] at hfew
    have hlength := @length_nakOctets T N pdu hdr.largeFileFlag hfew
    rw [Option.some.inj henc] at hlength
    have hdec := nakDecode_eq_some.mpr ⟨head_of_encoding (d := .nak) rfl he, _, hfew,
      hlength.trans (by ring), rfl⟩
    refine ⟨_, by rw [Directive.decode, hdec, Option.map_some], .nak ?_⟩
    rw [← Option.some.inj henc]
    exact nak_receivedAs hdr.largeFileFlag default hfew
  | prompt response =>
    rw [DataField.decode_directive rfl htype he]
    have hdec := promptDecode_promptOctets hx
    rw [Option.some.inj he] at hdec
    exact ⟨_, by rw [Directive.decode, hdec, Option.map_some], .prompt response⟩
  | keepAlive progress =>
    rw [DataField.decode_directive rfl htype he]
    have hdec := keepAliveDecode_keepAliveOctets progress hdr.largeFileFlag
    rw [Option.some.inj he] at hdec
    refine ⟨_, by rw [Directive.decode, hdec, Option.map_some], .keepAlive ?_⟩
    rw [← toNat_fileSizeOctets]
    exact toNat_carried _ _

/-! ### The sender -/

/-- The header with its data field length set, a conversion to `uint16_t`. -/
def PduHeader.sized (hdr : PduHeader) (n : Nat) : PduHeader :=
  { hdr with dataFieldLength := UInt16.ofNat n }

/-- The payload is written behind the room for the header, then the header that counts it and
    `crcLen` octets of CRC.  What the payload's serialiser returns is used as it is. -/
def assemblePdu (hdr : PduHeader) (x : DataField N) (crcLen : Nat) (buf : Nat) (bufLen : Size T) :
    Writer (Size T) := do
  let hlen : Size T := pduHeaderSize (some hdr)
  let plen ← (x.serialiser hdr).run (some (buf + hlen.toNat)) (← Size.subW bufLen hlen)
  let _ ← pduHeaderSerialize (some (hdr.sized (plen + sz crcLen).toNat)) (some buf) bufLen
  return hlen + plen

/-- The sender, with a CRC or without. -/
def sendPdu (hdr : PduHeader) (x : DataField N) (buf : Nat) (bufLen : Size T) :
    Writer (Size T) :=
  if hdr.crcFlag = CFDP_CRC_PRESENT then do
    let pduLen ← assemblePdu hdr x CFDP_PDU_CRC_LEN buf bufLen
    pduCrcAppend (some buf) pduLen bufLen
  else assemblePdu hdr x 0 buf bufLen

/-- The payload that goes out: what the serialiser writes, or nothing. -/
def DataField.sentIn (hdr : PduHeader) (x : DataField N) (room : Nat) : List UInt8 :=
  ((x.serialiser hdr).encoding.filter fun e => e.length ≤ room).getD []

section Sized

variable {hdr : PduHeader} {e : List UInt8}

theorem PduHeader.InRange.sized (h : hdr.InRange) (n : Nat) : (hdr.sized n).InRange :=
  ⟨h.version, h.entityIdLength, h.transactionSeqLength, h.pduType, h.direction,
    h.transmissionMode, h.crcFlag, h.largeFileFlag, h.segmentationControl, h.segmentMetadataFlag⟩

theorem PduHeader.toNat_sized {n : Nat} (h : n < 65536) :
    (hdr.sized n).dataFieldLength.toNat = n := by
  change (UInt16.ofNat n).toNat = n
  rw [UInt16.toNat_ofNat', Nat.mod_eq_of_lt h]

theorem PduHeader.InRange.headerLength_bounds (h : hdr.InRange) :
    7 ≤ headerLength hdr ∧ headerLength hdr ≤ 28 := by
  have hdec := headerDecode_headerOctets h []
  obtain ⟨hseven, h28, _⟩ := length_of_headerDecode hdec
  exact ⟨hseven, h28⟩

theorem sizedFor_sized_crc (hcrc : hdr.crcFlag = CFDP_CRC_PRESENT) (h : e.length + 2 < 65536) :
    SizedFor (hdr.sized (e.length + 2)) e := by
  unfold SizedFor
  rw [PduHeader.toNat_sized h, if_pos (show (hdr.sized _).crcFlag = _ from hcrc)]
  rfl

theorem sizedFor_sized (hcrc : hdr.crcFlag ≠ CFDP_CRC_PRESENT) (h : e.length < 65536) :
    SizedFor (hdr.sized e.length) e := by
  unfold SizedFor
  rw [PduHeader.toNat_sized h, if_neg (show (hdr.sized _).crcFlag ≠ _ from hcrc)]
  rfl

/-- The length that counts a payload and its CRC is the only one. -/
theorem SizedFor.sized_unique {k k' : Nat} (h : SizedFor (hdr.sized k) e)
    (h' : SizedFor (hdr.sized k') e) : hdr.sized k = hdr.sized k' := by
  have hlength : UInt16.ofNat k = UInt16.ofNat k' := UInt16.toNat_inj.mp (h.trans h'.symm)
  rw [PduHeader.sized, hlength, PduHeader.sized]

end Sized

section Send

variable {hdr : PduHeader} {x : DataField N} {i : Nat} {cap : Size T} {m : Object}
  {e : List UInt8}

/-- Behind the header and the payload goes the CRC, if there is to be one, unless the length was
    truncated or there is no room. -/
theorem pduCrcAppend_assembled (h32 : 32 ≤ T.sizeBits) (h : hdr.InRange)
    (hroom : headerLength hdr + e.length ≤ cap.toNat) (hext : i + cap.toNat ≤ m.extent) :
    pduCrcAppend (some i) (sz (headerLength hdr + e.length)) cap
        (m.place i (headerOctets (hdr.sized (e.length + 2)) ++ e)) =
      if hdr.crcFlag = CFDP_CRC_PRESENT ∧ e.length + 2 < 65536 ∧
          headerLength hdr + e.length + 2 ≤ cap.toNat then
        .ok (sz (headerLength hdr + e.length + 2),
          m.place i (pduOctets (hdr.sized (e.length + 2)) e))
      else .ok (sz 0, m.place i (headerOctets (hdr.sized (e.length + 2)) ++ e)) := by
  have hlt := cap.isLt
  obtain ⟨hseven, h28⟩ := h.headerLength_bounds
  have hheader : (headerOctets (hdr.sized (e.length + 2))).length = headerLength hdr :=
    length_headerOctets _
  have htotal : (headerOctets (hdr.sized (e.length + 2)) ++ e).length =
      headerLength hdr + e.length := by rw [List.length_append, hheader]
  have hholds : (Ptr.mk (m.place i (headerOctets (hdr.sized (e.length + 2)) ++ e)) i).Holds
      (headerOctets (hdr.sized (e.length + 2)) ++ e) := Object.place_holds (by omega)
  have hdec := headerDecode_headerOctets (h.sized (e.length + 2)) e
  -- the header in front describes the payload and its CRC, unless sixteen bits cut the length
  by_cases hfits : hdr.crcFlag = CFDP_CRC_PRESENT ∧ e.length + 2 < 65536 ∧
      headerLength hdr + e.length + 2 ≤ cap.toNat
  · obtain ⟨hcrc, hshort, hcap⟩ := hfits
    have hdescribed : headerLength (hdr.sized (e.length + 2)) +
        (hdr.sized (e.length + 2)).received.dataFieldLength.toNat =
        (headerOctets (hdr.sized (e.length + 2)) ++ e).length + 2 := by
      rw [htotal]
      change headerLength hdr + (hdr.sized (e.length + 2)).dataFieldLength.toNat = _
      rw [PduHeader.toNat_sized hshort, Nat.add_assoc]
    have hcap' : (headerOctets (hdr.sized (e.length + 2)) ++ e).length + 2 ≤ cap.toNat := by
      rw [htotal]
      exact hcap
    have hrun := pduCrcAppend_run hholds hdec hcrc hdescribed hcap'
      (by rw [Object.place_extent]; omega)
    rw [htotal] at hrun
    rw [if_pos ⟨hcrc, hshort, hcap⟩, hrun, Object.place_place_right (by rw [htotal]), pduOctets,
      if_pos (show (hdr.sized _).crcFlag = _ from hcrc), List.append_assoc]
  · have hlen : (sz (headerLength hdr + e.length) : Size T).toNat = headerLength hdr + e.length :=
      toNat_sz (by omega)
    rw [if_neg hfits]
    refine pduCrcAppend_refuses h32 hholds (by omega) (by omega) hdec ?_
    rintro ⟨hcrc, hcap, hdescribed⟩
    have hdfl : (hdr.sized (e.length + 2)).received.dataFieldLength.toNat =
        (e.length + 2) % 65536 := UInt16.toNat_ofNat'
    change headerLength hdr + _ = _ at hdescribed
    rw [hlen, hdfl] at hdescribed
    rw [hlen] at hcap
    exact hfits ⟨hcrc, by omega, by omega⟩

/-- After the payload's serialiser, the payload that goes out is in place. -/
theorem payload_written (h32 : 32 ≤ T.sizeBits) (hsourced : (x.serialiser hdr).Sourced)
    {room : Size T} (hext : i + room.toNat ≤ m.extent) :
    ∃ m₁, (x.serialiser hdr).run (some i) room m =
        .ok (sz (x.sentIn hdr room.toNat).length, m₁.place i (x.sentIn hdr room.toNat)) ∧
      m.SameOutside m₁ i room.toNat := by
  have hencodes := (x.serialiser hdr).encodes h32 hsourced
  unfold DataField.sentIn
  rcases hencodes.outcome i room m hext with ⟨e, he, hle, hrun⟩ | ⟨hbig, m', hrun, hsame⟩
  · refine ⟨m, ?_, Object.SameOutside.refl _ _ _⟩
    rw [he, Option.filter_some, if_pos (decide_eq_true hle), Option.getD_some, hrun]
  · have hnone : (x.serialiser hdr).encoding.filter (fun e => e.length ≤ room.toNat) = none := by
      rw [Option.filter_eq_none_iff]
      intro e he
      have := hbig e he
      simp only [decide_eq_true_eq]
      omega
    refine ⟨m', ?_, hsame⟩
    rw [hnone, Option.getD_none, Object.place_nil, hrun]
    rfl

theorem length_sentIn_le (room : Nat) : (x.sentIn hdr room).length ≤ room := by
  unfold DataField.sentIn
  cases he : (x.serialiser hdr).encoding.filter fun e => e.length ≤ room with
  | none => exact Nat.zero_le _
  | some e =>
    have hle := (Option.filter_eq_some_iff.mp he).2
    exact of_decide_eq_true hle

theorem sentIn_of_fits (he : (x.serialiser hdr).encoding = some e) {room : Nat}
    (hle : e.length ≤ room) : x.sentIn hdr room = e := by
  rw [DataField.sentIn, he, Option.filter_some, if_pos (decide_eq_true hle), Option.getD_some]

theorem sentIn_of_not_fits {room : Nat}
    (h : ∀ e, (x.serialiser hdr).encoding = some e → room < e.length) :
    x.sentIn hdr room = [] := by
  unfold DataField.sentIn
  rw [Option.getD_eq_iff]
  refine Or.inr ⟨?_, rfl⟩
  rw [Option.filter_eq_none_iff]
  intro e he hle
  exact Nat.not_lt.mpr (of_decide_eq_true hle) (h e he)

theorem sentIn_short (hshort : ∀ e, (x.serialiser hdr).encoding = some e → e.length < 65536)
    (room : Nat) : (x.sentIn hdr room).length < 65536 := by
  by_cases hfits : ∃ e, (x.serialiser hdr).encoding = some e ∧ e.length ≤ room
  · obtain ⟨e, he, hle⟩ := hfits
    rw [sentIn_of_fits he hle]
    exact hshort e he
  · rw [sentIn_of_not_fits fun e he => Nat.lt_of_not_le fun hle => hfits ⟨e, he, hle⟩]
    exact Nat.zero_lt_succ _

theorem assemblePdu_run (h32 : 32 ≤ T.sizeBits) (h : hdr.InRange)
    (hsourced : (x.serialiser hdr).Sourced) (hroom : headerLength hdr ≤ cap.toNat)
    (hext : i + cap.toNat ≤ m.extent) {crcLen : Nat} (hcrcLen : crcLen ≤ 2)
    (he : e = x.sentIn hdr (cap.toNat - headerLength hdr)) :
    ∃ m₁, m.SameOutside m₁ i cap.toNat ∧ assemblePdu hdr x crcLen i cap m =
      .ok (sz (headerLength hdr + e.length),
        m₁.place i (headerOctets (hdr.sized (e.length + crcLen)) ++ e)) := by
  obtain ⟨hseven, h28⟩ := h.headerLength_bounds
  have hlt := cap.isLt
  have hsize : (pduHeaderSize (some hdr) : Size T) = sz (headerLength hdr) :=
    pduHeaderSize_valid h.entityIdLength h.transactionSeqLength
  have hhlen : (sz (headerLength hdr) : Size T).toNat = headerLength hdr :=
    toNat_sz_small (by omega)
  have hrest : (sz (cap.toNat - headerLength hdr) : Size T).toNat = cap.toNat - headerLength hdr :=
    toNat_sz_sub cap _
  have hsub : (Size.subW cap (sz (headerLength hdr)) : Writer (Size T)) m =
      .ok (sz (cap.toNat - headerLength hdr), m) := by
    rw [Size.subW, sub_sz_left hroom]
    rfl
  obtain ⟨m₁, hpayload, hsame⟩ := @payload_written T N hdr x (i + headerLength hdr) m h32 hsourced
    (sz (cap.toNat - headerLength hdr)) (by rw [hrest]; omega)
  have hlength : e.length ≤ cap.toNat - headerLength hdr := by
    rw [he]
    exact length_sentIn_le _
  rw [hrest, ← he] at hpayload
  rw [hrest] at hsame
  have hplen : (sz e.length + sz crcLen : Size T).toNat = e.length + crcLen := by
    rw [sz_add, toNat_sz (by omega)]
  -- the payload is written first, at the place behind the header it will get
  have hheader : (m₁.place (i + headerLength hdr) e).place i
      (headerOctets (hdr.sized (e.length + crcLen))) =
        m₁.place i (headerOctets (hdr.sized (e.length + crcLen)) ++ e) :=
    Object.place_place_left (by rw [length_headerOctets]; rfl)
  have hwrites : pduHeaderSerialize (some (hdr.sized (e.length + crcLen))) (some i) cap
      (m₁.place (i + headerLength hdr) e) = .ok (sz (headerLength hdr),
        m₁.place i (headerOctets (hdr.sized (e.length + crcLen)) ++ e)) := by
    rw [← hheader]
    refine pduHeaderSerialize_run (h.sized _) ?_ hroom
    rw [Object.place_extent, hsame.extent]
    exact hext
  refine ⟨m₁, hsame.widen (by omega) (by omega), ?_⟩
  unfold assemblePdu
  rw [hsize, hhlen, Writer.bind_ok hsub, Writer.bind_ok hpayload, hplen, Writer.bind_ok hwrites,
    Writer.pure_apply, sz_add]

/-- What `sendPdu` returns, and the PDU that it leaves in the buffer where that is not 0. -/
theorem sendPdu_run (h32 : 32 ≤ T.sizeBits) (h : hdr.InRange)
    (hsourced : (x.serialiser hdr).Sourced) (hroom : headerLength hdr ≤ cap.toNat)
    (hext : i + cap.toNat ≤ m.extent) (he : e = x.sentIn hdr (cap.toNat - headerLength hdr)) :
    ∃ total m', sendPdu hdr x i cap m = .ok (total, m') ∧ m.SameOutside m' i cap.toNat ∧
      (total ≠ sz 0 ↔ (hdr.crcFlag = CFDP_CRC_PRESENT →
        e.length + 2 < 65536 ∧ headerLength hdr + e.length + 2 ≤ cap.toNat)) ∧
      (total ≠ sz 0 → (hdr.crcFlag ≠ CFDP_CRC_PRESENT → e.length < 65536) →
        ∃ k, SizedFor (hdr.sized k) e ∧ (pduOctets (hdr.sized k) e).length = total.toNat ∧
          (Ptr.mk m' i).Holds (pduOctets (hdr.sized k) e)) := by
  have hlt := cap.isLt
  obtain ⟨hseven, _⟩ := h.headerLength_bounds
  have hlength : e.length ≤ cap.toNat - headerLength hdr := by
    rw [he]
    exact length_sentIn_le _
  have hheader : ∀ k, (headerOctets (hdr.sized k)).length = headerLength hdr := fun k =>
    length_headerOctets _
  have hfit : headerLength hdr + e.length ≤ cap.toNat := by omega
  -- with a CRC flag the appending of the CRC decides; without one the length is returned as it is
  by_cases hcrc : hdr.crcFlag = CFDP_CRC_PRESENT
  · obtain ⟨m₁, hsame, hrun⟩ := assemblePdu_run h32 h hsourced hroom hext (Nat.le_refl 2) he
    have hext₁ : i + cap.toNat ≤ m₁.extent := by rw [hsame.extent]; exact hext
    have hsend := @pduCrcAppend_assembled T hdr i cap m₁ e h32 h hfit hext₁
    unfold sendPdu CFDP_PDU_CRC_LEN
    rw [if_pos hcrc, Writer.bind_ok hrun, hsend]
    by_cases hfits : e.length + 2 < 65536 ∧ headerLength hdr + e.length + 2 ≤ cap.toNat
    · have htotal := length_pduOctets (sizedFor_sized_crc hcrc hfits.1)
      rw [PduHeader.toNat_sized hfits.1] at htotal
      change _ = headerLength hdr + _ at htotal
      have hsize : (sz (headerLength hdr + e.length + 2) : Size T).toNat =
          headerLength hdr + e.length + 2 := toNat_sz (by omega)
      rw [if_pos ⟨hcrc, hfits⟩]
      refine ⟨_, _, rfl, hsame.trans (Object.sameOutside_place (by omega)), ?_, ?_⟩
      · exact iff_of_true (sz_ne_zero (by omega) (by omega)) fun _ => hfits
      · intro _ _
        exact ⟨e.length + 2, sizedFor_sized_crc hcrc hfits.1, by omega,
          Object.place_holds (by omega)⟩
    · rw [if_neg fun hand => hfits hand.2]
      refine ⟨_, _, rfl, hsame.trans (Object.sameOutside_place ?_), ?_, fun hne => (hne rfl).elim⟩
      · rw [List.length_append, hheader]
        exact hfit
      · exact iff_of_false (fun hne => hne rfl) fun hall => hfits (hall hcrc)
  · obtain ⟨m₁, hsame, hrun⟩ := assemblePdu_run h32 h hsourced hroom hext (Nat.zero_le 2) he
    have hext₁ : i + cap.toNat ≤ m₁.extent := by rw [hsame.extent]; exact hext
    have hsize : (sz (headerLength hdr + e.length) : Size T).toNat = headerLength hdr + e.length :=
      toNat_sz (by omega)
    have hpdu : pduOctets (hdr.sized e.length) e = headerOctets (hdr.sized e.length) ++ e := by
      rw [pduOctets, if_neg (show (hdr.sized _).crcFlag ≠ _ from hcrc), List.append_nil]
    have htotal : (headerOctets (hdr.sized e.length) ++ e).length =
        headerLength hdr + e.length := by
      rw [List.length_append, hheader]
    rw [sendPdu, if_neg hcrc, hrun]
    refine ⟨_, _, rfl, hsame.trans (Object.sameOutside_place ?_), ?_, ?_⟩
    · rw [Nat.add_zero, htotal]
      exact hfit
    · exact iff_of_true (sz_ne_zero (by omega) (by omega)) fun habsent => (hcrc habsent).elim
    · intro _ hshort
      refine ⟨e.length, sizedFor_sized hcrc (hshort hcrc), by rw [hpdu, htotal, hsize], ?_⟩
      rw [hpdu]
      exact Object.place_holds (by rw [Nat.add_zero] at *; omega)

end Send

/-! ### The exchange -/

/-- A PDU that was built for the encoding of a data field is received as that data field. -/
theorem receivePdu_sent (h32 : 32 ≤ T.sizeBits) {hdr : PduHeader} (h : hdr.InRange)
    {x : DataField N} (hx : x.InRange) (htype : hdr.pduType = x.pduType)
    (hsourced : (x.serialiser hdr).Sourced) {e : List UInt8}
    (he : (x.serialiser hdr).encoding = some e) {k : Nat} (hsized : SizedFor (hdr.sized k) e)
    {p : Ptr} {z : List UInt8} {len : Size T} (hp : p.Holds (pduOctets (hdr.sized k) e ++ z))
    (hlen : (pduOctets (hdr.sized k) e ++ z).length = len.toNat) :
    ∃ x', receivePdu N (some p) len = .ok (some ((hdr.sized k).received, x')) ∧
      x.ReceivedAs hdr x' := by
  obtain ⟨hbehind, hreceive⟩ := receivePdu_pduOctets (N := N) h32 (h.sized k) hsized hp hlen
  obtain ⟨r, hdec, hreceived⟩ := DataField.decode_encoding (p := p.add (headerLength hdr))
    hx hsourced htype he hbehind
  have hsame : DataField.decode N (p.add (headerLength hdr)) e (hdr.sized k) = some r := hdec
  rw [DataField.decode_received] at hreceive
  refine ⟨r.2, ?_, hreceived⟩
  rw [hreceive]
  change Except.ok ((DataField.decode N (p.add (headerLength hdr)) e (hdr.sized k)).map _) = _
  rw [hsame]
  rfl

end EmbeddedCfdp
