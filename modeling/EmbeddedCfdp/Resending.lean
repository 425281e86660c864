import EmbeddedCfdp.BurstDetection
import EmbeddedCfdp.SpareBits

/-!
# Sending what was received

A data field that was received is encoded as the octets that it was decoded from, with their
spare bits cleared: nothing else is lost in the decoders.  The encoders are stricter about
fault locations than the decoders, and that is the one thing that a received PDU has to keep
to.  Sent again, a PDU goes out as it came in.
-/

namespace EmbeddedCfdp

open CMemory

variable {T : Target} {N : NakCapacity T}

/-! ### One data field -/

/-- The octets that the deserialiser consumes of a payload of `len` octets. -/
def DataField.consumed (largeFileFlag : LargeFileFlag) (len : Nat) : DataField N → Nat
  | .eof pdu =>
      fileSizeWidth largeFileFlag + 6 + faultLocationOctets pdu.faultLocationLen
  | .ack _ => 3
  | .prompt _ => 2
  | .keepAlive _ => fileSizeWidth largeFileFlag + 1
  | _ => len

/-- The data field has a fault location exactly where its condition code calls for one, and
    in a Finished data field of `len` octets there is one at most. -/
def DataField.KeepsFaultRule (len : Nat) : DataField N → Prop
  | .eof pdu => pdu.faultLocationLen ≠ 0 ↔ pdu.conditionCode ≠ CFDP_COND_NO_ERROR
  | .finished fin => (fin.faultLocationLen ≠ 0 ↔ CallsForFaultLocation fin.conditionCode) ∧
      len = 2 + fin.filestoreResponsesLen.toNat + faultLocationOctets fin.faultLocationLen
  | _ => True

/-- The payload with the spare bits of its directive cleared. -/
def DataField.clearSpare (x : DataField N) (xs : List UInt8) : List UInt8 :=
  match x.directive with
  | some d => d.clearSpare xs
  | none => xs

section Octets

theorem pack_finishedStatus (o : UInt8) :
    ((((o >>> 4) &&& 0xF).toUInt32.toUInt8 &&& 0xF) <<< 4) |||
      ((((o >>> 2) &&& 0x1).toUInt32.toUInt8 &&& 0x1) <<< 2) |||
      ((o &&& 0x3).toUInt32.toUInt8 &&& 0x3) = o &&& 0xF7 := by
  refine BitFields.forall_octet (P := fun o =>
    ((((o >>> 4) &&& 0xF).toUInt32.toUInt8 &&& 0xF) <<< 4) |||
      ((((o >>> 2) &&& 0x1).toUInt32.toUInt8 &&& 0x1) <<< 2) |||
      ((o &&& 0x3).toUInt32.toUInt8 &&& 0x3) = o &&& 0xF7) ?_ o
  decide +kernel

theorem pack_ackStatus (o : UInt8) :
    ((((o >>> 4) &&& 0xF).toUInt32.toUInt8 &&& 0xF) <<< 4) |||
      ((o &&& 0x3).toUInt32.toUInt8 &&& 0x3) = o &&& 0xF3 := by
  refine BitFields.forall_octet (P := fun o =>
    ((((o >>> 4) &&& 0xF).toUInt32.toUInt8 &&& 0xF) <<< 4) |||
      ((o &&& 0x3).toUInt32.toUInt8 &&& 0x3) = o &&& 0xF3) ?_ o
  decide +kernel

theorem pack_ackedDirective (o : UInt8) :
    ((((o >>> 4) &&& 0xF).toUInt32.toUInt8 &&& 0xF) <<< 4) ||| ((o &&& 0xF) &&& 0xF) = o := by
  refine BitFields.forall_octet (P := fun o =>
    ((((o >>> 4) &&& 0xF).toUInt32.toUInt8 &&& 0xF) <<< 4) ||| ((o &&& 0xF) &&& 0xF) = o) ?_ o
  decide +kernel

theorem pack_promptBit (o : UInt8) :
    ((((o >>> 7) &&& 0x1).toUInt32.toUInt8 &&& 0x1) <<< 7) = o &&& 0x80 := by
  refine BitFields.forall_octet (P := fun o =>
    ((((o >>> 7) &&& 0x1).toUInt32.toUInt8 &&& 0x1) <<< 7) = o &&& 0x80) ?_ o
  decide +kernel

end Octets

section Encoding

variable {p : Ptr} {xs : List UInt8} {largeFileFlag : LargeFileFlag}

theorem eofEncoding_of_decode {n : Nat} {eof : EofPdu}
    (h : eofDecode xs largeFileFlag = some (n, eof))
    (hrule : eof.faultLocationLen ≠ 0 ↔ eof.conditionCode ≠ CFDP_COND_NO_ERROR) :
    eofEncoding eof largeFileFlag = some (Directive.eof.clearSpare (xs.take n)) := by
  obtain ⟨octet, checksum, size, id, hchecksum, hsize, ⟨rest, rfl⟩, rfl, rfl⟩ :=
    eofDecode_eq_some h
  rw [eofEncoding_eofOf hchecksum hsize hrule, List.take_left]
  rfl

theorem ackEncoding_of_decode {ack : AckPdu} (h : ackDecode xs = some ack) :
    ackEncoding ack = some (Directive.ack.clearSpare (xs.take 3)) := by
  obtain ⟨⟨hroom, hcode, hvalid, hsubtype⟩, heq⟩ := Option.ite_none_right_eq_some.mp h
  rcases xs with _ | ⟨code, _ | ⟨acked, _ | ⟨status, rest⟩⟩⟩
  · simp at hroom
  · simp at hroom
  · simp at hroom
  · have hcode' : code = CFDP_DIRECTIVE_ACK.toUInt8 := hcode
    have hpacked : ((((acked >>> 4) &&& 0xF).toUInt32.toUInt8 &&& 0xF) <<< 4) |||
        (ackDirectiveSubtype (((acked >>> 4) &&& 0xF).toUInt32) &&& 0xF) = acked := by
      have hlow : acked &&& (0xF : UInt8) =
          ackDirectiveSubtype (((acked >>> 4) &&& 0xF).toUInt32) := hsubtype
      rw [← hlow, pack_ackedDirective]
    have hoctets : ackOctets ⟨((acked >>> 4) &&& 0xF).toUInt32,
        ((status >>> 4) &&& 0xF).toUInt32, (status &&& 0x3).toUInt32⟩ =
          [CFDP_DIRECTIVE_ACK.toUInt8, acked, status &&& 0xF3] := by
      rw [ackOctets, hpacked, pack_ackStatus]
    rw [← Option.some.inj heq, ackEncoding, if_pos hvalid, hcode']
    exact congrArg some hoctets

theorem promptEncoding_of_decode {response : PromptResponse}
    (h : promptDecode xs = some response) :
    promptOctets response = Directive.prompt.clearSpare (xs.take 2) := by
  obtain ⟨⟨hroom, hcode⟩, heq⟩ := Option.ite_none_right_eq_some.mp h
  rcases xs with _ | ⟨code, _ | ⟨octet, rest⟩⟩
  · simp at hroom
  · simp at hroom
  · have hcode' : code = CFDP_DIRECTIVE_PROMPT.toUInt8 := hcode
    have hoctet : promptOctets ((octet >>> 7) &&& 0x1).toUInt32 =
        [CFDP_DIRECTIVE_PROMPT.toUInt8, octet &&& 0x80] := by
      rw [promptOctets, pack_promptBit]
    rw [← Option.some.inj heq, hcode']
    exact hoctet

theorem keepAliveEncoding_of_decode {progress : UInt64}
    (h : keepAliveDecode xs largeFileFlag = some progress) :
    keepAliveOctets progress largeFileFlag =
      xs.take ((fileSizeOctets largeFileFlag).toNat + 1) := by
  obtain ⟨⟨hroom, hcode⟩, heq⟩ := Option.ite_none_right_eq_some.mp h
  obtain ⟨height, _⟩ := length_fileSizeOctets largeFileFlag
  rcases xs with _ | ⟨code, rest⟩
  · simp at hroom
  · have hcode' : code = CFDP_DIRECTIVE_KEEP_ALIVE.toUInt8 := hcode
    rw [← Option.some.inj heq, keepAliveOctets, encode_uintAt (by omega) height,
      List.take_succ_cons, hcode']
    rfl

/-- In a data field that keeps to the rule, the fault location is the only entity ID. -/
theorem chain_of_faultLocation {ids : List EntityId} {id : EntityId} (h : ids.getLast? = some id)
    (hlength : (entityIdCodec.chain ids).length = (entityIdCodec.enc id).length) :
    entityIdCodec.chain ids = entityIdCodec.enc id := by
  obtain ⟨others, rfl⟩ := List.getLast?_eq_some_iff.mp h
  have hchain : entityIdCodec.chain (others ++ [id]) =
      entityIdCodec.chain others ++ entityIdCodec.enc id := by
    rw [PrefixCodec.chain_append, PrefixCodec.chain_cons, PrefixCodec.chain_nil, List.append_nil]
  rw [hchain, List.length_append] at hlength
  have hnone : entityIdCodec.chain others = [] := List.eq_nil_of_length_eq_zero (by omega)
  rw [hchain, hnone, List.nil_append]

/-- The responses as they are reported. -/
theorem FinishedScan.view_responses {s : FinishedScan} {responses : List UInt8}
    (hspan : (p.add 2).Holds responses) (hs : s.responses = responses.length)
    (hshort : responses.length < 65536) (octet : UInt8) :
    (s.view p octet).filestoreResponsesLen.toNat = responses.length ∧
      octetsAt (s.view p octet).filestoreResponses (s.view p octet).filestoreResponsesLen.toNat =
        responses ∧
      Readable (s.view p octet).filestoreResponses
        (s.view p octet).filestoreResponsesLen.toNat ∧
      ¬ ((s.view p octet).filestoreResponses.isNone ∧
        (s.view p octet).filestoreResponsesLen > 0) := by
  have hlen : (s.view p octet).filestoreResponsesLen.toNat = responses.length := by
    change (UInt16.ofNat s.responses).toNat = _
    rw [UInt16.toNat_ofNat', hs, Nat.mod_eq_of_lt hshort]
  have hpointer : (s.view p octet).filestoreResponses =
      if responses.length = 0 then none else some (p.add 2) := by
    rw [← hs]
    rfl
  rw [toNat_pos_iff_uint16, hlen, hpointer]
  -- no responses means no pointer, which the serialiser accepts with length zero
  by_cases hzero : responses.length = 0
  · rw [if_pos hzero, List.eq_nil_of_length_eq_zero hzero]
    exact ⟨rfl, rfl, fun q hq => (nomatch hq), by simp⟩
  · rw [if_neg hzero]
    exact ⟨rfl, hspan.octetsAt, hspan.readable (Nat.le_refl _), by simp⟩

theorem finishedEncoding_view {s : FinishedScan} (h : finishedDecode xs = some s)
    (hp : p.Holds xs) (hshort : xs.length < 65536)
    (hrule : (.finished (s.view p (xs.getD 1 0)) : DataField N).KeepsFaultRule xs.length) :
    Readable (s.view p (xs.getD 1 0)).filestoreResponses
        (s.view p (xs.getD 1 0)).filestoreResponsesLen.toNat ∧
      finishedEncoding (s.view p (xs.getD 1 0)) = some (Directive.finished.clearSpare xs) := by
  obtain ⟨htwo, hcode, responses, ids, _, hdrop, hs⟩ := finishedDecode_eq_some.mp h
  obtain ⟨hrequired, hlength⟩ := hrule
  have hparts : (xs.drop 2).length =
      (tlvCodec.chain responses).length + (entityIdCodec.chain ids).length := by
    rw [hdrop, List.length_append]
  have hspan : (p.add 2).Holds (tlvCodec.chain responses) := by
    have hbehind := hp.drop 2 htwo
    rw [hdrop] at hbehind
    exact hbehind.left
  have hcount : s.responses = (tlvCodec.chain responses).length := by rw [hs]
  have hlast : s.faultLocation = ids.getLast? := by rw [hs]
  rw [List.length_drop] at hparts
  generalize hoctet : xs.getD 1 0 = octet at *
  obtain ⟨hlen, hoctets, hread, hgiven⟩ :=
    FinishedScan.view_responses hspan hcount (by omega) octet
  rw [hlen] at hlength
  refine ⟨hread, ?_⟩
  have hclear : Directive.finished.clearSpare xs = CFDP_DIRECTIVE_FINISHED.toUInt8 ::
      (octet &&& 0xF7) :: (tlvCodec.chain responses ++ entityIdCodec.chain ids) := by
    rcases xs with _ | ⟨code, _ | ⟨octet', rest⟩⟩
    · simp at htwo
    · simp at htwo
    · have hcode' : code = CFDP_DIRECTIVE_FINISHED.toUInt8 := hcode
      have hoctet' : octet' = octet := hoctet
      have hrest : rest = tlvCodec.chain responses ++ entityIdCodec.chain ids := hdrop
      rw [hcode', hoctet', hrest]
      rfl
  have hfixed : finishedFixed (s.view p octet) =
      CFDP_DIRECTIVE_FINISHED.toUInt8 :: (octet &&& 0xF7) :: tlvCodec.chain responses := by
    rw [finishedFixed, hoctets]
    exact congrArg (fun o => _ :: o :: _) (pack_finishedStatus octet)
  rw [finishedEncoding, if_neg hgiven, withFaultLocation, hfixed, hclear]
  -- by the fault rule the location is there exactly when the serialiser sends one
  cases hid : s.faultLocation with
  | none =>
    have hzero : (s.view p octet).faultLocationLen = 0 := by
      unfold FinishedScan.view
      rw [hid]
    have hids : ids = [] := by rwa [hid, eq_comm, List.getLast?_eq_none_iff] at hlast
    have hnot : ¬ CallsForFaultLocation (s.view p octet).conditionCode := fun hcalls =>
      hrequired.mpr hcalls hzero
    rw [if_neg (mt faultLocationRequired_iff.mp hnot), hids, PrefixCodec.chain_nil,
      List.append_nil]
  | some id =>
    have hnumber : (s.view p octet).faultLocationEntityId = id.number := by
      unfold FinishedScan.view
      rw [hid]
    have hidLen : (s.view p octet).faultLocationLen = UInt8.ofNat id.octets.length := by
      unfold FinishedScan.view
      rw [hid]
    have hne : (s.view p octet).faultLocationLen ≠ 0 := by
      have hpos := (s.view_faultLocationLen p octet).mpr (by rw [hid]; rfl)
      rw [toNat_pos_iff] at hpos
      intro hzero
      rw [hzero] at hpos
      exact absurd hpos (by decide)
    rw [hidLen, id.faultLocationOctets_length] at hlength
    -- the only Entity ID that was there: a repeated one would have been longer than the rule allows
    have hchain := chain_of_faultLocation (hlast.symm.trans hid) (by omega)
    have hcalls := faultLocationRequired_iff.mpr (hrequired.mp hne)
    rw [if_pos hcalls, hnumber, hidLen, EntityId.entityIdOf_number, Option.map_some,
      hchain, List.cons_append, List.cons_append]

/-- What is decoded of file data is encoded as it came. -/
theorem fileDataEncoding_view {segmentMetadataFlag : SegMetadataFlag}
    {y : FileDataItem largeFileFlag segmentMetadataFlag} (hp : p.Holds y.encode)
    (hfits : y.encode.length < 2 ^ T.sizeBits) :
    fileDataSize largeFileFlag segmentMetadataFlag (y.view (T := T) p) < 2 ^ T.sizeBits ∧
      Readable (y.view (T := T) p).fileData (y.view (T := T) p).fileDataLen.toNat ∧
      Readable (y.view (T := T) p).segmentMetadata
        (y.view (T := T) p).segmentMetadataLen.toNat := by
  have hdata : Readable (y.view (T := T) p).fileData (y.view (T := T) p).fileDataLen.toNat := by
    rw [toNat_view_fileDataLen hfits]
    exact readable_spanAt (holds_fileData hp)
  have hmeta : Readable (y.view (T := T) p).segmentMetadata
      (y.view (T := T) p).segmentMetadataLen.toNat := by
    change Readable _ (UInt8.ofNat y.segmentMetadata.length).toNat
    rw [toNat_ofNat_of_le (Nat.le_trans y.short (by norm_num))]
    exact readable_spanAt (holds_segmentMetadata hp)
  refine ⟨?_, hdata, hmeta⟩
  rwa [← length_encode_fileDataOf hdata hmeta (fileDataOf_view hp hfits)]

/-- What is consumed of a directive, and how what was decoded is encoded. -/
theorem Directive.encoding_of_decode {hdr : PduHeader} {d : Directive} {r : Nat × DataField N}
    (hp : p.Holds xs) (hshort : xs.length < 65536)
    (hdec : d.decode N p xs hdr.largeFileFlag = some r) :
    r.1 = r.2.consumed hdr.largeFileFlag xs.length ∧ (r.2.KeepsFaultRule xs.length →
      (r.2.serialiser hdr).Sourced ∧
        (r.2.serialiser hdr).encoding = some (r.2.clearSpare (xs.take r.1))) := by
  -- only EOF and Finished carry a fault location and need the rule
  cases d with
  | eof =>
    obtain ⟨⟨n, eof⟩, heof, rfl⟩ := Option.map_eq_some_iff.mp hdec
    obtain ⟨_, hn, _⟩ := eofDecode_spec heof
    rw [toNat_fileSizeOctets] at hn
    exact ⟨hn.symm, fun hrule => ⟨trivial, eofEncoding_of_decode heof hrule⟩⟩
  | finished =>
    obtain ⟨s, hs, rfl⟩ := Option.map_eq_some_iff.mp hdec
    refine ⟨rfl, fun hrule => ?_⟩
    obtain ⟨hread, hencoding⟩ := finishedEncoding_view hs hp hshort hrule
    refine ⟨hread, ?_⟩
    dsimp only
    rw [List.take_length]
    exact hencoding
  | ack =>
    obtain ⟨ack, hack, rfl⟩ := Option.map_eq_some_iff.mp hdec
    exact ⟨rfl, fun _ => ⟨trivial, ackEncoding_of_decode hack⟩⟩
  | metadata =>
    obtain ⟨f, hf, rfl⟩ := Option.map_eq_some_iff.mp hdec
    obtain ⟨flags, size, hsize, rfl⟩ := metadataDecode_eq_some.mp hf
    have hlength := f.length_octets flags hsize
    obtain ⟨hmd, hencoding⟩ := metadataEncoding_view hsize (by omega) hp
    refine ⟨rfl, fun _ => ⟨hmd, ?_⟩⟩
    dsimp only
    rw [List.take_length]
    exact hencoding
  | nak =>
    obtain ⟨f, hf, rfl⟩ := Option.map_eq_some_iff.mp hdec
    obtain ⟨hcode, k, hmany, hlength, rfl⟩ := nakDecode_eq_some.mp hf
    obtain ⟨hcount, _⟩ := NakFields.requests_view
      (f := nakFields xs (fileSizeOctets hdr.largeFileFlag) k) (default : NakPdu N)
      (by rw [length_nakFields]; exact hmany)
    rw [length_nakFields] at hcount
    have hclear : Directive.nak.clearSpare xs = xs :=
      Directive.clearSpare_eq_self UInt8.and_neg_one
    refine ⟨rfl, fun _ => ⟨trivial, ?_⟩⟩
    change nakEncoding _ _ = some (Directive.nak.clearSpare (xs.take xs.length))
    rw [nakEncoding_few (by rw [hcount]; exact hmany), nakOctets_view default hmany hcode hlength,
      List.take_length, hclear]
  | prompt =>
    obtain ⟨response, hresponse, rfl⟩ := Option.map_eq_some_iff.mp hdec
    exact ⟨rfl, fun _ => ⟨trivial, congrArg some (promptEncoding_of_decode hresponse)⟩⟩
  | keepAlive =>
    obtain ⟨progress, hprogress, rfl⟩ := Option.map_eq_some_iff.mp hdec
    have hclear : ∀ ys, Directive.keepAlive.clearSpare ys = ys := fun ys =>
      Directive.clearSpare_eq_self UInt8.and_neg_one
    refine ⟨congrArg (· + 1) (toNat_fileSizeOctets _), fun _ => ⟨trivial, ?_⟩⟩
    change some (keepAliveOctets _ _) = some (Directive.keepAlive.clearSpare _)
    rw [keepAliveEncoding_of_decode hprogress, hclear]

theorem DataField.encoding_of_decode (h32 : 32 ≤ T.sizeBits) {hdr : PduHeader}
    {r : Nat × DataField N} (hp : p.Holds xs) (hshort : xs.length < 65536)
    (hdec : DataField.decode N p xs hdr = some r) :
    r.1 = r.2.consumed hdr.largeFileFlag xs.length ∧ (r.2.KeepsFaultRule xs.length →
      (r.2.serialiser hdr).Sourced ∧
        (r.2.serialiser hdr).encoding = some (r.2.clearSpare (xs.take r.1))) := by
  have hpow := T.two_pow_ge_of_le h32
  rcases DataField.decode_cases hdec with ⟨d, _, hd⟩ | ⟨y, _, hy, rfl⟩
  · exact Directive.encoding_of_decode hp hshort hd
  · have hencode := FileDataItem.encode_of_decode hy
    have hfits : y.encode.length < 2 ^ T.sizeBits := by rw [hencode]; omega
    have hholds : p.Holds y.encode := by rwa [hencode]
    refine ⟨rfl, fun _ => ⟨fileDataEncoding_view hholds hfits, ?_⟩⟩
    change (fileDataOf _ _ (y.view p)).map FileDataItem.encode = some (xs.take xs.length)
    rw [fileDataOf_view hholds hfits, Option.map_some, hencode, List.take_length]

end Encoding

/-! ### One PDU -/

section Header

variable {xs : List UInt8} {n : Nat} {hdr : PduHeader}

theorem isFlag_and {mask : UInt8} (h : mask.toUInt32 ≤ 1) (o : UInt8) :
    IsFlag (o &&& mask).toUInt32 := by
  have hle : mask.toNat ≤ 1 := UInt32.le_iff_toNat_le.mp h
  have hand : o.toNat &&& mask.toNat ≤ mask.toNat := Nat.and_le_right
  apply UInt32.le_iff_toNat_le.mpr
  rw [UInt8.toNat_toUInt32, UInt8.toNat_and]
  exact Nat.le_trans hand hle

/-- A header that was decoded is one that can be sent. -/
theorem headerDecode_inRange (h : headerDecode xs = some (n, hdr)) : hdr.InRange := by
  obtain ⟨hat, heq⟩ := Option.ite_none_right_eq_some.mp h
  rw [Option.some.injEq, Prod.mk.injEq] at heq
  obtain ⟨_, rfl⟩ := heq
  obtain ⟨hid, hseq⟩ := headerFlags_valid xs default
  have hmask := segmentFlagsMask_le (headerFlags xs default).pduType
  exact ⟨hat.version, hid, hseq, isFlag_and (by decide) _, isFlag_and (by decide) _,
    isFlag_and (by decide) _, isFlag_and (by decide) _, isFlag_and (by decide) _,
    isFlag_and hmask _, isFlag_and hmask _⟩

theorem headerOctets_of_headerDecode (h : headerDecode xs = some (n, hdr)) :
    headerOctets hdr = ignoredCleared (xs.take n) := by
  have hencoding := headerEncoding_of_decode h
  obtain ⟨_, hoctets⟩ := Option.ite_none_right_eq_some.mp hencoding
  exact Option.some.inj hoctets

/-- A PDU is built again from its header and its payload. -/
theorem PduAt.pduOctets_eq (hat : PduAt xs n hdr)
    (hclear : ignoredCleared (xs.take n) = xs.take n) :
    pduOctets hdr (slice xs n (payloadLength hdr)) = xs.take (n + hdr.dataFieldLength.toNat) := by
  have hfront : headerOctets hdr ++ slice xs n (payloadLength hdr) =
      xs.take (n + payloadLength hdr) := by
    rw [headerOctets_of_headerDecode hat.header, hclear, slice, List.take_add]
  have hcomplete := hat.complete
  rw [pduOctets, ← List.append_assoc, hfront]
  by_cases hcrc : hdr.crcFlag = CFDP_CRC_PRESENT
  · have hlong : 2 ≤ hdr.dataFieldLength.toNat := hat.crcLength hcrc
    have hpayload : payloadLength hdr = hdr.dataFieldLength.toNat - 2 := if_pos hcrc
    have hend : n + payloadLength hdr + 2 = n + hdr.dataFieldLength.toNat := by omega
    have hresidue := hat.residue hcrc
    rw [← hend] at hresidue
    rw [if_pos hcrc, (crcField_eq_iff (by omega)).mpr hresidue, slice, ← List.take_add, hend]
  · have hpayload : payloadLength hdr = hdr.dataFieldLength.toNat := if_neg hcrc
    rw [if_neg hcrc, List.append_nil, hpayload]

end Header

/-- What is received is received of a PDU. -/
theorem receivePdu_eq_some (h32 : 32 ≤ T.sizeBits) {p : Ptr} {xs : List UInt8} {len : Size T}
    (hp : p.Holds xs) (hlen : xs.length = len.toNat) {hdr : PduHeader} {x : DataField N}
    (hrun : receivePdu N (some p) len = .ok (some (hdr, x))) :
    PduAt xs (headerLength hdr) hdr ∧ ∃ n, DataField.decode N (p.add (headerLength hdr))
      (slice xs (headerLength hdr) (payloadLength hdr)) hdr = some (n, x) := by
  by_cases hat : ∃ hsize hdr, PduAt xs hsize hdr
  · obtain ⟨hsize, hdr', hat⟩ := hat
    have hreceive := receivePdu_of_pduAt (N := N) h32 hp hlen hat
    rw [hrun, Except.ok.injEq, eq_comm] at hreceive
    obtain ⟨⟨n, x'⟩, hdec, heq⟩ := Option.map_eq_some_iff.mp hreceive
    rw [Prod.mk.injEq] at heq
    obtain ⟨rfl, rfl⟩ := heq
    obtain ⟨rfl, _⟩ := headerDecode_spec hat.header
    exact ⟨hat, n, hdec⟩
  · rw [receivePdu_of_not_pduAt h32 hp hlen hat] at hrun
    cases hrun

/-- The data field length counts the payload and the CRC. -/
theorem PduAt.sizedFor {xs : List UInt8} {n : Nat} {hdr : PduHeader} (hat : PduAt xs n hdr)
    {payload : List UInt8} (h : payload.length = payloadLength hdr) : SizedFor hdr payload := by
  rw [SizedFor, h, payloadLength]
  by_cases hcrc : hdr.crcFlag = CFDP_CRC_PRESENT
  · have hlong := hat.crcLength hcrc
    rw [if_pos hcrc, if_pos hcrc, Nat.sub_add_cancel hlong]
  · rw [if_neg hcrc, if_neg hcrc, Nat.add_zero]

theorem PduHeader.sized_self (hdr : PduHeader) : hdr.sized hdr.dataFieldLength.toNat = hdr := by
  rw [PduHeader.sized, UInt16.ofNat_toNat]

theorem DataField.length_clearSpare (x : DataField N) (xs : List UInt8) :
    (x.clearSpare xs).length = xs.length := by
  unfold DataField.clearSpare
  cases x.directive with
  | none => rfl
  | some d => exact d.length_clearSpare xs

/-- **Main result.** What is received can be sent: unless the data field breaks the rule on
    fault locations, the sender writes a PDU with the same header and with the octets that
    were consumed, their spare bits cleared.  A PDU that was consumed whole and has no spare
    bit set goes out octet for octet as it came in. -/
theorem receive_send (h32 : 32 ≤ T.sizeBits) {p : Ptr} {xs : List UInt8} {len : Size T}
    (hp : p.Holds xs) (hlen : xs.length = len.toNat) {hdr : PduHeader} {x : DataField N}
    (hrun : receivePdu N (some p) len = .ok (some (hdr, x)))
    (hrule : x.KeepsFaultRule (payloadLength hdr)) {i : Nat} {cap : Size T} {m : Object}
    (hext : i + cap.toNat ≤ m.extent)
    (hroom : headerLength hdr + x.consumed hdr.largeFileFlag (payloadLength hdr) + 2 ≤
      cap.toNat) :
    ∃ total m' k, sendPdu hdr x i cap m = .ok (total, m') ∧ m.SameOutside m' i cap.toNat ∧
      octetsAt (some ⟨m', i⟩) total.toNat = pduOctets (hdr.sized k) (x.clearSpare
        (slice xs (headerLength hdr) (x.consumed hdr.largeFileFlag (payloadLength hdr)))) ∧
      (x.consumed hdr.largeFileFlag (payloadLength hdr) = payloadLength hdr →
        x.clearSpare (slice xs (headerLength hdr) (payloadLength hdr)) =
          slice xs (headerLength hdr) (payloadLength hdr) →
        ignoredCleared (xs.take (headerLength hdr)) = xs.take (headerLength hdr) →
        octetsAt (some ⟨m', i⟩) total.toNat =
          xs.take (headerLength hdr + hdr.dataFieldLength.toNat)) := by
  obtain ⟨hat, n, hdec⟩ := receivePdu_eq_some h32 hp hlen hrun
  have hrange := headerDecode_inRange hat.header
  have hcomplete := hat.complete
  have hdfl := hdr.dataFieldLength.toNat_lt
  have hpayload : ∀ payload : List UInt8, payload.length = payloadLength hdr → payload.length +
      (if hdr.crcFlag = CFDP_CRC_PRESENT then 2 else 0) = hdr.dataFieldLength.toNat :=
    fun payload h => (hat.sizedFor h).symm
  have hfits := payloadLength_le hdr
  have hslice : (slice xs (headerLength hdr) (payloadLength hdr)).length = payloadLength hdr :=
    length_slice (by omega)
  obtain ⟨hn, hencoding⟩ := DataField.encoding_of_decode h32 (hp.slice (by omega))
    (by rw [hslice]; omega) hdec
  obtain ⟨_, hle⟩ := DataField.decode_pos hdec
  rw [hslice] at hn hencoding hle
  dsimp only at hn hencoding hle
  obtain ⟨hsourced, he⟩ := hencoding hrule
  have htake : (slice xs (headerLength hdr) (payloadLength hdr)).take n =
      slice xs (headerLength hdr) n := by
    rw [slice, List.take_take, Nat.min_eq_left hle, slice]
  rw [← hn] at hroom ⊢
  rw [htake] at he
  have hlength : (x.clearSpare (slice xs (headerLength hdr) n)).length = n := by
    rw [x.length_clearSpare, length_slice (by omega)]
  obtain ⟨total, m', hsend, hsame, hne, hpdu⟩ := sendPdu_run h32 hrange hsourced (by omega) hext
    (sentIn_of_fits he (by omega)).symm
  rw [hlength] at hne hpdu
  -- a PDU that was received has a data field that fits, with or without its CRC
  have htotal : total ≠ sz 0 := by
    apply hne.mpr
    intro hcrc
    have hsum := hpayload _ hslice
    rw [hslice, if_pos hcrc] at hsum
    omega
  obtain ⟨k, hsized, hpduLength, hholds⟩ := hpdu htotal fun _ => by omega
  have hoctets : octetsAt (some ⟨m', i⟩) total.toNat =
      pduOctets (hdr.sized k) (x.clearSpare (slice xs (headerLength hdr) n)) := by
    rw [← hpduLength, hholds.octetsAt]
  refine ⟨total, m', k, hsend, hsame, hoctets, fun hwhole hclear hheader => ?_⟩
  rw [hwhole] at hoctets hsized
  rw [hclear] at hoctets hsized
  -- the received lengths describe the payload, so the size sent is the size received
  have hself : SizedFor (hdr.sized hdr.dataFieldLength.toNat)
      (slice xs (headerLength hdr) (payloadLength hdr)) := by
    rw [hdr.sized_self]
    exact hat.sizedFor hslice
  rw [hoctets, hsized.sized_unique hself, hdr.sized_self, hat.pduOctets_eq hheader]

/-- A Prompt for a Keep Alive, received and sent again. -/
theorem receive_send_sample :
    receivePdu defaultNakCapacity
        (some ⟨Object.full (pduOctets samplePromptHeader [0x09, 0x80]), 0⟩)
        (sz 11 : Size .checked32) = .ok (some (samplePromptHeader, .prompt 1)) ∧
      ∃ total m', sendPdu samplePromptHeader (.prompt 1 : DataField defaultNakCapacity) 0
          (sz 16 : Size .checked32) (Object.full (List.replicate 16 0)) = .ok (total, m') ∧
        octetsAt (some ⟨m', 0⟩) total.toNat = pduOctets samplePromptHeader [0x09, 0x80] := by
  have hp := Object.holds_whole (pduOctets samplePromptHeader [0x09, 0x80])
  have hsized : SizedFor samplePromptHeader [0x09, 0x80] := rfl
  obtain ⟨_, hreceive⟩ := @receivePdu_pduOctets _ defaultNakCapacity _ (sz 11) _
    (Nat.le_refl 32) samplePromptHeader_inRange _ hsized [] (by rwa [List.append_nil]) rfl
  have hrun : receivePdu defaultNakCapacity
      (some ⟨Object.full (pduOctets samplePromptHeader [0x09, 0x80]), 0⟩)
        (sz 11 : Size .checked32) = .ok (some (samplePromptHeader, .prompt 1)) := hreceive
  have hheader : ignoredCleared ((pduOctets samplePromptHeader [0x09, 0x80]).take 7) =
      (pduOctets samplePromptHeader [0x09, 0x80]).take 7 := by decide +kernel
  obtain ⟨total, m', _, hsend, _, _, hexact⟩ := @receive_send _ _ (Nat.le_refl 32) _ _ _ hp rfl _ _
    hrun trivial 0 (sz 16) (Object.full (List.replicate 16 0)) (by decide) (by decide)
  exact ⟨hrun, total, m', hsend, hexact rfl rfl hheader⟩

end EmbeddedCfdp
