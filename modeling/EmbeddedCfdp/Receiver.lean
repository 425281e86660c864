import EmbeddedCfdp.FaultLocation
import EmbeddedCfdp.FileDataRoundTrip
import EmbeddedCfdp.PduCrc

/-!
# Receiving arbitrary octets

Every deserialiser of the library with its arguments and the spans it reports.  On any
octets it reads and reports nothing behind the length it is given; behind a PDU that
`cfdp_pdu_crc_verify` accepts, that keeps the CRC octets out of the payload.
-/

namespace EmbeddedCfdp

open CMemory

variable {T : Target}

/-! ### The spans of each object -/

def FileDataPdu.spans (fd : FileDataPdu T) : List Span :=
  [⟨fd.segmentMetadata, fd.segmentMetadataLen.toNat⟩, ⟨fd.fileData, fd.fileDataLen.toNat⟩]

def FinishedPdu.spans (fin : FinishedPdu) : List Span :=
  [⟨fin.filestoreResponses, fin.filestoreResponsesLen.toNat⟩]

def MetadataPdu.spans (md : MetadataPdu) : List Span :=
  [⟨md.sourceFilename, md.sourceFilenameLen.toNat⟩,
    ⟨md.destinationFilename, md.destinationFilenameLen.toNat⟩,
    ⟨md.options, md.optionsLen.toNat⟩]

def Tlv.spans (tlv : Tlv) : List Span := [⟨tlv.value, tlv.length.toNat⟩]

def FilestoreRequest.spans (req : FilestoreRequest) : List Span :=
  [⟨req.firstFilename, req.firstFilenameLen.toNat⟩,
    ⟨req.secondFilename, req.secondFilenameLen.toNat⟩]

def FilestoreResponse.spans (resp : FilestoreResponse) : List Span :=
  [⟨resp.firstFilename, resp.firstFilenameLen.toNat⟩,
    ⟨resp.secondFilename, resp.secondFilenameLen.toNat⟩,
    ⟨resp.message, resp.messageLen.toNat⟩]

/-- The spans in an object that the caller may have left out. -/
def spansOf {σ : Type} (spans : σ → List Span) (out : Option σ) : List Span := out.elim [] spans

/-! ### Deserialisers -/

/-- A deserialiser with its flags and the objects it fills in. -/
inductive Deserialiser (N : NakCapacity T) where
  | header (hdr : Option PduHeader)
  | fileData (largeFileFlag : LargeFileFlag) (segmentMetadataFlag : SegMetadataFlag)
      (fd : Option (FileDataPdu T))
  | eof (largeFileFlag : LargeFileFlag) (pdu : Option EofPdu)
  | finished (fin : Option FinishedPdu)
  | ack (pdu : Option AckPdu)
  | metadata (largeFileFlag : LargeFileFlag) (md : Option MetadataPdu)
  | nak (largeFileFlag : LargeFileFlag) (pdu : Option (NakPdu N))
  | prompt (response : Option PromptResponse)
  | keepAlive (largeFileFlag : LargeFileFlag) (progress : Option UInt64)
  | lv (value : Option (Option Ptr)) (valueLen : Option UInt8)
  | tlv (object : Option Tlv)
  | entityIdTlv (entityId : Option UInt64) (idLen : Option UInt8)
  | faultHandlerTlv (conditionCode : Option ConditionCode) (handlerCode : Option FaultHandlerCode)
  | filestoreRequestTlv (req : Option FilestoreRequest)
  | filestoreResponseTlv (resp : Option FilestoreResponse)

namespace Deserialiser

variable {N : NakCapacity T}

/-- What is returned, and the spans that were reported. -/
def run (c : Deserialiser N) (buf : Option Ptr) (bufLen : Size T) :
    Except Fault (Size T × List Span) :=
  match c with
  | .header hdr => (pduHeaderDeserialize buf bufLen hdr).map fun out => (out.1, [])
  | .fileData largeFileFlag segmentMetadataFlag fd =>
      (fileDataDeserialize buf bufLen largeFileFlag segmentMetadataFlag fd).map fun out =>
        (out.1, spansOf FileDataPdu.spans out.2)
  | .eof largeFileFlag pdu =>
      (eofDeserialize buf bufLen largeFileFlag pdu).map fun out => (out.1, [])
  | .finished fin => (finishedDeserialize buf bufLen fin).map fun out =>
      (out.1, spansOf FinishedPdu.spans out.2)
  | .ack pdu => (ackDeserialize buf bufLen pdu).map fun out => (out.1, [])
  | .metadata largeFileFlag md => (metadataDeserialize buf bufLen largeFileFlag md).map fun out =>
      (out.1, spansOf MetadataPdu.spans out.2)
  | .nak largeFileFlag pdu =>
      (nakDeserialize buf bufLen largeFileFlag pdu).map fun out => (out.1, [])
  | .prompt response => (promptDeserialize buf bufLen response).map fun out => (out.1, [])
  | .keepAlive largeFileFlag progress =>
      (keepAliveDeserialize buf bufLen largeFileFlag progress).map fun out => (out.1, [])
  | .lv value valueLen => (lvDeserialize buf bufLen value valueLen).map fun out =>
      (out.1, [⟨out.2.1.getD none, (out.2.2.getD 0).toNat⟩])
  | .tlv object => (tlvDeserialize buf bufLen object).map fun out =>
      (out.1, spansOf Tlv.spans out.2)
  | .entityIdTlv entityId idLen =>
      (entityIdTlvDeserialize buf bufLen entityId idLen).map fun out => (out.1, [])
  | .faultHandlerTlv conditionCode handlerCode =>
      (faultHandlerTlvDeserialize buf bufLen conditionCode handlerCode).map fun out => (out.1, [])
  | .filestoreRequestTlv req => (filestoreRequestTlvDeserialize buf bufLen req).map fun out =>
      (out.1, spansOf FilestoreRequest.spans out.2)
  | .filestoreResponseTlv resp => (filestoreResponseTlvDeserialize buf bufLen resp).map fun out =>
      (out.1, spansOf FilestoreResponse.spans out.2)

end Deserialiser

/-! ### Where the spans lie -/

section Spans

variable {p : Ptr} {xs : List UInt8} {k n : Nat}

theorem Lv.inside_field (v : Lv) (hk : k + v.encode.length ≤ n) :
    (Span.mk (v.field p k).1 (v.field p k).2.toNat).Inside p n := by
  have hlen : (v.field p k).2.toNat = v.octets.length := toNat_ofNat_of_le v.short
  rw [Lv.length_encode] at hk
  exact Span.inside_spanAt (Nat.le_of_eq hlen) (Or.inr (by unfold CFDP_LV_HEADER_LEN; omega))

theorem Lv.inside_fieldOption (v : Option Lv) (hk : k + (Lv.encodeOption v).length ≤ n) :
    (Span.mk (Lv.fieldOption p k v).1 (Lv.fieldOption p k v).2.toNat).Inside p n := by
  cases v with
  | none => rfl
  | some v => exact v.inside_field hk

theorem Lv.fieldOption_add (j : Nat) (v : Option Lv) :
    Lv.fieldOption (p.add j) k v = Lv.fieldOption p (j + k) v := by
  cases v with
  | none => rfl
  | some v => exact v.field_add j k

theorem TlvItem.inside_view (t : TlvItem) :
    ∀ span ∈ (t.view p).spans, span.Inside p t.encode.length := by
  have hlen : (t.view p).length.toNat = t.value.length := toNat_ofNat_of_le t.short
  intro span hspan
  rw [List.mem_singleton.mp hspan]
  refine Span.inside_spanAt (Nat.le_of_eq hlen) (Or.inr ?_)
  rw [TlvItem.length_encode, CFDP_TLV_HEADER_LEN]
  omega

theorem FilestoreFields.inside_names (f : FilestoreFields) (hn : f.value.length + 2 ≤ n) :
    let names := namesView (p.add 3) (f.first, f.second)
    (Span.mk names.1.1 names.1.2.toNat).Inside p n ∧
      (Span.mk names.2.1 names.2.2.toNat).Inside p n := by
  rw [FilestoreFields.value, List.length_cons, List.length_append, namesEncode,
    List.length_append] at hn
  dsimp only [namesView] at hn ⊢
  rw [Lv.field_add, Lv.fieldOption_add]
  exact ⟨f.first.inside_field (by omega), Lv.inside_fieldOption _ (by omega)⟩

theorem FilestoreFields.inside_request (f : FilestoreFields) (hn : f.value.length + 2 ≤ n) :
    ∀ span ∈ (f.request p).spans, span.Inside p n := by
  obtain ⟨hfirst, hsecond⟩ := f.inside_names (p := p) hn
  intro span hspan
  simp only [FilestoreRequest.spans, List.mem_cons, List.not_mem_nil, or_false] at hspan
  rcases hspan with rfl | rfl
  · exact hfirst
  · exact hsecond

theorem FilestoreFields.inside_response (f : FilestoreFields) (hn : f.value.length + 2 ≤ n) :
    ∀ span ∈ (f.response p).spans, span.Inside p n := by
  obtain ⟨hfirst, hsecond⟩ := f.inside_names (p := p) hn
  rw [FilestoreFields.value, List.length_cons, List.length_append] at hn
  intro span hspan
  simp only [FilestoreResponse.spans, List.mem_cons, List.not_mem_nil, or_false] at hspan
  rcases hspan with rfl | rfl | rfl
  · exact hfirst
  · exact hsecond
  · dsimp only [FilestoreFields.response]
    rw [Lv.fieldOption_add]
    exact Lv.inside_fieldOption _ (by omega)

theorem MetadataFields.inside_view {largeFileFlag : LargeFileFlag} {f : MetadataFields}
    (h : metadataDecode xs largeFileFlag = some f) :
    ∀ span ∈ (f.view p xs largeFileFlag).spans, span.Inside p xs.length := by
  obtain ⟨⟨hstart, _⟩, h⟩ := Option.ite_none_right_eq_some.mp h
  obtain ⟨⟨source, ys⟩, hsource, h⟩ := Option.bind_eq_some_iff.mp h
  obtain ⟨⟨destination, options⟩, hdestination, rfl⟩ := Option.map_eq_some_iff.mp h
  have hlength : 2 + (fileSizeOctets largeFileFlag).toNat + source.encode.length +
      destination.encode.length + options.length = xs.length := by
    have hdrop := congrArg List.length (Lv.decode_eq_some.mp hsource)
    have hys := congrArg List.length (Lv.decode_eq_some.mp hdestination)
    rw [List.length_drop, List.length_append] at hdrop
    rw [List.length_append] at hys
    dsimp only at hys
    omega
  have hoptions : (UInt16.ofNat options.length).toNat ≤ options.length := by
    rw [UInt16.toNat_ofNat']
    exact Nat.mod_le _ _
  intro span hspan
  simp only [MetadataPdu.spans, List.mem_cons, List.not_mem_nil, or_false] at hspan
  -- two names and the options, none of which ends behind the PDU
  rcases hspan with rfl | rfl | rfl
  · exact source.inside_field (by omega)
  · exact destination.inside_field (by dsimp only; omega)
  · refine Span.inside_spanAt hoptions (Or.inr ?_)
    dsimp only [MetadataFields.optionsStart]
    omega

theorem FinishedScan.inside_view {s : FinishedScan} (h : finishedDecode xs = some s)
    (octet : UInt8) : ∀ span ∈ (s.view p octet).spans, span.Inside p xs.length := by
  obtain ⟨htwo, _, responses, ids, _, hdrop, rfl⟩ := finishedDecode_eq_some.mp h
  have hlength := congrArg List.length hdrop
  rw [List.length_drop, List.length_append] at hlength
  intro span hspan
  rw [List.mem_singleton.mp hspan]
  dsimp only [FinishedScan.view]
  by_cases hnone : (tlvCodec.chain responses).length = 0
  · rw [if_pos hnone, hnone]
    rfl
  · have hlen : (UInt16.ofNat (tlvCodec.chain responses).length).toNat ≤
        (tlvCodec.chain responses).length := by
      rw [UInt16.toNat_ofNat']
      exact Nat.mod_le _ _
    rw [if_neg hnone]
    exact ⟨2, rfl, by dsimp only; omega⟩

theorem FileDataItem.inside_view {largeFileFlag : LargeFileFlag}
    {segmentMetadataFlag : SegMetadataFlag}
    {x : FileDataItem largeFileFlag segmentMetadataFlag} (h : FileDataItem.decode xs = some x) :
    ∀ span ∈ (x.view (T := T) p).spans, span.Inside p xs.length := by
  have hlength := x.length_encode
  rw [FileDataItem.encode_of_decode h] at hlength
  have hshort := x.short
  have hmetadata : (UInt8.ofNat x.segmentMetadata.length).toNat = x.segmentMetadata.length :=
    toNat_ofNat_of_le (by omega)
  have hfileData : (sz x.fileData.length : Size T).toNat ≤ x.fileData.length := by
    rw [sz, BitVec.toNat_ofNat]
    exact Nat.mod_le _ _
  intro span hspan
  simp only [FileDataPdu.spans, List.mem_cons, List.not_mem_nil, or_false] at hspan
  rcases hspan with rfl | rfl
  · refine Span.inside_spanAt (Nat.le_of_eq hmetadata) ?_
    -- without the flag the span of the metadata is null
    by_cases hpresent : segmentMetadataFlag = CFDP_SEG_METADATA_PRESENT
    · rw [metadataOctets, if_pos hpresent] at hlength
      exact Or.inr (by omega)
    · exact Or.inl (x.absent hpresent).2
  · exact Span.inside_spanAt hfileData (Or.inr (by omega))

end Spans

/-! ### Every deserialiser -/

/-- A deserialiser that refines a codec consumes an encoding off the front. -/
theorem within_codec {α σ : Type} (c : PrefixCodec UInt8 α) (view : α → σ) {p : Ptr}
    {xs : List UInt8} {len : Size T} {r : Except Fault (Size T × σ)}
    (h : Decodes r ((c.dec xs).map fun v => ((c.enc v.1).length, view v.1)))
    (hlen : xs.length = len.toNat) (spans : σ → List Span)
    (hview : ∀ a, ∀ span ∈ spans (view a), span.Inside p (c.enc a).length) :
    Within p len (r.map fun out => (out.1, spans out.2)) := by
  refine h.within spans ?_
  rintro ⟨a, rest⟩ hdec
  rw [← hlen]
  exact ⟨c.length_enc_le hdec, hview a⟩

theorem Deserialiser.within {N : NakCapacity T} (c : Deserialiser N) {p : Ptr}
    {xs : List UInt8} {len : Size T} (h : p.Holds xs) (hlen : xs.length = len.toNat) :
    Within p len (c.run (some p) len) := by
  -- each refines a decoder, so the span of what it decodes is all there is to see
  cases c with
  | header hdr =>
    cases hdr with
    | none => exact Within.refused
    | some hdr =>
      refine (pduHeaderDeserialize_decodes h (Nat.le_of_eq hlen) (by omega) hdr).within
        (fun _ => []) ?_
      rintro ⟨n, hdr'⟩ hdec
      have hroom := length_of_headerDecode hdec
      exact ⟨by dsimp only; omega, List.forall_mem_nil _⟩
  | fileData largeFileFlag segmentMetadataFlag fd =>
    cases fd with
    | none => exact Within.refused
    | some fd =>
      refine (fileDataDeserialize_decodes h hlen fd).within (spansOf FileDataPdu.spans) ?_
      intro x hx
      exact ⟨Nat.le_of_eq hlen, FileDataItem.inside_view hx⟩
  | eof largeFileFlag pdu =>
    cases pdu with
    | none => exact Within.refused
    | some pdu =>
      refine (eofDeserialize_decodes h hlen largeFileFlag pdu).within (fun _ => []) ?_
      rintro ⟨n, eof⟩ hdec
      rw [← hlen]
      exact ⟨(eofDecode_spec hdec).1, List.forall_mem_nil _⟩
  | finished fin =>
    cases fin with
    | none => exact Within.refused
    | some fin =>
      refine (finishedDeserialize_decodes h hlen fin).within (spansOf FinishedPdu.spans) ?_
      intro s hs
      exact ⟨Nat.le_of_eq hlen, FinishedScan.inside_view hs _⟩
  | ack pdu =>
    cases pdu with
    | none => exact Within.refused
    | some pdu =>
      refine (ackDeserialize_decodes h hlen pdu).within (fun _ => []) ?_
      intro ack hdec
      obtain ⟨hthree, _⟩ := Option.ite_none_right_eq_some.mp hdec
      exact ⟨by rw [← hlen]; exact hthree.1, List.forall_mem_nil _⟩
  | metadata largeFileFlag md =>
    cases md with
    | none => exact Within.refused
    | some md =>
      refine (metadataDeserialize_decodes h hlen largeFileFlag md).within
        (spansOf MetadataPdu.spans) ?_
      intro f hf
      exact ⟨Nat.le_of_eq hlen, MetadataFields.inside_view hf⟩
  | nak largeFileFlag pdu =>
    cases pdu with
    | none => exact Within.refused
    | some pdu =>
      refine (nakDeserialize_decodes h hlen largeFileFlag pdu).within (fun _ => []) ?_
      intro f _
      exact ⟨Nat.le_of_eq hlen, List.forall_mem_nil _⟩
  | prompt response =>
    cases response with
    | none => exact Within.refused
    | some response =>
      refine (promptDeserialize_decodes h hlen response).within (fun _ => []) ?_
      intro r hr
      obtain ⟨htwo, _⟩ := Option.ite_none_right_eq_some.mp hr
      exact ⟨by rw [← hlen]; exact htwo.1, List.forall_mem_nil _⟩
  | keepAlive largeFileFlag progress =>
    cases progress with
    | none => exact Within.refused
    | some progress =>
      refine (keepAliveDeserialize_decodes h hlen largeFileFlag progress).within (fun _ => []) ?_
      intro r hr
      obtain ⟨hroom, _⟩ := Option.ite_none_right_eq_some.mp hr
      exact ⟨by rw [← hlen]; exact hroom.1, List.forall_mem_nil _⟩
  | lv value valueLen =>
    cases value with
    | none => exact Within.refused
    | some value =>
      cases valueLen with
      | none => exact Within.refused
      | some valueLen =>
        refine within_codec lvCodec _ (lvDeserialize_decodes h hlen value valueLen) hlen
          (fun out => [⟨out.1.getD none, (out.2.getD 0).toNat⟩]) ?_
        intro v span hspan
        rw [List.mem_singleton.mp hspan]
        exact v.inside_field (Nat.le_of_eq (Nat.zero_add _))
  | tlv object =>
    cases object with
    | none => exact Within.refused
    | some object =>
      exact within_codec tlvCodec (fun t => some (t.view p))
        (tlvDeserialize_decodes h hlen object) hlen (spansOf Tlv.spans) fun t => t.inside_view
  | entityIdTlv entityId idLen =>
    cases entityId with
    | none => exact Within.refused
    | some entityId =>
      cases idLen with
      | none => exact Within.refused
      | some idLen =>
        exact within_codec entityIdCodec _ (entityIdTlvDeserialize_decodes h hlen entityId idLen)
          hlen (fun _ => []) fun _ => List.forall_mem_nil _
  | faultHandlerTlv conditionCode handlerCode =>
    cases conditionCode with
    | none => exact Within.refused
    | some conditionCode =>
      cases handlerCode with
      | none => exact Within.refused
      | some handlerCode =>
        exact within_codec faultHandlerCodec _
          (faultHandlerTlvDeserialize_decodes h hlen conditionCode handlerCode) hlen
          (fun _ => []) fun _ => List.forall_mem_nil _
  | filestoreRequestTlv req =>
    cases req with
    | none => exact Within.refused
    | some req =>
      exact within_codec (filestoreCodec false) (fun item => some (item.fields.request p))
        (filestoreRequestTlvDeserialize_decodes h hlen req) hlen
        (spansOf FilestoreRequest.spans)
        fun item => item.fields.inside_request (Nat.le_of_eq item.length_enc.symm)
  | filestoreResponseTlv resp =>
    cases resp with
    | none => exact Within.refused
    | some resp =>
      exact within_codec (filestoreCodec true) (fun item => some (item.fields.response p))
        (filestoreResponseTlvDeserialize_decodes h hlen resp) hlen
        (spansOf FilestoreResponse.spans)
        fun item => item.fields.inside_response (Nat.le_of_eq item.length_enc.symm)

/-- **Main result.** Whatever the octets at `p`, every deserialiser is safe on any length
    that they reach, and so is the CRC check.  When that check accepts, the header decodes,
    and behind it lie exactly the octets of the payload and then the CRC octets: on the
    payload every deserialiser is safe again, so it neither needs nor reports a CRC octet. -/
theorem receive_safe (h32 : 32 ≤ T.sizeBits) (N : NakCapacity T) {p : Ptr} {len : Size T}
    (hlen : len.toNat ≤ p.readable.length) :
    (∀ c : Deserialiser N, SafeAt (fun q => c.run (some q) len) p len) ∧
    ∃ accepted, pduCrcVerify (some (p.limit len.toNat)) len = .ok accepted ∧
      pduCrcVerify (some p) len = .ok accepted ∧
      (accepted = true → ∃ (hsize n : Size T) (hdr : PduHeader), hsize ≠ sz 0 ∧
        (∀ old, pduHeaderDeserialize (some p) len (some old) = .ok (hsize, some hdr)) ∧
        pduPayloadSize (some hdr) = .ok n ∧
        hsize.toNat + n.toNat + (if hdr.crcFlag = CFDP_CRC_PRESENT then CFDP_PDU_CRC_LEN else 0) =
          hsize.toNat + hdr.dataFieldLength.toNat ∧
        hsize.toNat + hdr.dataFieldLength.toNat ≤ len.toNat ∧
        ∀ c : Deserialiser N, SafeAt (fun q => c.run (some q) n) (p.add hsize.toNat) n) := by
  have hsafe : ∀ (q : Ptr) (n : Size T), n.toNat ≤ q.readable.length →
      ∀ c : Deserialiser N, SafeAt (fun q => c.run (some q) n) q n :=
    fun q n hn c => SafeAt.of_within hn fun _ _ hq hlength => c.within hq hlength
  refine ⟨hsafe p len hlen, ?_⟩
  have hxs : p.Holds (p.readable.take len.toNat) := List.take_prefix _ _
  have hlength : (p.readable.take len.toNat).length = len.toNat := List.length_take_of_le hlen
  have hlimit : (p.limit len.toNat).Holds (p.readable.take len.toNat) := by
    unfold Ptr.Holds
    rw [Ptr.readable_limit]
  obtain ⟨b, hverify, hiff⟩ := pduCrcVerify_spec h32 hxs hlength
  obtain ⟨b', hverify', hiff'⟩ := pduCrcVerify_spec h32 hlimit hlength
  -- the check does not depend on what lies behind the limit
  have hsame : b' = b := by
    rw [Bool.eq_iff_iff, hiff, hiff']
  refine ⟨b, by rw [hverify', hsame], hverify, fun haccepted => ?_⟩
  obtain ⟨hsize, hdr, hat⟩ := hiff.mp haccepted
  obtain ⟨hseven, h28, _⟩ := length_of_headerDecode hat.header
  have hcomplete := hat.complete
  rw [hlength] at hcomplete
  have hlt := len.isLt
  have hsz : (sz hsize : Size T).toNat = hsize := toNat_sz (by omega)
  have hpayload : payloadLength hdr ≤ hdr.dataFieldLength.toNat := by
    unfold payloadLength
    by_cases hcrc : hdr.crcFlag = CFDP_CRC_PRESENT
    · rw [if_pos hcrc]
      exact Nat.sub_le _ _
    · rw [if_neg hcrc]
  have hn : (sz (payloadLength hdr) : Size T).toNat = payloadLength hdr := toNat_sz (by omega)
  refine ⟨sz hsize, sz (payloadLength hdr), hdr, sz_ne_zero (by omega) (by omega), ?_,
    pduPayloadSize_eq hdr, ?_, by rwa [hsz], ?_⟩
  · intro old
    exact pduHeaderDeserialize_run hxs hlength hat.header old
  · rw [hsz, hn, payloadLength]
    -- the two octets of the CRC are part of the data field, not of the payload
    by_cases hcrc : hdr.crcFlag = CFDP_CRC_PRESENT
    · have hroom := hat.crcLength hcrc
      rw [if_pos hcrc, if_pos hcrc]
      omega
    · rw [if_neg hcrc, if_neg hcrc, Nat.add_zero]
  · rw [hsz]
    refine hsafe _ _ ?_
    rw [hn, Ptr.readable_add, List.length_drop]
    omega

theorem receive_safe_sample :
    let p : Ptr := ⟨Object.full (pduOctets sampleCrcHeader [0x0C]), 0⟩
    pduCrcVerify (some p) (sz 10 : Size .checked32) = .ok true ∧
      ∃ hsize n : Size .checked32, hsize.toNat + n.toNat ≤ 8 ∧
        ∀ c : Deserialiser (T := .checked32) ⟨32, by decide⟩,
          SafeAt (fun q => c.run (some q) n) (p.add hsize.toNat) n := by
  intro p
  have hverify : pduCrcVerify (some p) (sz 10 : Size .checked32) = .ok true := by decide +kernel
  obtain ⟨_, accepted, _, hrun, hpayload⟩ :=
    @receive_safe .checked32 (Nat.le_refl 32) ⟨32, by decide⟩ p (sz 10) (by decide +kernel)
  rw [hverify, Except.ok.injEq] at hrun
  obtain ⟨hsize, n, hdr, _, hheader, _, hsum, hfits, hsafe⟩ := hpayload hrun.symm
  have hdecoded : pduHeaderDeserialize (some p) (sz 10 : Size .checked32) (some default) =
      .ok (sz 7, some sampleCrcHeader) := by decide +kernel
  have hhdr : hdr = sampleCrcHeader := by
    have hsame := (hheader default).symm.trans hdecoded
    simp only [Except.ok.injEq, Prod.mk.injEq, Option.some.injEq] at hsame
    exact hsame.2
  refine ⟨hverify, hsize, n, ?_, hsafe⟩
  have hten : (sz 10 : Size .checked32).toNat = 10 := by decide
  have hcrc : sampleCrcHeader.crcFlag = CFDP_CRC_PRESENT := rfl
  rw [hhdr, if_pos hcrc, CFDP_PDU_CRC_LEN] at hsum
  rw [hhdr, hten] at hfits
  omega

end EmbeddedCfdp
