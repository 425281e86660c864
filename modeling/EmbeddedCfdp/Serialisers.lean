import EmbeddedCfdp.DirectiveSerialise
import EmbeddedCfdp.FileDataCodec
import EmbeddedCfdp.HeaderCodec

/-!
# All serialisers

Every serialiser of the library with its arguments, the octets that stand for these,
and that every call writes them, or writes nothing that counts, inside the buffer it
was given.
-/

namespace EmbeddedCfdp

open CMemory

variable {T : Target}

/-- A serialiser and its arguments other than the buffer. -/
inductive Serialiser (N : NakCapacity T) where
  | header (hdr : Option PduHeader)
  | fileData (fd : Option (FileDataPdu T)) (largeFileFlag : LargeFileFlag)
      (segmentMetadataFlag : SegMetadataFlag)
  | eof (eof : Option EofPdu) (largeFileFlag : LargeFileFlag)
  | finished (fin : Option FinishedPdu)
  | ack (ack : Option AckPdu)
  | metadata (md : Option MetadataPdu) (largeFileFlag : LargeFileFlag)
  | nak (nak : Option (NakPdu N)) (largeFileFlag : LargeFileFlag)
  | prompt (response : PromptResponse)
  | keepAlive (progress : UInt64) (largeFileFlag : LargeFileFlag)
  | lv (value : Option Ptr) (valueLen : UInt8)
  | tlv (tlv : Option Tlv)
  | entityIdTlv (entityId : UInt64) (idLen : UInt8)
  | faultHandlerTlv (conditionCode : ConditionCode) (handlerCode : FaultHandlerCode)
  | filestoreRequestTlv (req : Option FilestoreRequest)
  | filestoreResponseTlv (resp : Option FilestoreResponse)

namespace Serialiser

variable {N : NakCapacity T}

def run (c : Serialiser N) (buf : Option Nat) (bufLen : Size T) : Writer (Size T) :=
  match c with
  | .header hdr => pduHeaderSerialize hdr buf bufLen
  | .fileData fd largeFileFlag segmentMetadataFlag =>
      fileDataSerialize fd largeFileFlag segmentMetadataFlag buf bufLen
  | .eof pdu largeFileFlag => eofSerialize pdu largeFileFlag buf bufLen
  | .finished fin => finishedSerialize fin buf bufLen
  | .ack pdu => ackSerialize pdu buf bufLen
  | .metadata md largeFileFlag => metadataSerialize md largeFileFlag buf bufLen
  | .nak pdu largeFileFlag => nakSerialize pdu largeFileFlag buf bufLen
  | .prompt response => promptSerialize response buf bufLen
  | .keepAlive progress largeFileFlag => keepAliveSerialize progress largeFileFlag buf bufLen
  | .lv value valueLen => lvSerialize value valueLen buf bufLen
  | .tlv object => tlvSerialize object buf bufLen
  | .entityIdTlv entityId idLen => entityIdTlvSerialize entityId idLen buf bufLen
  | .faultHandlerTlv conditionCode handlerCode =>
      faultHandlerTlvSerialize conditionCode handlerCode buf bufLen
  | .filestoreRequestTlv req => filestoreRequestTlvSerialize req buf bufLen
  | .filestoreResponseTlv resp => filestoreResponseTlvSerialize resp buf bufLen

/-- The octets that stand for the arguments. -/
def encoding (c : Serialiser N) : Option (List UInt8) :=
  match c with
  | .header hdr => hdr.bind headerEncoding
  | .fileData fd largeFileFlag segmentMetadataFlag => fd.bind fun fd =>
      (fileDataOf largeFileFlag segmentMetadataFlag fd).map FileDataItem.encode
  | .eof pdu largeFileFlag => pdu.bind fun pdu => eofEncoding pdu largeFileFlag
  | .finished fin => fin.bind finishedEncoding
  | .ack pdu => pdu.bind ackEncoding
  | .metadata md largeFileFlag => md.bind fun md => metadataEncoding md largeFileFlag
  | .nak pdu largeFileFlag => pdu.bind fun pdu => nakEncoding pdu largeFileFlag
  | .prompt response => some (promptOctets response)
  | .keepAlive progress largeFileFlag => some (keepAliveOctets progress largeFileFlag)
  | .lv value valueLen => (lvOf value valueLen).map Lv.encode
  | .tlv object => object.bind fun object => (tlvOf object).map TlvItem.encode
  | .entityIdTlv entityId idLen => (entityIdOf entityId idLen).map entityIdCodec.enc
  | .faultHandlerTlv conditionCode handlerCode =>
      (faultHandlerOf conditionCode handlerCode).map faultHandlerCodec.enc
  | .filestoreRequestTlv req => req.bind fun req =>
      (filestoreRequestOf req).map (filestoreCodec false).enc
  | .filestoreResponseTlv resp => resp.bind fun resp =>
      (filestoreResponseOf resp).map (filestoreCodec true).enc

/-- The caller's side of the contract: pointers give access to as many octets as their
    lengths say, and a File Data payload has a size that is a `size_t`. -/
def Sourced (c : Serialiser N) : Prop :=
  match c with
  | .fileData (some fd) largeFileFlag segmentMetadataFlag =>
      fileDataSize largeFileFlag segmentMetadataFlag fd < 2 ^ T.sizeBits ∧
        Readable fd.fileData fd.fileDataLen.toNat ∧
        Readable fd.segmentMetadata fd.segmentMetadataLen.toNat
  | .finished (some fin) => Readable fin.filestoreResponses fin.filestoreResponsesLen.toNat
  | .metadata (some md) _ => md.Sourced
  | .lv value valueLen => Readable value valueLen.toNat
  | .tlv (some object) => Readable object.value object.length.toNat
  | .filestoreRequestTlv (some req) => req.Sourced
  | .filestoreResponseTlv (some resp) => resp.Sourced
  | _ => True

/-- A null destination is refused. -/
theorem run_none (c : Serialiser N) (bufLen : Size T) (m : Object) :
    c.run none bufLen m = .ok (sz 0, m) := by
  cases c with
  | header hdr => cases hdr <;> rfl
  | fileData fd => cases fd <;> rfl
  | eof eof => cases eof <;> rfl
  | finished fin => cases fin <;> rfl
  | ack ack => cases ack <;> rfl
  | metadata md => cases md <;> rfl
  | nak nak => cases nak <;> rfl
  | prompt response => rfl
  | keepAlive progress => rfl
  | lv value valueLen => rfl
  | tlv tlv => cases tlv <;> rfl
  | entityIdTlv entityId idLen => rfl
  | faultHandlerTlv conditionCode handlerCode => rfl
  | filestoreRequestTlv req => cases req <;> rfl
  | filestoreResponseTlv resp => cases resp <;> rfl

/-- Every serialiser refines its encoder. -/
theorem encodes (h32 : 32 ≤ T.sizeBits) (c : Serialiser N) (hc : c.Sourced) :
    Encodes (fun i n => c.run (some i) n) c.encoding := by
  have hpow := T.two_pow_ge_of_le h32
  -- a null structure is refused; what is given is left to its own serialiser
  cases c with
  | header hdr =>
    cases hdr with
    | none => exact Encodes.refused
    | some hdr => exact pduHeaderSerialize_encodes hdr
  | fileData fd largeFileFlag segmentMetadataFlag =>
    cases fd with
    | none => exact Encodes.refused
    | some fd =>
      obtain ⟨hfits, hdata, hmeta⟩ := hc
      exact fileDataSerialize_encodes hfits hdata hmeta
  | eof pdu largeFileFlag =>
    cases pdu with
    | none => exact Encodes.refused
    | some pdu => exact eofSerialize_encodes pdu largeFileFlag
  | finished fin =>
    cases fin with
    | none => exact Encodes.refused
    | some fin =>
      have hlt := fin.filestoreResponsesLen.toNat_lt
      exact finishedSerialize_encodes (by omega) hc
  | ack pdu =>
    cases pdu with
    | none => exact Encodes.refused
    | some pdu => exact ackSerialize_encodes pdu
  | metadata md largeFileFlag =>
    cases md with
    | none => exact Encodes.refused
    | some md =>
      have hsource := md.sourceFilenameLen.toNat_lt
      have hdestination := md.destinationFilenameLen.toNat_lt
      have hoptions := md.optionsLen.toNat_lt
      have hwidth := (length_fileSizeOctets largeFileFlag).1
      exact metadataSerialize_encodes (by rw [metadataSize_eq]; omega) hc
  | nak pdu largeFileFlag =>
    cases pdu with
    | none => exact Encodes.refused
    | some pdu => exact nakSerialize_encodes pdu largeFileFlag
  | prompt response => exact promptSerialize_encodes response
  | keepAlive progress largeFileFlag => exact keepAliveSerialize_encodes progress largeFileFlag
  | lv value valueLen => exact lvSerialize_encodes hc
  | tlv object =>
    cases object with
    | none => exact Encodes.refused
    | some object => exact tlvSerialize_encodes hc
  | entityIdTlv entityId idLen => exact entityIdTlvSerialize_encodes entityId idLen
  | faultHandlerTlv conditionCode handlerCode =>
    exact faultHandlerTlvSerialize_encodes conditionCode handlerCode
  | filestoreRequestTlv req =>
    cases req with
    | none => exact Encodes.refused
    | some req => exact filestoreRequestTlvSerialize_encodes hc
  | filestoreResponseTlv resp =>
    cases resp with
    | none => exact Encodes.refused
    | some resp => exact filestoreResponseTlvSerialize_encodes hc

end Serialiser

/-- **Main result.** A serialiser refuses a null buffer.  With its arguments it either
    returns 0 whatever the buffer, or it writes one fixed string, exactly where that
    fits.  The buffer may end right behind its capacity, so nothing is written there even
    for a moment. -/
theorem serialiser_refines {N : NakCapacity T} (h32 : 32 ≤ T.sizeBits) (c : Serialiser N)
    (hc : c.Sourced) :
    (∀ (len : Size T) (m : Object), c.run none len m = .ok (sz 0, m)) ∧
    ((∀ (i : Nat) (len : Size T) (m : Object), i + len.toNat ≤ m.extent →
        ∃ m', c.run (some i) len m = .ok (sz 0, m') ∧ m.SameOutside m' i len.toNat) ∨
      ∃ enc : List UInt8, enc ≠ [] ∧
        ∀ (i : Nat) (len : Size T) (m : Object), i + len.toNat ≤ m.extent →
          (enc.length ≤ len.toNat → ∃ m', c.run (some i) len m = .ok (sz enc.length, m') ∧
            (Ptr.mk m' i).Holds enc ∧ m.SameOutside m' i enc.length) ∧
          (len.toNat < enc.length → ∃ m', c.run (some i) len m = .ok (sz 0, m') ∧
            m.SameOutside m' i len.toNat)) := by
  have hencodes := c.encodes h32 hc
  refine ⟨c.run_none, ?_⟩
  -- without an encoding every buffer is refused, with one the short ones are
  cases henc : c.encoding with
  | none =>
    refine Or.inl fun i len m hext => ?_
    rcases hencodes.outcome i len m hext with ⟨e, he, _⟩ | ⟨_, m', hrun, hsame⟩
    · rw [henc] at he
      cases he
    · exact ⟨m', hrun, hsame⟩
  | some enc =>
    refine Or.inr ⟨enc, hencodes.ne_nil henc, fun i len m hext => ⟨fun hle => ?_, fun hlt => ?_⟩⟩
    · rw [henc] at hencodes
      exact ⟨m.place i enc, hencodes.writes hext hle, Object.place_holds (by omega),
        Object.sameOutside_place (Nat.le_refl _)⟩
    · rcases hencodes.outcome i len m hext with ⟨e, he, hle, _⟩ | ⟨_, m', hrun, hsame⟩
      · rw [henc, Option.some.injEq] at he
        subst he
        omega
      · exact ⟨m', hrun, hsame⟩

/-- A response to a file that was created, with a message of two octets. -/
def sampleResponse : FilestoreResponse :=
  { actionCode := 0, statusCode := 0, firstFilename := some ⟨Object.full [0x66], 0⟩,
    firstFilenameLen := 1, secondFilename := none, secondFilenameLen := 0,
    message := some ⟨Object.full [0x6F, 0x6B], 0⟩, messageLen := 2 }

/-- The default of `CFDP_NAK_MAX_SEGMENT_REQUESTS`. -/
def defaultNakCapacity : NakCapacity .checked32 := ⟨32, by decide⟩

theorem serialiser_refines_sample :
    ∃ enc : List UInt8, ∀ (i : Nat) (len : Size .checked32) (m : Object),
      i + len.toNat ≤ m.extent → enc.length ≤ len.toNat →
      ∃ m', filestoreResponseTlvSerialize (some sampleResponse) (some i) len m =
          .ok (sz enc.length, m') ∧
        (Ptr.mk m' i).Holds enc ∧ m.SameOutside m' i enc.length := by
  have hsourced : sampleResponse.Sourced := by
    refine ⟨?_, fun hsecond => ?_, ?_⟩
    · rintro q ⟨⟩
      decide
    · exact absurd hsecond (by decide)
    · rintro q ⟨⟩
      decide
  have hwrites : filestoreResponseTlvSerialize (some sampleResponse) (some 0)
      (sz 8 : Size .checked32) (Object.full (List.replicate 8 0)) = .ok (sz 8,
        (Object.full (List.replicate 8 0)).place 0 [0x01, 6, 0x00, 1, 0x66, 2, 0x6F, 0x6B]) := rfl
  rcases (serialiser_refines (N := defaultNakCapacity) (Nat.le_refl 32)
    (.filestoreResponseTlv (some sampleResponse)) hsourced).2 with hrefuses | ⟨enc, _, hall⟩
  · obtain ⟨m', hrun, _⟩ := hrefuses 0 (sz 8) (Object.full (List.replicate 8 0)) (by decide)
    have hzero : (sz 8 : Size .checked32) = sz 0 := by
      have hsame := hwrites.symm.trans hrun
      rw [Except.ok.injEq, Prod.mk.injEq] at hsame
      exact hsame.1
    exact absurd hzero (by decide)
  · exact ⟨enc, fun i len m hext hle => (hall i len m hext).1 hle⟩

end EmbeddedCfdp
