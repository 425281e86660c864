import EmbeddedCfdp.EofRoundTrip
import EmbeddedCfdp.HeaderRoundTrip
import EmbeddedCfdp.MetadataRoundTrip
import EmbeddedCfdp.NakRoundTrip
import EmbeddedCfdp.SegmentMetadata

/-!
# Numbers and the width of their fields

Every identifier, offset and file size goes into a field whose width is announced elsewhere:
by an identifier length or by the Large File flag.  `cfdp_write_uint` keeps the low octets, and
no serialiser looks at the others.  What the receiver reports is the value modulo the field,
in every format, and whether a value fits never decides whether it is sent.
-/

namespace EmbeddedCfdp

open CMemory

variable {T : Target}

/-! ### Fields -/

/-- What a field of `n` octets carries of a value. -/
def carried (n : Nat) (value : UInt64) : UInt64 := UInt64.ofNat (value.toNat % 256 ^ n)

theorem carried_eq_iff {n : Nat} {value : UInt64} :
    carried n value = value ↔ value.toNat < 256 ^ n := by
  rw [← UInt64.toNat_inj, carried, toNat_carried, Nat.mod_eq_iff_lt (by positivity)]

theorem writeUint_carried (buf : Nat) (value : UInt64) (nbytes : UInt8) :
    writeUint buf (carried nbytes.toNat value) nbytes = writeUint buf value nbytes := by
  refine writeUintLoop_congr ?_
  rw [carried, toNat_carried, Nat.mod_mod]

/-- A value and the width of the field it goes into. -/
structure NumberField where
  value : UInt64
  octets : Nat

def NumberField.Fits (x : NumberField) : Prop := x.value.toNat < 256 ^ x.octets

def NumberField.received (x : NumberField) : UInt64 := carried x.octets x.value

/-- A value that fits in place of one that may not. -/
def NumberField.truncated (x : NumberField) : NumberField := ⟨x.received, x.octets⟩

theorem NumberField.truncated_fits (x : NumberField) : x.truncated.Fits := by
  unfold truncated received Fits carried
  rw [toNat_carried]
  exact Nat.mod_lt _ (by positivity)

theorem NumberField.map_received_eq_iff {xs : List NumberField} :
    xs.map NumberField.received = xs.map NumberField.value ↔ ∀ x ∈ xs, x.Fits := by
  rw [List.map_inj_left]
  exact forall₂_congr fun x _ => carried_eq_iff

/-! ### The formats -/

/-- A format with numbers in it, under the flags that fix its layout. -/
inductive NumericFormat where
  | header
  | fileData (largeFileFlag : LargeFileFlag) (segmentMetadataFlag : SegMetadataFlag)
  | eof (largeFileFlag : LargeFileFlag)
  | metadata (largeFileFlag : LargeFileFlag)
  | nak (largeFileFlag : LargeFileFlag)
  | keepAlive (largeFileFlag : LargeFileFlag)

/-- What the serialiser is given and the deserialiser fills in. -/
def NumericFormat.Pdu (N : NakCapacity T) : NumericFormat → Type
  | header => PduHeader
  | fileData _ _ => FileDataPdu T
  | eof _ => EofPdu
  | metadata _ => MetadataPdu
  | nak _ => NakPdu N
  | keepAlive _ => UInt64

variable {N : NakCapacity T}

namespace NumericFormat

def serialize : (f : NumericFormat) → f.Pdu N → Nat → Size T → Writer (Size T)
  | header, hdr, i, cap => pduHeaderSerialize (some hdr) (some i) cap
  | fileData largeFileFlag segmentMetadataFlag, fd, i, cap =>
      fileDataSerialize (some fd) largeFileFlag segmentMetadataFlag (some i) cap
  | eof largeFileFlag, pdu, i, cap => eofSerialize (some pdu) largeFileFlag (some i) cap
  | metadata largeFileFlag, md, i, cap => metadataSerialize (some md) largeFileFlag (some i) cap
  | nak largeFileFlag, pdu, i, cap => nakSerialize (some pdu) largeFileFlag (some i) cap
  | keepAlive largeFileFlag, progress, i, cap =>
      keepAliveSerialize progress largeFileFlag (some i) cap

/-- The matching deserialiser, into an object that was `old`. -/
def deserialize : (f : NumericFormat) → Ptr → Size T → (old : f.Pdu N) →
    Except Fault (Size T × Option (f.Pdu N))
  | header, p, len, old => pduHeaderDeserialize (some p) len (some old)
  | fileData largeFileFlag segmentMetadataFlag, p, len, old =>
      fileDataDeserialize (some p) len largeFileFlag segmentMetadataFlag (some old)
  | eof largeFileFlag, p, len, old => eofDeserialize (some p) len largeFileFlag (some old)
  | metadata largeFileFlag, p, len, old =>
      metadataDeserialize (some p) len largeFileFlag (some old)
  | nak largeFileFlag, p, len, old => nakDeserialize (some p) len largeFileFlag (some old)
  | keepAlive largeFileFlag, p, len, old =>
      keepAliveDeserialize (some p) len largeFileFlag (some old)

/-- The numbers that are sent, each with the width of its field. -/
def fields : (f : NumericFormat) → f.Pdu N → List NumberField
  | header, hdr =>
      [⟨hdr.sourceEntityId, hdr.entityIdLength.toNat⟩,
        ⟨hdr.transactionSeqNumber, hdr.transactionSeqLength.toNat⟩,
        ⟨hdr.destinationEntityId, hdr.entityIdLength.toNat⟩]
  | fileData largeFileFlag _, fd => [⟨fd.offset, fileSizeWidth largeFileFlag⟩]
  | eof largeFileFlag, pdu =>
      ⟨pdu.fileSize, fileSizeWidth largeFileFlag⟩ ::
        if pdu.conditionCode = CFDP_COND_NO_ERROR then []
        else [⟨pdu.faultLocationEntityId, pdu.faultLocationLen.toNat⟩]
  | metadata largeFileFlag, md => [⟨md.fileSize, fileSizeWidth largeFileFlag⟩]
  | nak largeFileFlag, pdu =>
      let fs := fileSizeWidth largeFileFlag
      ⟨pdu.startOfScope, fs⟩ :: ⟨pdu.endOfScope, fs⟩ ::
        pdu.requests.flatMap fun request => [⟨request.startOffset, fs⟩, ⟨request.endOffset, fs⟩]
  | keepAlive largeFileFlag, progress => [⟨progress, fileSizeWidth largeFileFlag⟩]

/-- What the receiver reports in the fields of what was sent. -/
def reported : (f : NumericFormat) → (sent received : f.Pdu N) → List UInt64
  | header, _, hdr => [hdr.sourceEntityId, hdr.transactionSeqNumber, hdr.destinationEntityId]
  | fileData _ _, _, fd => [fd.offset]
  | eof _, sent, pdu =>
      pdu.fileSize ::
        if sent.conditionCode = CFDP_COND_NO_ERROR then [] else [pdu.faultLocationEntityId]
  | metadata _, _, md => [md.fileSize]
  | nak _, _, pdu =>
      pdu.startOfScope :: pdu.endOfScope ::
        pdu.requests.flatMap fun request => [request.startOffset, request.endOffset]
  | keepAlive _, _, progress => [progress]

/-- Every number replaced by what its field carries of it. -/
def truncated : (f : NumericFormat) → f.Pdu N → f.Pdu N
  | header, hdr =>
      { hdr with
        sourceEntityId := carried hdr.entityIdLength.toNat hdr.sourceEntityId
        transactionSeqNumber := carried hdr.transactionSeqLength.toNat hdr.transactionSeqNumber
        destinationEntityId := carried hdr.entityIdLength.toNat hdr.destinationEntityId }
  | fileData largeFileFlag _, fd =>
      { fd with offset := carried (fileSizeWidth largeFileFlag) fd.offset }
  | eof largeFileFlag, pdu =>
      { pdu with
        fileSize := carried (fileSizeWidth largeFileFlag) pdu.fileSize
        faultLocationEntityId := carried pdu.faultLocationLen.toNat pdu.faultLocationEntityId }
  | metadata largeFileFlag, md =>
      { md with fileSize := carried (fileSizeWidth largeFileFlag) md.fileSize }
  | nak largeFileFlag, pdu =>
      { pdu with
        startOfScope := carried (fileSizeWidth largeFileFlag) pdu.startOfScope
        endOfScope := carried (fileSizeWidth largeFileFlag) pdu.endOfScope
        segmentRequests := pdu.segmentRequests.map
          (SegmentRequest.carried (fileSizeWidth largeFileFlag)) }
  | keepAlive largeFileFlag, progress => carried (fileSizeWidth largeFileFlag) progress

/-- The pointers in what is sent give access to the octets their lengths announce. -/
def Sourced : (f : NumericFormat) → f.Pdu N → Prop
  | header, _ => True
  | fileData _ _, fd =>
      Readable fd.fileData fd.fileDataLen.toNat ∧
        Readable fd.segmentMetadata fd.segmentMetadataLen.toNat
  | eof _, _ => True
  | metadata _, md => md.Sourced
  | nak _, _ => True
  | keepAlive _, _ => True

end NumericFormat

/-! ### Nothing but the low octets counts -/

theorem entityIdTlvSerialize_carried (entityId : UInt64) (idLen : UInt8) (buf : Option Nat)
    (cap : Size T) :
    entityIdTlvSerialize (carried idLen.toNat entityId) idLen buf cap =
      entityIdTlvSerialize entityId idLen buf cap := by
  simp only [entityIdTlvSerialize, writeUint_carried]

theorem arrayGet_map {α β : Type} {n : Nat} (g : α → β) (xs : Vector α n) (i : Nat) :
    arrayGet (xs.map g) i = (arrayGet xs i).map g := by
  unfold arrayGet
  by_cases h : i < n
  · simp [h, Except.map]
  · simp [h, Except.map]

theorem nakSerializeLoop_carried (nak : NakPdu N) (startOfScope endOfScope : UInt64) (fs : UInt8)
    (buf left i : Nat) (pos : Size T) :
    nakSerializeLoop (N := N) ⟨startOfScope, endOfScope,
        nak.segmentRequests.map (SegmentRequest.carried fs.toNat), nak.segmentRequestCount⟩
        buf fs left i pos =
      nakSerializeLoop nak buf fs left i pos := by
  -- one request a turn: both offsets are written through `writeUint`, which truncates
  induction left generalizing i pos with
  | zero => rfl
  | succ left ih =>
    unfold nakSerializeLoop
    rw [arrayGet_map]
    cases arrayGet nak.segmentRequests i with
    | error fault => rfl
    | ok request =>
      change (do
        writeUint (buf + pos.toNat) (carried fs.toNat request.startOffset) fs
        writeUint (buf + (pos + sz fs.toNat).toNat) (carried fs.toNat request.endOffset) fs
        nakSerializeLoop (N := N) ⟨startOfScope, endOfScope,
          nak.segmentRequests.map (SegmentRequest.carried fs.toNat), nak.segmentRequestCount⟩
          buf fs left (i + 1) (pos + sz fs.toNat + sz fs.toNat)) =
          (do
        writeUint (buf + pos.toNat) request.startOffset fs
        writeUint (buf + (pos + sz fs.toNat).toNat) request.endOffset fs
        nakSerializeLoop nak buf fs left (i + 1) (pos + sz fs.toNat + sz fs.toNat))
      rw [writeUint_carried, writeUint_carried, ih]

theorem nakSerialize_carried (nak : NakPdu N) (largeFileFlag : LargeFileFlag) (i : Nat)
    (cap : Size T) :
    nakSerialize (N := N) (some ⟨carried (fileSizeWidth largeFileFlag) nak.startOfScope,
        carried (fileSizeWidth largeFileFlag) nak.endOfScope,
        nak.segmentRequests.map (SegmentRequest.carried (fileSizeWidth largeFileFlag)),
        nak.segmentRequestCount⟩) largeFileFlag (some i) cap =
      nakSerialize (some nak) largeFileFlag (some i) cap := by
  simp only [← toNat_fileSizeOctets, nakSerialize, writeUint_carried, nakSerializeLoop_carried]

theorem keepAliveSerialize_carried (progress : UInt64) (largeFileFlag : LargeFileFlag)
    (buf : Option Nat) (cap : Size T) :
    keepAliveSerialize (carried (fileSizeWidth largeFileFlag) progress) largeFileFlag buf cap =
      keepAliveSerialize progress largeFileFlag buf cap := by
  simp only [← toNat_fileSizeOctets, keepAliveSerialize, writeUint_carried]

/-- Replacing every number by what its field carries of it changes no run. -/
theorem NumericFormat.serialize_truncated (f : NumericFormat) (pdu : f.Pdu N) (i : Nat)
    (cap : Size T) : f.serialize (f.truncated pdu) i cap = f.serialize pdu i cap := by
  cases f with
  | header =>
    simp only [serialize, truncated, pduHeaderSerialize, writeUint_carried]
    rfl
  | fileData largeFileFlag segmentMetadataFlag =>
    simp only [serialize, truncated, ← toNat_fileSizeOctets, fileDataSerialize, writeUint_carried]
    rfl
  | eof largeFileFlag =>
    simp only [serialize, truncated, ← toNat_fileSizeOctets, eofSerialize, writeUint_carried,
      entityIdTlvSerialize_carried]
  | metadata largeFileFlag =>
    simp only [serialize, truncated, ← toNat_fileSizeOctets, metadataSerialize, writeUint_carried]
  | nak largeFileFlag => exact nakSerialize_carried pdu largeFileFlag i cap
  | keepAlive largeFileFlag => exact keepAliveSerialize_carried pdu largeFileFlag (some i) cap

theorem NakPdu.requests_carried (nak : NakPdu N) (startOfScope endOfScope : UInt64) (width : Nat) :
    NakPdu.requests (N := N) ⟨startOfScope, endOfScope,
        nak.segmentRequests.map (SegmentRequest.carried width), nak.segmentRequestCount⟩ =
      nak.requests.map (SegmentRequest.carried width) := by
  rw [NakPdu.requests, NakPdu.requests, Vector.toList_map, List.map_take]

theorem eof_fields_truncated (eof : EofPdu) (largeFileFlag : LargeFileFlag) :
    (NumericFormat.eof largeFileFlag).fields (N := N)
        ((NumericFormat.eof largeFileFlag).truncated (N := N) eof) =
      ((NumericFormat.eof largeFileFlag).fields (N := N) eof).map NumberField.truncated := by
  simp only [NumericFormat.fields, NumericFormat.truncated, List.map_cons]
  rw [apply_ite (List.map NumberField.truncated)]
  rfl

theorem nak_fields_truncated (nak : NakPdu N) (largeFileFlag : LargeFileFlag) :
    (NumericFormat.nak largeFileFlag).fields ((NumericFormat.nak largeFileFlag).truncated nak) =
      ((NumericFormat.nak largeFileFlag).fields nak).map NumberField.truncated := by
  simp only [NumericFormat.fields, NumericFormat.truncated, List.map_cons, List.map_flatMap,
    NakPdu.requests_carried, List.flatMap_map]
  rfl

theorem NumericFormat.fields_truncated (f : NumericFormat) (pdu : f.Pdu N) :
    f.fields (f.truncated pdu) = (f.fields pdu).map NumberField.truncated := by
  cases f with
  | header => rfl
  | fileData largeFileFlag segmentMetadataFlag => rfl
  | eof largeFileFlag => exact eof_fields_truncated pdu largeFileFlag
  | metadata largeFileFlag => rfl
  | nak largeFileFlag => exact nak_fields_truncated pdu largeFileFlag
  | keepAlive largeFileFlag => rfl

/-! ### What is received -/

/-- Every receiver of the octets reports the numbers of the PDU modulo their fields. -/
def NumericFormat.Receives (f : NumericFormat) (pdu : f.Pdu N) (e : List UInt8) : Prop :=
  ∀ (p : Ptr) (len : Size T) (old : f.Pdu N), p.Holds e → e.length = len.toNat →
    ∃ received, f.deserialize p len old = .ok (len, some received) ∧
      f.reported pdu received = (f.fields pdu).map NumberField.received

theorem header_receives {hdr : PduHeader} {e : List UInt8} (h : headerEncoding hdr = some e) :
    NumericFormat.header.Receives (N := N) hdr e := by
  intro p len old hp hlen
  have hdecodes := pduHeaderDeserialize_decodes hp (Nat.le_of_eq hlen) (by omega) old
  have hrun := hdecodes.accepts_exact (headerDecode_encoding h) hlen
  exact ⟨hdr.onWire.received, hrun, rfl⟩

theorem fileData_receives {largeFileFlag : LargeFileFlag} {segmentMetadataFlag : SegMetadataFlag}
    {fd : FileDataPdu T} {x : FileDataItem largeFileFlag segmentMetadataFlag}
    (hx : fileDataOf largeFileFlag segmentMetadataFlag fd = some x) :
    (NumericFormat.fileData largeFileFlag segmentMetadataFlag).Receives (N := N) fd x.encode := by
  intro p len old hp hlen
  have hrun := (fileDataDeserialize_decodes hp hlen old).accepts_exact x.decode_encode hlen
  obtain ⟨_, _, _, _, hoffset, _⟩ := fileDataOf_eq_some hx
  refine ⟨x.view p, hrun, ?_⟩
  change [UInt64.ofNat x.offset] = [_]
  rw [hoffset, toNat_fileSizeOctets]
  rfl

theorem eof_receives {largeFileFlag : LargeFileFlag} {eof : EofPdu} {e : List UInt8}
    (h : eofEncoding eof largeFileFlag = some e) :
    (NumericFormat.eof largeFileFlag).Receives (N := N) eof e := by
  intro p len old hp hlen
  have hrun := (eofDeserialize_decodes hp hlen largeFileFlag old).accepts_exact
    (eofDecode_encoding h) hlen
  refine ⟨_, hrun, ?_⟩
  have hsize : (eofOf ((eof.conditionCode.toUInt8 &&& 0xF) <<< 4)
      (BigEndian.encode 4 eof.fileChecksum.toNat)
      (BigEndian.encode (fileSizeOctets largeFileFlag).toNat eof.fileSize.toNat)
      eof.faultLocation).fileSize =
        carried (fileSizeWidth largeFileFlag) eof.fileSize := by
    rw [← toNat_fileSizeOctets]
    exact ofNat_decode_encode _ _
  simp only [NumericFormat.reported, NumericFormat.fields, List.map_cons, hsize]
  refine congrArg _ ?_
  -- the fault location is among the fields only when there is an error to locate
  by_cases hnone : eof.conditionCode = CFDP_COND_NO_ERROR
  · rw [if_pos hnone, if_pos hnone]
    rfl
  · rw [if_neg hnone, if_neg hnone]
    obtain ⟨hsendable, _⟩ := eofEncoding_eq_some.mp h
    obtain ⟨id, hid⟩ :
        ∃ id, entityIdOf eof.faultLocationEntityId eof.faultLocationLen = some id :=
      ⟨_, dif_pos (hsendable.resolve_left hnone)⟩
    have hnumber : id.number = carried eof.faultLocationLen.toNat eof.faultLocationEntityId := by
      apply UInt64.toNat_inj.mp
      rw [(EntityId.number_of_entityIdOf hid).1, carried, toNat_carried]
    have hlocation : eof.faultLocation = some id := by
      rw [EofPdu.faultLocation, if_neg hnone, hid]
    rw [hlocation]
    exact congrArg (fun n => [n]) hnumber

theorem MetadataPdu.given_of_encoding {largeFileFlag : LargeFileFlag} {md : MetadataPdu}
    {e : List UInt8} (h : metadataEncoding md largeFileFlag = some e) : md.Given := by
  obtain ⟨hoptions, h⟩ := Option.ite_none_left_eq_some.mp h
  obtain ⟨source, destination, hsource, hdestination, _⟩ := withNames_eq_some h
  refine ⟨lvOf_isSome.mp ⟨_, hsource⟩, lvOf_isSome.mp ⟨_, hdestination⟩, fun hnull => ?_⟩
  rw [hnull, toNat_pos_iff_uint16] at hoptions
  apply UInt16.toNat_inj.mp
  exact Nat.eq_zero_of_not_pos fun hpos => hoptions ⟨rfl, hpos⟩

theorem metadata_receives {largeFileFlag : LargeFileFlag} {md : MetadataPdu} {e : List UInt8}
    (h : metadataEncoding md largeFileFlag = some e) :
    (NumericFormat.metadata largeFileFlag).Receives (N := N) md e := by
  intro p len old hp hlen
  have hsize := BigEndian.length_encode (fileSizeOctets largeFileFlag).toNat md.fileSize.toNat
  obtain ⟨f, henc, _⟩ := metadataEncoding_eq largeFileFlag (MetadataPdu.given_of_encoding h)
  rw [h, Option.some.injEq] at henc
  subst henc
  have hdec := metadataDecode_eq_some.mpr ⟨_, _, hsize, Eq.refl (f.octets (metadataFlags md)
    (BigEndian.encode (fileSizeOctets largeFileFlag).toNat md.fileSize.toNat))⟩
  have hrun := (metadataDeserialize_decodes hp hlen largeFileFlag old).accepts_exact hdec hlen
  refine ⟨_, hrun, ?_⟩
  change [uintAt _ 2 _] = [_]
  rw [MetadataFields.uintAt_octets hsize, ofNat_decode_encode, toNat_fileSizeOctets]
  rfl

theorem nak_receives {largeFileFlag : LargeFileFlag} {nak : NakPdu N} {e : List UInt8}
    (h : nakEncoding nak largeFileFlag = some e) :
    (NumericFormat.nak largeFileFlag).Receives nak e := by
  intro p len old hp hlen
  have hmaxFits := N.fits
  obtain ⟨hfew, he⟩ := Option.ite_none_left_eq_some.mp h
  rw [gt_iff_lt, sz_lt_iff (by omega), Nat.not_lt] at hfew
  rw [Option.some.injEq] at he
  subst he
  have hlength : (nakOctets nak largeFileFlag).length =
      1 + 2 * (fileSizeOctets largeFileFlag).toNat * (nak.segmentRequestCount.toNat + 1) := by
    rw [length_nakOctets hfew]
    ring
  have hdec := nakDecode_eq_some.mpr
    ⟨(rfl : (nakOctets nak largeFileFlag).getD 0 0 = _), _, hfew, hlength, rfl⟩
  have hrun := (nakDeserialize_decodes hp hlen largeFileFlag old).accepts_exact hdec hlen
  refine ⟨_, hrun, ?_⟩
  have hreceived := nak_receivedAs largeFileFlag old hfew
  generalize (nakFields _ _ _).view old = nak' at hreceived
  obtain ⟨hstart, hend, _, hrequests⟩ := hreceived
  have hstart' : nak'.startOfScope = carried (fileSizeWidth largeFileFlag) nak.startOfScope := by
    rw [← UInt64.toNat_inj, hstart, carried, toNat_carried]
  have hend' : nak'.endOfScope = carried (fileSizeWidth largeFileFlag) nak.endOfScope := by
    rw [← UInt64.toNat_inj, hend, carried, toNat_carried]
  simp only [NumericFormat.reported, NumericFormat.fields, List.map_cons, List.map_flatMap,
    hstart', hend', hrequests, List.flatMap_map]
  rfl

theorem keepAlive_receives (largeFileFlag : LargeFileFlag) (progress : UInt64) :
    (NumericFormat.keepAlive largeFileFlag).Receives (N := N) progress
      (keepAliveOctets progress largeFileFlag) := by
  intro p len old hp hlen
  have hlength := length_keepAliveOctets progress largeFileFlag
  have hvalue : uintAt (keepAliveOctets progress largeFileFlag) 1
      (fileSizeOctets largeFileFlag).toNat = carried (fileSizeWidth largeFileFlag) progress := by
    have hfield := @uintAt_append [CFDP_DIRECTIVE_KEEP_ALIVE.toUInt8]
      (BigEndian.encode (fileSizeOctets largeFileFlag).toNat progress.toNat) []
      1 (fileSizeOctets largeFileFlag).toNat rfl (BigEndian.length_encode _ _).symm
    rw [List.append_nil, ofNat_decode_encode] at hfield
    rw [← toNat_fileSizeOctets]
    exact hfield
  have hdec : keepAliveDecode (keepAliveOctets progress largeFileFlag) largeFileFlag =
      some (carried (fileSizeWidth largeFileFlag) progress) := by
    rw [keepAliveDecode, if_pos ⟨Nat.le_of_eq hlength.symm, rfl⟩, hvalue]
  have hrun := (keepAliveDeserialize_decodes hp hlen largeFileFlag old).accepts_exact hdec
    (hlength.symm.trans hlen)
  exact ⟨_, hrun, rfl⟩

/-- A call that returned something else than 0 has written octets with this property. -/
theorem NumericFormat.encodes {f : NumericFormat} {pdu : f.Pdu N} (hsourced : f.Sourced pdu)
    {i : Nat} {cap n : Size T} {m m' : Object} (hm : m.extent < 2 ^ T.sizeBits)
    (hrun : f.serialize pdu i cap m = .ok (n, m')) (hn : n ≠ sz 0) :
    ∃ enc, Encodes (f.serialize pdu) enc ∧ ∀ e, enc = some e → f.Receives pdu e := by
  cases f with
  | header => exact ⟨_, pduHeaderSerialize_encodes pdu, fun e he => header_receives he⟩
  -- file data and metadata hold lengths of their own: that their sum did not wrap is read off
  -- the run
  | fileData largeFileFlag segmentMetadataFlag =>
    obtain ⟨hdata, hmeta⟩ := hsourced
    obtain ⟨hpass, hroom⟩ := fileDataSerialize_checked hrun hn
    have hfits := fileDataSize_lt hm hpass hroom hrun
    refine ⟨_, fileDataSerialize_encodes hfits hdata hmeta, fun e he => ?_⟩
    obtain ⟨x, hx, rfl⟩ := Option.map_eq_some_iff.mp he
    exact fileData_receives hx
  | eof largeFileFlag =>
    exact ⟨_, eofSerialize_encodes pdu largeFileFlag, fun e he => eof_receives he⟩
  | metadata largeFileFlag =>
    have hfits := metadataSize_lt hm hrun hn
    exact ⟨_, metadataSerialize_encodes hfits hsourced, fun e he => metadata_receives he⟩
  | nak largeFileFlag =>
    exact ⟨_, nakSerialize_encodes pdu largeFileFlag, fun e he => nak_receives he⟩
  | keepAlive largeFileFlag =>
    refine ⟨_, keepAliveSerialize_encodes pdu largeFileFlag, fun e he => ?_⟩
    rw [← Option.some.inj he]
    exact keepAlive_receives largeFileFlag pdu

/-- **Main result.** In every format the receiver reports each number modulo the width of its
    field, which is the number that was supplied exactly when it fits; and no serialiser's
    result depends on whether it does. -/
theorem numeric_fields (f : NumericFormat) (pdu : f.Pdu N) :
    ((∀ x ∈ f.fields (f.truncated pdu), x.Fits) ∧
      ∀ (i : Nat) (cap : Size T) (m : Object),
        f.serialize (f.truncated pdu) i cap m = f.serialize pdu i cap m) ∧
    (f.Sourced pdu → ∀ (i : Nat) (cap n : Size T) (m m' : Object), i + cap.toNat ≤ m.extent →
      m.extent < 2 ^ T.sizeBits → f.serialize pdu i cap m = .ok (n, m') → n ≠ sz 0 →
      ∃ e : List UInt8, e.length = n.toNat ∧ m' = m.place i e ∧
        ∀ (p : Ptr) (old : f.Pdu N), p.Holds e →
          ∃ received, f.deserialize p n old = .ok (n, some received) ∧
            f.reported pdu received = (f.fields pdu).map NumberField.received ∧
            (f.reported pdu received = (f.fields pdu).map NumberField.value ↔
              ∀ x ∈ f.fields pdu, x.Fits)) := by
  refine ⟨⟨?_, ?_⟩, ?_⟩
  · rw [f.fields_truncated]
    intro x hx
    obtain ⟨y, _, rfl⟩ := List.mem_map.mp hx
    exact y.truncated_fits
  · intro i cap m
    rw [f.serialize_truncated]
  · intro hsourced i cap n m m' hext hm hrun hn
    obtain ⟨enc, hencodes, hreceives⟩ := NumericFormat.encodes hsourced hm hrun hn
    obtain ⟨e, he, hle, hsize, hplace⟩ := hencodes.of_run hext hrun hn
    have hlength : e.length = n.toNat := by
      rw [hsize, toNat_sz (Nat.lt_of_le_of_lt hle cap.isLt)]
    refine ⟨e, hlength, hplace, fun p old hp => ?_⟩
    obtain ⟨received, hreceived, hreported⟩ := hreceives e he p n old hp hlength
    refine ⟨received, hreceived, hreported, ?_⟩
    rw [hreported]
    exact NumberField.map_received_eq_iff

/-- Two octets of file data at an offset of four gigabytes. -/
def pastFourGigabytes : FileDataPdu .checked32 :=
  { offset := 0x100000000
    fileData := some ⟨Object.full [0xA0, 0xA1], 0⟩
    fileDataLen := sz 2
    recordContinuation := CFDP_RECORD_CONT_NEITHER
    segmentMetadata := none
    segmentMetadataLen := 0 }

/-- Sent in the small-file layout, the data is received at the start of the file. -/
theorem pastFourGigabytes_truncated :
    fileDataSerialize (some pastFourGigabytes) CFDP_FILE_SIZE_SMALL CFDP_SEG_METADATA_ABSENT
      (some 0) (sz 6) (Object.full (List.replicate 6 0)) =
        .ok (sz 6, Object.full [0, 0, 0, 0, 0xA0, 0xA1]) ∧
    ∃ fd', fileDataDeserialize (some ⟨Object.full [0, 0, 0, 0, 0xA0, 0xA1], 0⟩) (sz 6)
        CFDP_FILE_SIZE_SMALL CFDP_SEG_METADATA_ABSENT (some pastFourGigabytes) =
          .ok (sz 6, some fd') ∧ fd'.offset ≠ pastFourGigabytes.offset := by
  exact ⟨rfl, _, rfl, by decide⟩

/-- A source identifier of three octets in a field of two. -/
theorem numeric_fields_sample :
    ∃ e : List UInt8, e.length = 9 ∧ ∀ (p : Ptr) (old : PduHeader), p.Holds e →
      ∃ hdr, pduHeaderDeserialize (some p) (sz 9 : Size .checked32) (some old) =
          .ok (sz 9, some hdr) ∧
        [hdr.sourceEntityId, hdr.transactionSeqNumber, hdr.destinationEntityId] =
          [0x203, 9, 4] := by
  have hrun : pduHeaderSerialize (some sampleHeader) (some 0) (sz 9 : Size .checked32)
      (Object.full (List.replicate 9 0)) =
        .ok (sz 9, (Object.full (List.replicate 9 0)).place 0 (headerOctets sampleHeader)) := rfl
  obtain ⟨e, hlength, _, hreceive⟩ := (numeric_fields (N := twoRequests) .header
    sampleHeader).2 trivial 0 (sz 9) (sz 9) _ _ (by decide) (by decide) hrun (by decide)
  refine ⟨e, hlength, fun p old hp => ?_⟩
  obtain ⟨hdr, hdecoded, hreported, _⟩ := hreceive p old hp
  exact ⟨hdr, hdecoded, hreported⟩

end EmbeddedCfdp
