import EmbeddedCfdp.Checksum
import EmbeddedCfdp.ErrorPatterns
import EmbeddedCfdp.PduExchange
import EmbeddedCfdp.Reassembly

/-!
# Delivering a file

The receiver of the quick start in `README.md` run on whatever comes in: each file data
segment is written at its offset, an EOF is kept, and everything else is passed over.  PDUs
may be lost, repeated, reordered or corrupted.  The file depends on the octets that have come
in, and once all of them have, it is the file that was sent.
-/

namespace EmbeddedCfdp

open CMemory Reassembly

variable {T : Target} {N : NakCapacity T}

/-! ### The receiver of a file -/

/-- What the receiver is handed at a time. -/
structure Frame (T : Target) where
  rx : Ptr
  rxLen : Size T

def Frame.Carries (fr : Frame T) (xs : List UInt8) : Prop :=
  fr.rx.Holds xs ∧ xs.length = fr.rxLen.toNat

/-- "write `fd.file_data_len` octets at `fd.offset`" -/
def writeSegment (fd : FileDataPdu T) : Writer Unit := do
  if fd.fileDataLen = sz 0 then return ()
  memcpy fd.offset.toNat fd.fileData fd.fileDataLen.toNat

/-- One PDU, with the file in the object and the EOF that has come in so far. -/
def receiveFrame (N : NakCapacity T) (fr : Frame T) (eof : Option EofPdu) :
    Writer (Option EofPdu) := do
  match ← (liftM (receivePdu N (some fr.rx) fr.rxLen) : Writer _) with
  | some (_, .fileData fd) =>
      writeSegment fd
      return eof
  | some (_, .eof pdu) => return some pdu
  | _ => return eof

def receiveFrames (N : NakCapacity T) : List (Frame T) → Option EofPdu → Writer (Option EofPdu)
  | [], eof => return eof
  | fr :: frames, eof => do receiveFrames N frames (← receiveFrame N fr eof)

/-! ### What comes in -/

/-- The stretch of the file that a segment carries. -/
def FileDataPdu.piece (fd : FileDataPdu T) : Piece UInt8 :=
  ⟨fd.offset.toNat, octetsAt fd.fileData fd.fileDataLen.toNat⟩

def DataField.piece? : DataField N → Option (Piece UInt8)
  | .fileData fd => some fd.piece
  | _ => none

/-- The segments among the data fields. -/
def pieces (xs : List (Option (DataField N))) : List (Piece UInt8) :=
  xs.filterMap fun x => x.bind DataField.piece?

/-- The EOF gives the checksum and the size of the file. -/
def EofPdu.Describes (pdu : EofPdu) (file : List UInt8) : Prop :=
  pdu.fileChecksum = checksumSum 0 file ∧ pdu.fileSize.toNat = file.length

/-- The data field is part of the transfer of `file`: a segment is cut out of it and an EOF
    describes it, both in numbers that fit their fields. -/
def DataField.BelongsTo (file : List UInt8) (largeFileFlag : LargeFileFlag) :
    DataField N → Prop
  | .fileData fd => fd.piece.CutFrom file ∧
      fd.offset.toNat < 256 ^ fileSizeWidth largeFileFlag
  | .eof pdu => pdu.Describes file ∧
      pdu.fileSize.toNat < 256 ^ fileSizeWidth largeFileFlag
  | _ => True

/-- A PDU of the transfer, with the data field encoded as `e`. -/
structure Sent (file : List UInt8) (hdr : PduHeader) (x : DataField N) (e : List UInt8) :
    Prop where
  header : hdr.InRange
  field : x.InRange
  type : hdr.pduType = x.pduType
  sourced : (x.serialiser hdr).Sourced
  encoding : (x.serialiser hdr).encoding = some e
  sized : SizedFor hdr e
  belongs : x.BelongsTo file hdr.largeFileFlag

/-- What a frame brings: a PDU of the transfer as it was sent, or nothing where one was
    corrupted in a way that its CRC reveals, or where there is no PDU at all. -/
inductive Frame.Arrives (N : NakCapacity T) (file : List UInt8) (fr : Frame T) :
    Option (DataField N) → Prop where
  | intact {hdr : PduHeader} {x : DataField N} {e z : List UInt8} :
      Sent file hdr x e → fr.Carries (pduOctets hdr e ++ z) → Arrives N file fr (some x)
  | corrupted {hdr : PduHeader} {x : DataField N} {e z err : List UInt8} :
      Sent file hdr x e → hdr.crcFlag = CFDP_CRC_PRESENT →
      err.length = (pduOctets hdr e).length → SparesLayout err → ¬ IsMultiple err →
      fr.Carries (corrupt (pduOctets hdr e ++ z) err) → Arrives N file fr none
  | noise {xs : List UInt8} : fr.Carries xs → (¬ ∃ hsize hdr, PduAt xs hsize hdr) →
      Arrives N file fr none

section Pieces

variable {file : List UInt8} {x : Option (DataField N)} {xs : List (Option (DataField N))}

@[simp] theorem pieces_nil : pieces ([] : List (Option (DataField N))) = [] := rfl

theorem pieces_cons : pieces (x :: xs) = (x.bind DataField.piece?).toList ++ pieces xs := by
  unfold pieces
  rw [List.filterMap_cons]
  cases x.bind DataField.piece? with
  | none => rfl
  | some s => rfl

theorem Frame.Arrives.sent {fr : Frame T} {x : DataField N}
    (h : fr.Arrives N file (some x)) : ∃ hdr e, Sent file hdr x e := by
  cases h with
  | intact hsent hcarries => exact ⟨_, _, hsent⟩

/-- The segments that arrive are cut out of the file. -/
theorem cutFrom_of_arrives {frames : List (Frame T)}
    (h : List.Forall₂ (Frame.Arrives N file) frames xs) : ∀ s ∈ pieces xs, s.CutFrom file := by
  induction h with
  | nil => exact fun s hs => absurd hs List.not_mem_nil
  | @cons fr x frames xs harrives _ ih =>
    intro s hs
    rw [pieces_cons, List.mem_append, Option.mem_toList] at hs
    rcases hs with hs | hs
    · obtain ⟨y, rfl, hpiece⟩ := Option.bind_eq_some_iff.mp hs
      obtain ⟨hdr, e, hsent⟩ := harrives.sent
      cases y with
      | fileData fd =>
        cases hpiece
        exact hsent.belongs.1
      | _ => cases hpiece
    · exact ih s hs

end Pieces

/-! ### One frame -/

section Step

variable {file : List UInt8} {fr : Frame T} {m : Object}

/-- What was sent is received. -/
theorem Frame.Arrives.receives (h32 : 32 ≤ T.sizeBits) {x : DataField N}
    (h : fr.Arrives N file (some x)) :
    ∃ hdr e x', Sent file hdr x e ∧
      receivePdu N (some fr.rx) fr.rxLen = .ok (some (hdr.received, x')) ∧
      x.ReceivedAs hdr x' := by
  cases h with
  | @intact hdr _ e z hsent hcarries =>
    obtain ⟨hholds, hlen⟩ := hcarries
    obtain ⟨hpayload, hreceive⟩ :=
      receivePdu_pduOctets (N := N) h32 hsent.header hsent.sized hholds hlen
    obtain ⟨r, hdec, hreceived⟩ :=
      DataField.decode_encoding hsent.field hsent.sourced hsent.type hsent.encoding hpayload
    rw [DataField.decode_received, hdec, Option.map_some] at hreceive
    exact ⟨hdr, e, r.2, hsent, hreceive, hreceived⟩

/-- What was corrupted is not. -/
theorem Frame.Arrives.discards (h32 : 32 ≤ T.sizeBits) (h : fr.Arrives N file none) :
    receivePdu N (some fr.rx) fr.rxLen = .ok none := by
  cases h with
  | @corrupted hdr x e z err hsent hcrc htotal hspares hmultiple hcarries =>
    obtain ⟨hholds, hlen⟩ := hcarries
    have hle : err.length ≤ (pduOctets hdr e ++ z).length := by
      rw [List.length_append, htotal]
      exact Nat.le_add_right _ _
    apply receivePdu_of_not_pduAt h32 hholds hlen
    rintro ⟨n', hdr', hat'⟩
    have hat := pduAt_pduOctets hsent.header hsent.sized z
    rw [length_pduOctets hsent.sized] at htotal
    rw [length_corrupt hle] at hlen
    obtain ⟨b, hverify, hmissed, _⟩ :=
      pduCrcVerify_corrupt_cases hlen hat hcrc htotal hspares hholds
    obtain ⟨b', hverify', haccept⟩ :=
      pduCrcVerify_spec h32 hholds ((length_corrupt hle).trans hlen)
    rw [hverify, Except.ok.injEq] at hverify'
    exact hmultiple (hmissed (hverify'.trans (haccept.mpr ⟨n', hdr', hat'⟩)))
  | noise hcarries hnot => exact receivePdu_of_not_pduAt h32 hcarries.1 hcarries.2 hnot

/-- A segment that was encoded has all its octets. -/
theorem Sent.length_piece {hdr : PduHeader} {fd : FileDataPdu T} {e : List UInt8}
    (h : Sent file hdr (.fileData fd : DataField N) e) :
    fd.piece.items.length = fd.fileDataLen.toNat := by
  obtain ⟨_, hdata, _⟩ := h.sourced
  obtain ⟨y, hy, _⟩ := Option.map_eq_some_iff.mp h.encoding
  obtain ⟨hnull, _⟩ := fileDataOf_eq_some hy
  exact length_octetsAt hdata hnull

/-- A received segment is written where it was cut out. -/
theorem writeSegment_run {fd fd' : FileDataPdu T} {hdr : PduHeader} {e : List UInt8}
    (hsent : Sent file hdr (.fileData fd : DataField N) e)
    (h : FileDataReceived hdr.largeFileFlag hdr.segmentMetadataFlag fd fd')
    (hroom : file.length ≤ m.extent) :
    writeSegment fd' m = .ok ((), m.place fd.piece.offset fd.piece.items) := by
  obtain ⟨hcut, hfits⟩ := hsent.belongs
  have hlength := hsent.length_piece
  have hoffset : fd'.offset.toNat = fd.piece.offset := h.offset.trans (Nat.mod_eq_of_lt hfits)
  have hitems : octetsAt fd'.fileData fd'.fileDataLen.toNat = fd.piece.items := h.fileData
  rw [← h.fileDataLen] at hlength
  unfold writeSegment
  -- an empty segment is not copied, wherever its offset points
  by_cases hzero : fd'.fileDataLen = sz 0
  · have hnil : fd.piece.items = [] := by
      apply List.eq_nil_of_length_eq_zero
      rw [hlength, hzero]
      exact toNat_sz_small (by decide)
    rw [if_pos hzero, hnil, Object.place_nil]
    rfl
  · have hpos : fd'.fileDataLen.toNat ≠ 0 := fun h0 => hzero (by rw [← h0, sz_toNat])
    have hinside : fd.piece.offset + fd'.fileDataLen.toNat ≤ file.length := by
      have hle := hcut.length_le
      rw [hlength, List.length_drop] at hle
      omega
    rw [if_neg hzero, ← hitems, ← hoffset]
    rw [← hoffset] at hinside
    apply memcpy_apply
    · intro hnull
      rw [← hitems, hnull, octetsAt_none] at hlength
      exact hpos hlength.symm
    · intro q hq
      rw [← hitems, hq, octetsAt, List.length_take] at hlength
      omega
    · omega

/-- One frame writes one piece at most, and an EOF that it brings describes the file. -/
theorem receiveFrame_run (h32 : 32 ≤ T.sizeBits) {x : Option (DataField N)}
    (h : fr.Arrives N file x) (hroom : file.length ≤ m.extent) (eof : Option EofPdu) :
    ∃ eof' m', receiveFrame N fr eof m = .ok (eof', m') ∧ m'.extent = m.extent ∧
      m'.octets = assemble m.octets (x.bind DataField.piece?).toList ∧
      (∀ pdu, eof' = some pdu → eof = some pdu ∨ pdu.Describes file) ∧
      (eof'.isSome ↔ eof.isSome ∨ ∃ pdu, x = some (.eof pdu)) := by
  -- a discarded frame leaves the file and the EOF alone
  cases x with
  | none =>
    refine ⟨eof, m, ?_, rfl, rfl, fun pdu hpdu => Or.inl hpdu, ?_⟩
    · unfold receiveFrame
      rw [Writer.bind_ok (Writer.lift_ok (h.discards h32))]
      rfl
    · simp
  | some x =>
    obtain ⟨hdr, e, x', hsent, hreceive, hreceived⟩ := h.receives h32
    unfold receiveFrame
    rw [Writer.bind_ok (Writer.lift_ok hreceive)]
    -- file data writes its segment, an EOF is kept, the other directives change nothing
    cases hreceived with
    | @fileData fd fd' hfd =>
      refine ⟨eof, m.place fd.piece.offset fd.piece.items, ?_, rfl, rfl,
        fun pdu hpdu => Or.inl hpdu, by simp⟩
      dsimp only
      rw [Writer.bind_ok (writeSegment_run hsent hfd hroom)]
      rfl
    | @eof pdu pdu' heof =>
      obtain ⟨⟨hchecksum, hsize⟩, hfits⟩ := hsent.belongs
      refine ⟨some pdu', m, rfl, rfl, rfl, fun p hp => Or.inr ?_, by simp⟩
      cases hp
      exact ⟨heof.fileChecksum.trans hchecksum,
        (heof.fileSize.trans (Nat.mod_eq_of_lt hfits)).trans hsize⟩
    | finished _ => exact ⟨eof, m, rfl, rfl, rfl, fun pdu hpdu => Or.inl hpdu, by simp⟩
    | ack _ => exact ⟨eof, m, rfl, rfl, rfl, fun pdu hpdu => Or.inl hpdu, by simp⟩
    | metadata _ => exact ⟨eof, m, rfl, rfl, rfl, fun pdu hpdu => Or.inl hpdu, by simp⟩
    | nak _ => exact ⟨eof, m, rfl, rfl, rfl, fun pdu hpdu => Or.inl hpdu, by simp⟩
    | prompt _ => exact ⟨eof, m, rfl, rfl, rfl, fun pdu hpdu => Or.inl hpdu, by simp⟩
    | keepAlive _ => exact ⟨eof, m, rfl, rfl, rfl, fun pdu hpdu => Or.inl hpdu, by simp⟩

end Step

/-! ### Whatever comes in -/

section Run

variable {file : List UInt8} {m : Object} {frames : List (Frame T)}
  {xs : List (Option (DataField N))}

/-- The run does to the file what the assembly of its pieces does. -/
theorem receiveFrames_run (h32 : 32 ≤ T.sizeBits)
    (h : List.Forall₂ (Frame.Arrives N file) frames xs) (hroom : file.length ≤ m.extent)
    (eof : Option EofPdu) :
    ∃ eof' m', receiveFrames N frames eof m = .ok (eof', m') ∧ m'.extent = m.extent ∧
      m'.octets = assemble m.octets (pieces xs) ∧
      (∀ pdu, eof' = some pdu → eof = some pdu ∨ pdu.Describes file) ∧
      (eof'.isSome ↔ eof.isSome ∨ ∃ pdu, some (.eof pdu) ∈ xs) := by
  -- the extent is kept, so every segment still has its room when it arrives
  induction h generalizing eof m with
  | nil => exact ⟨eof, m, rfl, rfl, rfl, fun pdu hpdu => Or.inl hpdu, by simp⟩
  | @cons fr x frames xs harrives _ ih =>
    obtain ⟨eof₁, m₁, hfirst, hextent, hoctets, hdescribes, harrived⟩ :=
      receiveFrame_run h32 harrives hroom eof
    obtain ⟨eof', m', hrest, hextent', hoctets', hdescribes', harrived'⟩ :=
      ih (by rwa [hextent]) eof₁
    refine ⟨eof', m', ?_, hextent'.trans hextent, ?_, fun pdu hpdu => ?_, ?_⟩
    · rw [receiveFrames, Writer.bind_ok hfirst, hrest]
    · rw [hoctets', hoctets, pieces_cons, assemble_append]
    · rcases hdescribes' pdu hpdu with hbefore | hdone
      · exact hdescribes pdu hbefore
      · exact Or.inr hdone
    · rw [harrived', harrived, or_assoc]
      simp only [List.mem_cons, exists_or, eq_comm]

/-- Once all segments are there, the file is complete. -/
theorem receiveFrames_complete (h32 : 32 ≤ T.sizeBits)
    (h : List.Forall₂ (Frame.Arrives N file) frames xs) (hroom : file.length ≤ m.extent)
    (hall : ∀ j < file.length, j ∈ covered (pieces xs)) :
    ∃ eof m', receiveFrames N frames none m = .ok (eof, m') ∧ (Ptr.mk m' 0).Holds file ∧
      ∀ pdu, eof = some pdu → pdu.fileSize.toNat = file.length ∧
        ∀ len : Size T, pdu.fileSize.toNat = len.toNat →
          octetsAt (some ⟨m', 0⟩) len.toNat = file ∧
          checksumCompute (some ⟨m', 0⟩) len = .ok pdu.fileChecksum := by
  have hlength : file.length ≤ m.octets.length := Nat.le_trans hroom m.extent_le
  obtain ⟨eof, m', hrun, hextent, hoctets, hdescribes, _⟩ := receiveFrames_run h32 h hroom none
  have hwhole : file <+: m'.octets :=
    hoctets ▸ prefix_assemble (cutFrom_of_arrives h) hlength hall
  have hholds : (Ptr.mk m' 0).Holds file :=
    List.prefix_take_iff.mpr ⟨hwhole, by rwa [hextent]⟩
  refine ⟨eof, m', hrun, hholds, fun pdu hpdu => ?_⟩
  obtain ⟨hchecksum, hsize⟩ := (hdescribes pdu hpdu).resolve_left nofun
  -- the EOF tells the size, and the checksum of so many octets is the one it tells
  refine ⟨hsize, fun len hlen => ?_⟩
  have hfile : octetsAt (some ⟨m', 0⟩) len.toNat = file := by
    rw [← hlen, hsize, hholds.octetsAt]
  refine ⟨hfile, ?_⟩
  have hcompute := checksumUpdate_octetsAt (hholds.readable (by omega : len.toNat ≤ _)) 0 0
  rw [hfile, UInt32.zero_add, ← hchecksum] at hcompute
  exact hcompute

/-- **Main result.** Whatever arrives intact, corrupted as a CRC detects it, or as noise, and in
    whatever order, nothing faults; the file is there wherever a segment of it has come in, and
    nowhere else has anything changed; and an EOF is kept if one has come in.  Once all segments
    are there, the file is complete and has the checksum and the size that the EOF gives. -/
theorem delivery (h32 : 32 ≤ T.sizeBits) (hroom : file.length ≤ m.extent)
    (h : List.Forall₂ (Frame.Arrives N file) frames xs) :
    ∃ eof m', receiveFrames N frames none m = .ok (eof, m') ∧ m'.extent = m.extent ∧
      (∀ j ∈ covered (pieces xs), m'.octets[j]? = file[j]?) ∧
      (∀ j ∉ covered (pieces xs), m'.octets[j]? = m.octets[j]?) ∧
      (eof.isSome ↔ ∃ pdu, some (.eof pdu) ∈ xs) ∧
      ((∀ j < file.length, j ∈ covered (pieces xs)) → (Ptr.mk m' 0).Holds file ∧
        ∀ pdu, eof = some pdu → pdu.fileSize.toNat = file.length ∧
          ∀ len : Size T, pdu.fileSize.toNat = len.toNat →
            octetsAt (some ⟨m', 0⟩) len.toNat = file ∧
            checksumCompute (some ⟨m', 0⟩) len = .ok pdu.fileChecksum) := by
  have hcut := cutFrom_of_arrives h
  have hlength : file.length ≤ m.octets.length := Nat.le_trans hroom m.extent_le
  obtain ⟨eof, m', hrun, hextent, hoctets, hdescribes, harrived⟩ :=
    receiveFrames_run h32 h hroom none
  refine ⟨eof, m', hrun, hextent, ?_, ?_, ?_, fun hall => ?_⟩
  · intro j hj
    rw [hoctets]
    exact (getElem?_assemble hcut hlength j).1 hj
  · intro j hj
    rw [hoctets]
    exact (getElem?_assemble hcut hlength j).2 hj
  · rw [harrived]
    simp
  · obtain ⟨eof', m'', hrun', hholds, hdone⟩ := receiveFrames_complete h32 h hroom hall
    rw [hrun, Except.ok.injEq, Prod.mk.injEq] at hrun'
    obtain ⟨rfl, rfl⟩ := hrun'
    exact ⟨hholds, hdone⟩

/-- A file of three octets, in two segments that overlap, and its EOF. -/
def sampleDeliveredFile : List UInt8 := [0xAA, 0xBB, 0xCC]

def sampleSegmentHeader (dataFieldLength : UInt16) : PduHeader :=
  { sampleCrcHeader with pduType := CFDP_PDU_TYPE_FILE_DATA, dataFieldLength := dataFieldLength }

def sampleSegment (offset : UInt64) (items : List UInt8) : FileDataPdu .checked32 :=
  { offset := offset, fileData := some ⟨Object.full items, 0⟩, fileDataLen := sz items.length,
    recordContinuation := 0, segmentMetadata := none, segmentMetadataLen := 0 }

def sampleDeliveredEof : EofPdu :=
  { conditionCode := CFDP_COND_NO_ERROR, fileChecksum := 0xAABBCC00, fileSize := 3,
    faultLocationEntityId := 0, faultLocationLen := 0 }

/-- The last bit of a PDU of fifteen octets. -/
def sampleCrcError : List UInt8 := List.replicate 14 0 ++ [1]

def sampleFrame (xs : List UInt8) : Frame .checked32 := ⟨⟨Object.full xs, 0⟩, sz xs.length⟩

theorem sampleSegment_sent {offset : UInt64} {items e : List UInt8} {dataFieldLength : UInt16}
    (hshort : items.length < 256) (hoffset : offset.toNat < 256 ^ 4)
    (hencoding : ((.fileData (sampleSegment offset items) : DataField defaultNakCapacity).serialiser
      (sampleSegmentHeader dataFieldLength)).encoding = some e)
    (hsized : SizedFor (sampleSegmentHeader dataFieldLength) e)
    (hcut : (sampleSegment offset items).piece.CutFrom sampleDeliveredFile) :
    Sent sampleDeliveredFile (sampleSegmentHeader dataFieldLength)
      (.fileData (sampleSegment offset items) : DataField defaultNakCapacity) e := by
  have hlength : (sz items.length : Size .checked32).toNat = items.length :=
    toNat_sz (Nat.lt_trans hshort (by decide))
  have hrange : (sampleSegmentHeader 0).InRange := by
    constructor <;> decide
  refine ⟨⟨hrange.version, hrange.entityIdLength, hrange.transactionSeqLength, hrange.pduType,
    hrange.direction, hrange.transmissionMode, hrange.crcFlag, hrange.largeFileFlag,
    hrange.segmentationControl, hrange.segmentMetadataFlag⟩, trivial, rfl, ⟨?_, ?_, ?_⟩,
    hencoding, hsized, hcut, hoffset⟩
  · change 4 + (sz items.length : Size .checked32).toNat < 2 ^ 32
    omega
  · rintro q ⟨⟩
    change (sz items.length : Size .checked32).toNat ≤ _
    rw [hlength]
    exact (Object.holds_whole items).length_le
  · rintro q ⟨⟩

theorem sampleFirst_sent : Sent sampleDeliveredFile (sampleSegmentHeader 8)
    (.fileData (sampleSegment 0 [0xAA, 0xBB]) : DataField defaultNakCapacity)
    [0, 0, 0, 0, 0xAA, 0xBB] :=
  sampleSegment_sent (by decide) (by decide) (by decide +kernel) rfl ⟨[0xCC], rfl⟩

theorem sampleSecond_sent : Sent sampleDeliveredFile (sampleSegmentHeader 8)
    (.fileData (sampleSegment 1 [0xBB, 0xCC]) : DataField defaultNakCapacity)
    [0, 0, 0, 1, 0xBB, 0xCC] :=
  sampleSegment_sent (by decide) (by decide) (by decide +kernel) rfl ⟨[], rfl⟩

theorem sampleDeliveredEof_sent :
    Sent sampleDeliveredFile { sampleCrcHeader with dataFieldLength := 12 }
    (.eof sampleDeliveredEof : DataField defaultNakCapacity)
    [0x04, 0, 0xAA, 0xBB, 0xCC, 0, 0, 0, 0, 3] := by
  refine ⟨by constructor <;> decide, (by decide : CFDP_COND_NO_ERROR ≤ 15), rfl, trivial,
    by decide +kernel, rfl,
    ⟨⟨by decide +kernel, rfl⟩, by decide⟩⟩

theorem sampleFrame_carries {xs : List UInt8} (h : xs.length < 2 ^ Target.checked32.sizeBits) :
    (sampleFrame xs).Carries xs :=
  ⟨Object.holds_whole xs, (toNat_sz h).symm⟩

theorem Sent.arrives {file : List UInt8} {hdr : PduHeader} {x : DataField defaultNakCapacity}
    {e : List UInt8} (h : Sent file hdr x e) (hshort : (pduOctets hdr e).length < 256) :
    (sampleFrame (pduOctets hdr e)).Arrives defaultNakCapacity file (some x) :=
  .intact h (z := []) (by
    rw [List.append_nil]
    exact sampleFrame_carries (Nat.lt_trans hshort (by decide)))

/-- The segments come in after the EOF, the second before the first, and once more with a bit
    of the CRC inverted. -/
theorem delivery_sample :
    let frames :=
      [sampleFrame (pduOctets { sampleCrcHeader with dataFieldLength := 12 }
        [0x04, 0, 0xAA, 0xBB, 0xCC, 0, 0, 0, 0, 3]),
       sampleFrame (pduOctets (sampleSegmentHeader 8) [0, 0, 0, 1, 0xBB, 0xCC]),
       sampleFrame (corrupt (pduOctets (sampleSegmentHeader 8) [0, 0, 0, 0, 0xAA, 0xBB])
        sampleCrcError),
       sampleFrame (pduOctets (sampleSegmentHeader 8) [0, 0, 0, 0, 0xAA, 0xBB])]
    ∃ eof m', receiveFrames defaultNakCapacity frames none
        (Object.full [1, 2, 3, 4]) = .ok (eof, m') ∧ (Ptr.mk m' 0).Holds sampleDeliveredFile := by
  -- the EOF first, then the second segment, a damaged copy of the first, and the first
  intro frames
  have hcorrupt : (sampleFrame (corrupt (pduOctets (sampleSegmentHeader 8)
      [0, 0, 0, 0, 0xAA, 0xBB]) sampleCrcError)).Arrives defaultNakCapacity sampleDeliveredFile
        none := by
    refine @Frame.Arrives.corrupted _ _ _ _ _ _ _ [] sampleCrcError sampleFirst_sent rfl
      (by decide +kernel) ⟨by decide, by decide, by decide, by decide⟩ ?_ ?_
    · intro hmultiple
      have hsame := (@crcOctets_corrupt_iff (List.replicate 15 0) sampleCrcError
        (Nat.le_refl 15)).mpr hmultiple
      exact absurd hsame (by decide +kernel)
    · rw [List.append_nil]
      exact sampleFrame_carries (by decide)
  have harrives : List.Forall₂ (Frame.Arrives defaultNakCapacity sampleDeliveredFile) frames
      [some (.eof sampleDeliveredEof), some (.fileData (sampleSegment 1 [0xBB, 0xCC])), none,
        some (.fileData (sampleSegment 0 [0xAA, 0xBB]))] :=
    .cons (sampleDeliveredEof_sent.arrives (by decide))
      (.cons (sampleSecond_sent.arrives (by decide))
        (.cons hcorrupt (.cons (sampleFirst_sent.arrives (by decide)) .nil)))
  obtain ⟨eof, m', hrun, _, _, _, _, hcomplete⟩ := delivery (m := Object.full [1, 2, 3, 4])
    (Nat.le_refl 32) (by decide) harrives
  refine ⟨eof, m', hrun, (hcomplete fun j hj => ?_).1⟩
  rw [mem_covered]
  by_cases hfirst : j < 2
  · exact ⟨_, List.mem_cons_of_mem _ List.mem_cons_self, Nat.zero_le j, hfirst⟩
  · exact ⟨_, List.mem_cons_self, Nat.le_trans (by decide) (Nat.le_of_not_lt hfirst), hj⟩

/-- **Main result.** Two receivers that start with the same octets and whose segments cover the
    same part of the file, cut and ordered and repeated as they may be, end with the same file. -/
theorem delivery_order (h32 : 32 ≤ T.sizeBits) (hroom : file.length ≤ m.extent)
    {frames' : List (Frame T)} {xs' : List (Option (DataField N))}
    (h : List.Forall₂ (Frame.Arrives N file) frames xs)
    (h' : List.Forall₂ (Frame.Arrives N file) frames' xs')
    (hcovered : covered (pieces xs) = covered (pieces xs')) :
    ∃ eof eof' m', receiveFrames N frames none m = .ok (eof, m') ∧
      receiveFrames N frames' none m = .ok (eof', m') := by
  have hlength : file.length ≤ m.octets.length := Nat.le_trans hroom m.extent_le
  obtain ⟨eof, m₁, hrun, hextent, hoctets, _⟩ := receiveFrames_run h32 h hroom none
  obtain ⟨eof', m₂, hrun', hextent', hoctets', _⟩ := receiveFrames_run h32 h' hroom none
  have hsame : m₁ = m₂ := by
    apply Object.ext'
    · rw [hoctets, hoctets', assemble_congr (cutFrom_of_arrives h) (cutFrom_of_arrives h')
        hlength hcovered]
    · rw [hextent, hextent']
  exact ⟨eof, eof', m₂, by rw [hrun, hsame], hrun'⟩

end Run

/-- The whole file in one segment, or in the two that overlap. -/
theorem delivery_order_sample :
    ∃ eof eof' m', receiveFrames defaultNakCapacity
        [sampleFrame (pduOctets (sampleSegmentHeader 9) [0, 0, 0, 0, 0xAA, 0xBB, 0xCC])] none
        (Object.full [1, 2, 3, 4]) = .ok (eof, m') ∧
      receiveFrames defaultNakCapacity
        [sampleFrame (pduOctets (sampleSegmentHeader 8) [0, 0, 0, 1, 0xBB, 0xCC]),
         sampleFrame (pduOctets (sampleSegmentHeader 8) [0, 0, 0, 0, 0xAA, 0xBB])] none
        (Object.full [1, 2, 3, 4]) = .ok (eof', m') := by
  have hwhole : Sent sampleDeliveredFile (sampleSegmentHeader 9)
      (.fileData (sampleSegment 0 sampleDeliveredFile) : DataField defaultNakCapacity)
      [0, 0, 0, 0, 0xAA, 0xBB, 0xCC] :=
    sampleSegment_sent (by decide) (by decide) (by decide +kernel) rfl ⟨[], rfl⟩
  refine delivery_order (m := Object.full [1, 2, 3, 4]) (Nat.le_refl 32) (by decide)
    (.cons (hwhole.arrives (by decide)) .nil)
    (.cons (sampleSecond_sent.arrives (by decide))
      (.cons (sampleFirst_sent.arrives (by decide)) .nil)) ?_
  change covered [⟨0, [0xAA, 0xBB, 0xCC]⟩] = covered [⟨1, [0xBB, 0xCC]⟩, ⟨0, [0xAA, 0xBB]⟩]
  simp only [covered_cons, covered_nil, Set.union_empty, Piece.span, List.length_cons,
    List.length_nil]
  ext j
  simp only [Set.mem_union, Set.mem_Ico]
  omega

end EmbeddedCfdp
