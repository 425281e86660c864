import EmbeddedCfdp.PduExtent

/-!
# Two builds of the library

The entities of a transfer are built for different machines, with a `size_t` and a
`CFDP_NAK_MAX_SEGMENT_REQUESTS` of their own.  Neither changes what a PDU says.  The one
difference that a build makes is that a NAK with more requests than its array holds is refused
there: "truncating would tell the sender that gaps it never saw had been satisfied"
(`README.md`).
-/

namespace EmbeddedCfdp

open CMemory

variable {T U : Target} {N : NakCapacity T} {M : NakCapacity U}

/-! ### From one build to another -/

/-- The same data field in the types of another build. -/
def DataField.rebuilt (M : NakCapacity U) : DataField N → DataField M
  | .fileData fd => .fileData
      { offset := fd.offset
        fileData := fd.fileData
        fileDataLen := sz fd.fileDataLen.toNat
        recordContinuation := fd.recordContinuation
        segmentMetadata := fd.segmentMetadata
        segmentMetadataLen := fd.segmentMetadataLen }
  | .eof pdu => .eof pdu
  | .finished fin => .finished fin
  | .ack pdu => .ack pdu
  | .metadata md => .metadata md
  | .nak pdu => .nak (NakFields.view default ⟨pdu.startOfScope, pdu.endOfScope, pdu.requests⟩)
  | .prompt response => .prompt response
  | .keepAlive progress => .keepAlive progress

/-- The array of a build has room for the segment requests. -/
def DataField.FitsIn (M : NakCapacity U) : DataField N → Prop
  | .nak pdu => pdu.segmentRequestCount.toNat ≤ M.max
  | _ => True

instance (x : DataField N) : Decidable (x.FitsIn M) := by
  cases x
  case nak pdu => exact inferInstanceAs (Decidable (_ ≤ _))
  all_goals exact inferInstanceAs (Decidable True)

section Decode

variable {p : Ptr} {xs : List UInt8} {hdr : PduHeader}

end Decode

/-! ### Receiving in two builds -/

/-- A plain build for a 64-bit machine. -/
def plain64 : Target := ⟨64, false, by norm_num⟩

/-- A build that was told to hold one segment request. -/
def oneRequest : NakCapacity plain64 := ⟨1, by decide⟩

section Sending

variable {hdr : PduHeader} {x : DataField N}

theorem fileDataOf_rebuilt {fd : FileDataPdu T} (hsize : fd.fileDataLen.toNat < 2 ^ U.sizeBits)
    {largeFileFlag : LargeFileFlag} {segmentMetadataFlag : SegMetadataFlag} {fd' : FileDataPdu U}
    (hfd : (DataField.fileData fd : DataField N).rebuilt M = .fileData fd') :
    fileDataOf largeFileFlag segmentMetadataFlag fd' =
      fileDataOf largeFileFlag segmentMetadataFlag fd := by
  cases hfd
  have hlen : (sz fd.fileDataLen.toNat : Size U).toNat = fd.fileDataLen.toNat := toNat_sz hsize
  have hzero : (sz fd.fileDataLen.toNat : Size U) > sz 0 ↔ fd.fileDataLen > sz 0 := by
    rw [gt_iff_lt, gt_iff_lt, sz_lt_iff (size_lt U (by decide)), sz_lt_iff (size_lt T (by decide)),
      hlen]
  unfold fileDataOf
  simp only [hzero, hlen]
  rfl

theorem nakEncoding_rebuilt {pdu : NakPdu N} (hfits : pdu.segmentRequestCount.toNat ≤ N.max)
    (hother : pdu.segmentRequestCount.toNat ≤ M.max) {largeFileFlag : LargeFileFlag} :
    nakEncoding (NakFields.view (default : NakPdu M)
        ⟨pdu.startOfScope, pdu.endOfScope, pdu.requests⟩) largeFileFlag =
      nakEncoding pdu largeFileFlag := by
  have hlength := length_requests hfits
  obtain ⟨hcount, hrequests⟩ := NakFields.requests_view
    (f := ⟨pdu.startOfScope, pdu.endOfScope, pdu.requests⟩) (default : NakPdu M)
    (by rw [hlength]; exact hother)
  rw [nakEncoding_few hfits, nakEncoding_few (by rw [hcount, hlength]; exact hother), nakOctets,
    hrequests]
  rfl

/-- The octets that stand for a data field are the same in every build that can hold it. -/
theorem DataField.encoding_rebuilt (hfits : x.FitsIn N) (hother : x.FitsIn M)
    (hsize : ∀ fd, x = .fileData fd → fd.fileDataLen.toNat < 2 ^ U.sizeBits) :
    ((x.rebuilt M).serialiser hdr).encoding = (x.serialiser hdr).encoding := by
  cases x with
  | fileData fd =>
    exact congrArg (Option.map FileDataItem.encode)
      (fileDataOf_rebuilt (N := N) (M := M) (hsize fd rfl) rfl)
  | nak pdu => exact nakEncoding_rebuilt hfits hother
  | eof pdu => rfl
  | finished fin => rfl
  | ack pdu => rfl
  | metadata md => rfl
  | prompt response => rfl
  | keepAlive progress => rfl

/-- **Main result.** Two builds that are given the same data field and as much room, at least for
    the header, return the same length, and unless it is 0 they leave the same octets, whatever
    the two buffers held before.  Without a CRC the data field is one that 16 bits count. -/
theorem sent_alike (h32 : 32 ≤ T.sizeBits) (h32' : 32 ≤ U.sizeBits) (h : hdr.InRange)
    (hfits : x.FitsIn N) (hother : x.FitsIn M)
    (hsize : ∀ fd, x = .fileData fd → fd.fileDataLen.toNat < 2 ^ U.sizeBits)
    (hsourced : (x.serialiser hdr).Sourced) (hsourced' : ((x.rebuilt M).serialiser hdr).Sourced)
    {i j : Nat} {cap : Size T} {cap' : Size U} {m n : Object} (hcap : cap'.toNat = cap.toNat)
    (hroom : headerLength hdr ≤ cap.toNat) (hext : i + cap.toNat ≤ m.extent)
    (hext' : j + cap'.toNat ≤ n.extent)
    (hshort : hdr.crcFlag ≠ CFDP_CRC_PRESENT →
      ∀ e, (x.serialiser hdr).encoding = some e → e.length < 65536) :
    ∃ total m' total' n', sendPdu hdr x i cap m = .ok (total, m') ∧
      sendPdu hdr (x.rebuilt M) j cap' n = .ok (total', n') ∧ total'.toNat = total.toNat ∧
      octetsAt (some ⟨n', j⟩) total'.toNat = octetsAt (some ⟨m', i⟩) total.toNat := by
  obtain ⟨total, m', hrun, _, htotal, hpdu⟩ := sendPdu_run h32 h hsourced hroom hext rfl
  have hsent : x.sentIn hdr (cap.toNat - headerLength hdr) =
      (x.rebuilt M).sentIn hdr (cap'.toNat - headerLength hdr) := by
    rw [DataField.sentIn, DataField.sentIn, DataField.encoding_rebuilt hfits hother hsize, hcap]
  obtain ⟨total', n', hrun', _, htotal', hpdu'⟩ :=
    sendPdu_run h32' h hsourced' (by rw [hcap]; exact hroom) hext' hsent
  have hlength := fun hcrc => sentIn_short (hshort hcrc) (cap.toNat - headerLength hdr)
  refine ⟨total, m', total', n', hrun, hrun', ?_⟩
  rw [hcap] at htotal'
  -- both send nothing, or both send the PDU that the payload determines
  by_cases hzero : total = sz 0
  · have hzero' : total' = sz 0 := by
      by_contra hne
      exact htotal.mpr (htotal'.mp hne) hzero
    have hnothing : total'.toNat = total.toNat := by
      rw [hzero, hzero', toNat_sz_small (by decide), toNat_sz_small (by decide)]
    refine ⟨hnothing, ?_⟩
    rw [hnothing, hzero, toNat_sz_small (by decide)]
    rfl
  · obtain ⟨k, hsized, hlen, hholds⟩ := hpdu hzero hlength
    obtain ⟨k', hsized', hlen', hholds'⟩ := hpdu' (htotal'.mpr (htotal.mp hzero)) hlength
    rw [hsized'.sized_unique hsized] at hlen' hholds'
    refine ⟨hlen'.symm.trans hlen, ?_⟩
    rw [← hlen', hholds'.octetsAt, ← hlen, hholds.octetsAt]

end Sending

/-- A NAK of one request, sent by a build that holds two and by one that holds one, the second
    time into a buffer that was in use. -/
theorem sent_alike_sample :
    let x := DataField.nak sampleNak
    ∃ total m' total' n',
      sendPdu samplePromptHeader x 0 (sz 64) (Object.full (List.replicate 64 0)) =
        .ok (total, m') ∧
      sendPdu samplePromptHeader (x.rebuilt oneRequest) 0 (sz 64)
        (Object.full (List.replicate 64 0xFF)) = .ok (total', n') ∧
      total'.toNat = total.toNat ∧
      octetsAt (some ⟨n', 0⟩) total'.toNat = octetsAt (some ⟨m', 0⟩) total.toNat := by
  intro x
  exact @sent_alike _ _ twoRequests oneRequest _ x (by decide) (by decide)
    samplePromptHeader_inRange (by decide) (by decide) (fun fd hfd => nomatch hfd) trivial trivial
    0 0 (sz 64) (sz 64) _ _ rfl (by decide) (by decide) (by decide)
    (fun hnone => absurd rfl hnone)

end EmbeddedCfdp
