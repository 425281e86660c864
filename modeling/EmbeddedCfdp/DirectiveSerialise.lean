import EmbeddedCfdp.Directive
import EmbeddedCfdp.TlvSerialise

/-!
# The directive serialisers refine pure encoders

For each File Directive, the octets that stand for an argument, or none where the
argument may not be encoded, and that the serialiser of the library writes them.
-/

namespace EmbeddedCfdp

open CMemory

variable {T : Target}

theorem length_fileSizeOctets (largeFileFlag : LargeFileFlag) :
    (fileSizeOctets largeFileFlag).toNat ≤ 8 ∧ 4 ≤ (fileSizeOctets largeFileFlag).toNat := by
  rcases fileSizeOctets_eq largeFileFlag with h | h
  · rw [h]
    decide
  · rw [h]
    decide

/-! ### A fault location at the end -/

/-- The octets `w`, followed by the fault location where one is required. -/
def withFaultLocation (required : Prop) [Decidable required] (entityId : UInt64)
    (idLen : UInt8) (w : List UInt8) : Option (List UInt8) :=
  if required then (entityIdOf entityId idLen).map fun id => w ++ entityIdCodec.enc id
  else some w

section FaultLocation

variable {required : Prop} [Decidable required] {entityId : UInt64} {idLen : UInt8}
  {w e : List UInt8}

theorem withFaultLocation_ne_nil (hw : w ≠ [])
    (h : withFaultLocation required entityId idLen w = some e) : e ≠ [] := by
  unfold withFaultLocation at h
  by_cases hreq : required
  · rw [if_pos hreq] at h
    obtain ⟨id, _, rfl⟩ := Option.map_eq_some_iff.mp h
    exact List.append_ne_nil_of_left_ne_nil hw _
  · rw [if_neg hreq, Option.some.injEq] at h
    exact h ▸ hw

theorem length_le_of_withFaultLocation
    (h : withFaultLocation required entityId idLen w = some e) : w.length ≤ e.length := by
  unfold withFaultLocation at h
  by_cases hreq : required
  · rw [if_pos hreq] at h
    obtain ⟨id, _, rfl⟩ := Option.map_eq_some_iff.mp h
    rw [List.length_append]
    omega
  · rw [if_neg hreq, Option.some.injEq] at h
    rw [h]

theorem withFaultLocation_missing (hreq : required) (hlen : idLen = 0) :
    withFaultLocation required entityId idLen w = none := by
  have hid : entityIdOf entityId idLen = none := by
    rw [hlen]
    rfl
  rw [withFaultLocation, if_pos hreq, hid, Option.map_none]

/-- How the EOF and the Finished serialiser end. -/
theorem faultLocation_outcome {m : Object} {i : Nat} {len pos : Size T}
    (hpos : pos.toNat = w.length) (hroom : w.length ≤ len.toNat)
    (hext : i + len.toNat ≤ m.extent) :
    Outcome (withFaultLocation required entityId idLen w) m i len.toNat
      ((if ¬ required then pure pos
        else do
          let rest ← Size.subW len pos
          let n ← entityIdTlvSerialize entityId idLen (some (i + pos.toNat)) rest
          if n = sz 0 then pure (sz 0) else pure (pos + n)) (m.place i w)) := by
  have hsz : pos = sz w.length := by rw [← hpos, sz_toNat]
  -- a condition without fault location ends the PDU here
  by_cases hreq : required
  · rw [if_neg (not_not.mpr hreq), withFaultLocation, if_pos hreq]
    refine Outcome.bind_rest (entityIdTlvSerialize_encodes entityId idLen) hpos hroom hext ?_ ?_
    · intro e he
      obtain ⟨id, hid, rfl⟩ := Option.map_eq_some_iff.mp he
      exact ⟨_, by rw [hid, Option.map_some], by rw [List.length_append]⟩
    · intro e' he' hle
      obtain ⟨id, hid, rfl⟩ := Option.map_eq_some_iff.mp he'
      refine Outcome.done (by rw [hid, Option.map_some]) ?_ ?_
      · rwa [List.length_append]
      · rw [hsz, sz_add, List.length_append]
  · rw [if_pos hreq, withFaultLocation, if_neg hreq]
    exact Outcome.done rfl hroom hsz

end FaultLocation

/-! ### EOF -/

/-- The octets in front of the fault location. -/
def eofFixed (eof : EofPdu) (largeFileFlag : LargeFileFlag) : List UInt8 :=
  CFDP_DIRECTIVE_EOF.toUInt8 :: ((eof.conditionCode.toUInt8 &&& 0xF) <<< 4) ::
    (BigEndian.encode 4 eof.fileChecksum.toNat ++
      BigEndian.encode (fileSizeOctets largeFileFlag).toNat eof.fileSize.toNat)

def eofEncoding (eof : EofPdu) (largeFileFlag : LargeFileFlag) : Option (List UInt8) :=
  withFaultLocation (eof.conditionCode ≠ CFDP_COND_NO_ERROR) eof.faultLocationEntityId
    eof.faultLocationLen (eofFixed eof largeFileFlag)

theorem length_eofFixed (eof : EofPdu) (largeFileFlag : LargeFileFlag) :
    (eofFixed eof largeFileFlag).length = (fileSizeOctets largeFileFlag).toNat + 6 := by
  simp only [eofFixed, List.length_cons, List.length_append, BigEndian.length_encode]
  omega

theorem eofSerialize_encodes (eof : EofPdu) (largeFileFlag : LargeFileFlag) :
    Encodes (T := T) (fun i n => eofSerialize (some eof) largeFileFlag (some i) n)
      (eofEncoding eof largeFileFlag) := by
  have hlength := length_eofFixed eof largeFileFlag
  obtain ⟨height, _⟩ := length_fileSizeOctets largeFileFlag
  constructor
  · intro e he
    exact withFaultLocation_ne_nil (List.cons_ne_nil _ _) he
  · intro i len m hext
    have hsize : (sz ((fileSizeOctets largeFileFlag).toNat + 6) : Size T).toNat =
        (fileSizeOctets largeFileFlag).toNat + 6 := toNat_sz_small (by omega)
    unfold eofSerialize
    refine Outcome.guard_start ?_ fun _ => ?_
    -- a fault location is required, and there is none to write
    · rintro ⟨hreq, hlen⟩ e he
      rw [eofEncoding, withFaultLocation_missing hreq hlen] at he
      cases he
    · rw [sz_add]
      refine Outcome.guard_start ?_ fun hroom => ?_
      · rw [lt_sz_iff (size_lt T (by omega))]
        intro hshort e he
        have := length_le_of_withFaultLocation he
        omega
      -- code, condition, checksum and file size; then the fault location
      · rw [lt_sz_iff (size_lt T (by omega))] at hroom
        have hfour : (4 : UInt8).toNat = 4 := rfl
        refine Outcome.start (j := i) (Outcome.bind (Puts.store i _) rfl ?_
          (Outcome.bind (Puts.store (i + 1) _) rfl ?_
            (Outcome.bind (writeUint_puts (i + 2) _ 4) rfl ?_
              (Outcome.bind (writeUint_puts (i + 6) _ _) ?_ ?_ ?_))))
        · simp only [List.length_singleton]
          omega
        · simp only [List.length_singleton]
          omega
        · rw [BigEndian.length_encode, hfour]
          omega
        · simp only [List.length_append, BigEndian.length_encode, hfour]
          rfl
        · rw [BigEndian.length_encode]
          omega
        · simp only [List.nil_append, List.cons_append, UInt32.toNat_toUInt64,
            hfour]
          exact faultLocation_outcome (by rw [hsize, hlength]) (by omega) hext

/-! ### Finished -/

def finishedStatus (fin : FinishedPdu) : UInt8 :=
  ((fin.conditionCode.toUInt8 &&& 0xF) <<< 4) |||
    ((fin.deliveryCode.toUInt8 &&& 0x1) <<< 2) ||| (fin.fileStatus.toUInt8 &&& 0x3)

/-- The octets in front of the fault location. -/
def finishedFixed (fin : FinishedPdu) : List UInt8 :=
  CFDP_DIRECTIVE_FINISHED.toUInt8 :: finishedStatus fin ::
    octetsAt fin.filestoreResponses fin.filestoreResponsesLen.toNat

def finishedEncoding (fin : FinishedPdu) : Option (List UInt8) :=
  if fin.filestoreResponses.isNone ∧ fin.filestoreResponsesLen > 0 then none
  else
    withFaultLocation (faultLocationRequired fin.conditionCode = true) fin.faultLocationEntityId
      fin.faultLocationLen (finishedFixed fin)

theorem toNat_pos_iff_uint16 {n : UInt16} : n > 0 ↔ n.toNat > 0 := UInt16.lt_iff_toNat_lt

theorem finishedSerialize_encodes {fin : FinishedPdu}
    (hfits : fin.filestoreResponsesLen.toNat + 2 < 2 ^ T.sizeBits)
    (hr : Readable fin.filestoreResponses fin.filestoreResponsesLen.toNat) :
    Encodes (T := T) (fun i n => finishedSerialize (some fin) (some i) n)
      (finishedEncoding fin) := by
  constructor
  · intro e he
    obtain ⟨_, he⟩ := Option.ite_none_left_eq_some.mp he
    exact withFaultLocation_ne_nil (List.cons_ne_nil _ _) he
  · intro i len m hext
    unfold finishedSerialize
    refine Outcome.guard_start ?_ fun hpass => Outcome.guard_start ?_ fun _ => ?_
    · rw [lt_sz_iff (size_lt T (by omega))]
      intro hrefuse e he
      obtain ⟨hgiven, he⟩ := Option.ite_none_left_eq_some.mp he
      have hle := length_le_of_withFaultLocation he
      rw [finishedFixed, List.length_cons, List.length_cons] at hle
      have := hrefuse.resolve_right hgiven
      omega
    -- a fault location is required, and there is none to write
    · rintro ⟨hreq, hlen⟩ e he
      obtain ⟨_, he⟩ := Option.ite_none_left_eq_some.mp he
      rw [withFaultLocation_missing hreq hlen] at he
      cases he
    · rw [lt_sz_iff (size_lt T (by omega)), not_or] at hpass
      obtain ⟨hshort, hgiven⟩ := hpass
      have hnull : ¬ (fin.filestoreResponses.isNone ∧ fin.filestoreResponsesLen.toNat > 0) := by
        rwa [← toNat_pos_iff_uint16]
      have hlength : (finishedFixed fin).length = fin.filestoreResponsesLen.toNat + 2 := by
        rw [finishedFixed, List.length_cons, List.length_cons, length_octetsAt hr hnull]
      have henc : finishedEncoding fin = withFaultLocation
          (faultLocationRequired fin.conditionCode = true) fin.faultLocationEntityId
            fin.faultLocationLen (finishedFixed fin) := if_neg hgiven
      have hsize : (sz (2 + fin.filestoreResponsesLen.toNat) : Size T).toNat =
          2 + fin.filestoreResponsesLen.toNat := toNat_sz (by omega)
      have htwo : (sz 2 : Size T).toNat = 2 := toNat_sz_small (by omega)
      dsimp only
      rw [sz_add, htwo, henc]
      refine Outcome.guard_start ?_ fun hroom => ?_
      · rw [lt_sz_iff (by omega)]
        intro hsmall e he
        have := length_le_of_withFaultLocation he
        omega
      · rw [lt_sz_iff (by omega)] at hroom
        -- code, status octet and the responses; then the fault location
        refine Outcome.start (j := i) (Outcome.bind (Puts.store i _) rfl ?_
          (Outcome.bind (Puts.store (i + 1) _) rfl ?_
            (Outcome.copy toNat_pos_iff_uint16 hnull hr ?_ ?_ (fun _ => rfl) ?_)))
        · simp only [List.length_singleton]
          omega
        · simp only [List.length_singleton]
          omega
        · rfl
        · omega
        · exact faultLocation_outcome (by rw [hsize, hlength]; omega) (by omega) hext

/-! ### ACK -/

def ackOctets (ack : AckPdu) : List UInt8 :=
  [CFDP_DIRECTIVE_ACK.toUInt8,
    ((ack.ackDirectiveCode.toUInt8 &&& 0xF) <<< 4) |||
      (ackDirectiveSubtype ack.ackDirectiveCode &&& 0xF),
    ((ack.conditionCode.toUInt8 &&& 0xF) <<< 4) ||| (ack.transactionStatus.toUInt8 &&& 0x3)]

def ackEncoding (ack : AckPdu) : Option (List UInt8) :=
  if ackDirectiveValid ack.ackDirectiveCode = true then some (ackOctets ack) else none

theorem ackSerialize_encodes (ack : AckPdu) :
    Encodes (T := T) (fun i n => ackSerialize (some ack) (some i) n) (ackEncoding ack) := by
  constructor
  · intro e he
    obtain ⟨_, he⟩ := Option.ite_none_right_eq_some.mp he
    rw [← Option.some.inj he]
    exact List.cons_ne_nil _ _
  · intro i len m hext
    unfold ackSerialize
    -- refused for want of room, or for a directive that is not acknowledged
    refine Outcome.guard_start ?_ fun hpass => ?_
    · rw [lt_sz_iff (size_lt T (by omega))]
      intro hrefuse e he
      obtain ⟨hvalid, he⟩ := Option.ite_none_right_eq_some.mp he
      rw [← Option.some.inj he]
      exact hrefuse.resolve_right (not_not.mpr hvalid)
    · rw [lt_sz_iff (size_lt T (by omega)), not_or, not_not] at hpass
      obtain ⟨hroom, hvalid⟩ := hpass
      refine Outcome.of_puts (e := ackOctets ack) (Puts.bind (Puts.store i _)
        (Puts.bind (Puts.store (i + 1) _) (Puts.bind (Puts.store (i + 2) _) (Puts.pure _ _) rfl)
          rfl) rfl) (if_pos hvalid) ?_ hext
      change 3 ≤ _
      omega

/-! ### Metadata -/

def metadataFlags (md : MetadataPdu) : UInt8 :=
  ((if md.closureRequested then (1 : UInt8) else 0) <<< 6) ||| (md.checksumType.toUInt8 &&& 0xF)

/-- The octets in front of the file names. -/
def metadataFixed (md : MetadataPdu) (largeFileFlag : LargeFileFlag) : List UInt8 :=
  CFDP_DIRECTIVE_METADATA.toUInt8 :: metadataFlags md ::
    BigEndian.encode (fileSizeOctets largeFileFlag).toNat md.fileSize.toNat

/-- The octets `w`, followed by the file names and the options. -/
def withNames (md : MetadataPdu) (w : List UInt8) : Option (List UInt8) :=
  (lvOf md.sourceFilename md.sourceFilenameLen).bind fun source =>
    (lvOf md.destinationFilename md.destinationFilenameLen).map fun destination =>
      w ++ source.encode ++ destination.encode ++ octetsAt md.options md.optionsLen.toNat

def metadataEncoding (md : MetadataPdu) (largeFileFlag : LargeFileFlag) : Option (List UInt8) :=
  if md.options.isNone ∧ md.optionsLen > 0 then none
  else withNames md (metadataFixed md largeFileFlag)

/-- The source's promise about the pointers in a Metadata PDU. -/
structure MetadataPdu.Sourced (md : MetadataPdu) : Prop where
  sourceFilename : Readable md.sourceFilename md.sourceFilenameLen.toNat
  destinationFilename : Readable md.destinationFilename md.destinationFilenameLen.toNat
  options : Readable md.options md.optionsLen.toNat

theorem withNames_eq_some {md : MetadataPdu} {w e : List UInt8} (h : withNames md w = some e) :
    ∃ source destination, lvOf md.sourceFilename md.sourceFilenameLen = some source ∧
      lvOf md.destinationFilename md.destinationFilenameLen = some destination ∧
      e = w ++ source.encode ++ destination.encode ++ octetsAt md.options md.optionsLen.toNat := by
  obtain ⟨source, hsource, h⟩ := Option.bind_eq_some_iff.mp h
  obtain ⟨destination, hdestination, rfl⟩ := Option.map_eq_some_iff.mp h
  exact ⟨source, destination, hsource, hdestination, rfl⟩

/-- The exact number of octets the argument asks for. -/
def metadataSize (md : MetadataPdu) (largeFileFlag : LargeFileFlag) : Nat :=
  fileSizeWidth largeFileFlag + md.sourceFilenameLen.toNat +
    md.destinationFilenameLen.toNat + md.optionsLen.toNat + 4

theorem metadataSize_eq (md : MetadataPdu) (largeFileFlag : LargeFileFlag) :
    metadataSize md largeFileFlag = (fileSizeOctets largeFileFlag).toNat +
      md.sourceFilenameLen.toNat + md.destinationFilenameLen.toNat + md.optionsLen.toNat + 4 := by
  rw [metadataSize, toNat_fileSizeOctets]

theorem length_metadataFixed (md : MetadataPdu) (largeFileFlag : LargeFileFlag) :
    (metadataFixed md largeFileFlag).length = (fileSizeOctets largeFileFlag).toNat + 2 := by
  rw [metadataFixed, List.length_cons, List.length_cons, BigEndian.length_encode]

section Metadata

variable {md : MetadataPdu} {w : List UInt8}

theorem length_withNames (hmd : md.Sourced)
    (hgiven : ¬ (md.options.isNone ∧ md.optionsLen.toNat > 0)) {e : List UInt8}
    (h : withNames md w = some e) :
    e.length = w.length + md.sourceFilenameLen.toNat + md.destinationFilenameLen.toNat +
      md.optionsLen.toNat + 2 := by
  obtain ⟨source, destination, hsource, hdestination, rfl⟩ := withNames_eq_some h
  obtain ⟨_, _, hsourceLength⟩ := lvOf_eq_some hmd.sourceFilename hsource
  obtain ⟨_, _, hdestinationLength⟩ := lvOf_eq_some hmd.destinationFilename hdestination
  simp only [List.length_append, Lv.length_encode, length_octetsAt hmd.options hgiven,
    hsourceLength, hdestinationLength]
  omega

/-- What the Metadata serialiser does behind the file size. -/
theorem names_outcome {m : Object} {i : Nat} {len pos : Size T} (hmd : md.Sourced)
    (hgiven : ¬ (md.options.isNone ∧ md.optionsLen.toNat > 0)) (hpos : pos.toNat = w.length)
    (hroom : w.length + md.sourceFilenameLen.toNat + md.destinationFilenameLen.toNat +
      md.optionsLen.toNat + 2 ≤ len.toNat) (hext : i + len.toNat ≤ m.extent) :
    Outcome (withNames md w) m i len.toNat
      ((do
        let rest ← Size.subW len pos
        let n ← lvSerialize md.sourceFilename md.sourceFilenameLen (some (i + pos.toNat)) rest
        if n = sz 0 then pure (sz 0)
        else
          let rest ← Size.subW len (pos + n)
          let n' ← lvSerialize md.destinationFilename md.destinationFilenameLen
            (some (i + (pos + n).toNat)) rest
          if n' = sz 0 then pure (sz 0)
          else if md.optionsLen > 0 then do
            memcpy (i + (pos + n + n').toNat) md.options md.optionsLen.toNat
            pure (pos + n + n' + sz md.optionsLen.toNat)
          else pure (pos + n + n')) (m.place i w)) := by
  have hlt := len.isLt
  have hsz : pos = sz w.length := by rw [← hpos, sz_toNat]
  -- the source name, on what is left of the buffer
  refine Outcome.bind_rest (lvSerialize_encodes hmd.sourceFilename) hpos (by omega) hext ?_ ?_
  · intro e he
    obtain ⟨source, destination, hsource, _, rfl⟩ := withNames_eq_some he
    refine ⟨source.encode, by rw [hsource, Option.map_some], ?_⟩
    simp only [List.length_append]
    omega
  · intro e' he' hle
    obtain ⟨source, hsource, rfl⟩ := Option.map_eq_some_iff.mp he'
    have hsourceLength := (lvOf_eq_some hmd.sourceFilename hsource).2.2
    have hlength : (w ++ source.encode).length = w.length + md.sourceFilenameLen.toNat + 1 := by
      rw [List.length_append, Lv.length_encode, hsourceLength]
      omega
    have hpos' : (pos + sz source.encode.length).toNat = (w ++ source.encode).length := by
      rw [hsz, sz_add, toNat_sz (by omega), List.length_append]
    -- behind it the destination name, and then the options if there are any
    refine Outcome.bind_rest (lvSerialize_encodes hmd.destinationFilename) hpos' (by omega) hext
      ?_ ?_
    · intro e he
      obtain ⟨source', destination, hsource', hdestination, rfl⟩ := withNames_eq_some he
      rw [hsource, Option.some.injEq] at hsource'
      subst hsource'
      refine ⟨destination.encode, by rw [hdestination, Option.map_some], ?_⟩
      simp only [List.length_append]
      omega
    · intro e' he' hle'
      obtain ⟨destination, hdestination, rfl⟩ := Option.map_eq_some_iff.mp he'
      have hdestinationLength := (lvOf_eq_some hmd.destinationFilename hdestination).2.2
      have hlength' : (w ++ source.encode ++ destination.encode).length = w.length +
          md.sourceFilenameLen.toNat + 1 + md.destinationFilenameLen.toNat + 1 := by
        rw [List.length_append, hlength, Lv.length_encode, hdestinationLength]
        omega
      have hpos'' : pos + sz source.encode.length + sz destination.encode.length =
          sz (w ++ source.encode ++ destination.encode).length := by
        rw [hsz, sz_add, sz_add, List.length_append, List.length_append]
      have henc : withNames md w = some (w ++ source.encode ++ destination.encode ++
          octetsAt md.options md.optionsLen.toNat) := by
        rw [withNames, hsource, Option.bind_some, hdestination, Option.map_some]
      have htotal : (w ++ source.encode ++ destination.encode ++
          octetsAt md.options md.optionsLen.toNat).length =
          (w ++ source.encode ++ destination.encode).length + md.optionsLen.toNat := by
        rw [List.length_append, length_octetsAt hmd.options hgiven]
      rw [hpos'', toNat_sz (by omega)]
      refine Outcome.copy toNat_pos_iff_uint16 hgiven hmd.options rfl (by omega) ?_ ?_
      · intro hzero
        rw [sz_add, hzero, Nat.add_zero]
      · refine Outcome.done henc (by omega) ?_
        rw [sz_add, htotal]

theorem metadataSerialize_encodes {largeFileFlag : LargeFileFlag}
    (hfits : metadataSize md largeFileFlag < 2 ^ T.sizeBits) (hmd : md.Sourced) :
    Encodes (T := T) (fun i n => metadataSerialize (some md) largeFileFlag (some i) n)
      (metadataEncoding md largeFileFlag) := by
  have hfixed := length_metadataFixed md largeFileFlag
  have hsum := metadataSize_eq md largeFileFlag
  constructor
  · intro e he
    obtain ⟨_, he⟩ := Option.ite_none_left_eq_some.mp he
    obtain ⟨_, _, _, _, rfl⟩ := withNames_eq_some he
    exact List.cons_ne_nil _ _
  · intro i len m hext
    unfold metadataSerialize
    refine Outcome.guard_start ?_ fun hgiven => ?_
    -- options without a pointer to them are refused
    · intro hnull e he
      exact ((Option.ite_none_left_eq_some.mp he).1 hnull).elim
    · have hnull : ¬ (md.options.isNone ∧ md.optionsLen.toNat > 0) := by
        rwa [← toNat_pos_iff_uint16]
      have henc : metadataEncoding md largeFileFlag =
          withNames md (metadataFixed md largeFileFlag) := if_neg hgiven
      have htwo : (sz 2 : Size T).toNat = 2 := toNat_sz_small (by omega)
      dsimp only
      simp only [sz_add]
      rw [← hsum, henc, htwo]
      refine Outcome.guard_start ?_ fun hroom => ?_
      · rw [lt_sz_iff hfits]
        intro hshort e he
        rw [length_withNames hmd hnull he]
        omega
      -- code, flags and file size; then the names and the options
      · rw [lt_sz_iff hfits] at hroom
        refine Outcome.start (j := i) (Outcome.bind (Puts.store i _) rfl ?_
          (Outcome.bind (Puts.store (i + 1) _) rfl ?_
            (Outcome.bind (writeUint_puts (i + 2) _ _) rfl ?_ ?_)))
        · simp only [List.length_singleton]
          omega
        · simp only [List.length_singleton]
          omega
        · rw [BigEndian.length_encode]
          omega
        · have hlt := len.isLt
          exact names_outcome hmd hnull
            (by rw [toNat_sz (by omega), Nat.add_comm]; exact hfixed.symm)
            (by rw [hfixed]; omega) hext

end Metadata

/-! ### NAK -/

section Nak

variable {N : NakCapacity T}

def requestOctets (fs : UInt8) (request : SegmentRequest) : List UInt8 :=
  BigEndian.encode fs.toNat request.startOffset.toNat ++
    BigEndian.encode fs.toNat request.endOffset.toNat

theorem length_requestOctets (fs : UInt8) (request : SegmentRequest) :
    (requestOctets fs request).length = 2 * fs.toNat := by
  rw [requestOctets, List.length_append, BigEndian.length_encode, BigEndian.length_encode]
  omega

theorem length_flatMap_requestOctets (fs : UInt8) (requests : List SegmentRequest) :
    (requests.flatMap (requestOctets fs)).length = requests.length * (2 * fs.toNat) := by
  induction requests with
  | nil => simp
  | cons request requests ih =>
    rw [List.flatMap_cons, List.length_append, length_requestOctets, ih, List.length_cons]
    ring

/-- The requests that are in use. -/
def NakPdu.requests (nak : NakPdu N) : List SegmentRequest :=
  nak.segmentRequests.toList.take nak.segmentRequestCount.toNat

def nakOctets (nak : NakPdu N) (largeFileFlag : LargeFileFlag) : List UInt8 :=
  CFDP_DIRECTIVE_NAK.toUInt8 ::
    (requestOctets (fileSizeOctets largeFileFlag) ⟨nak.startOfScope, nak.endOfScope⟩ ++
      nak.requests.flatMap (requestOctets (fileSizeOctets largeFileFlag)))

def nakEncoding (nak : NakPdu N) (largeFileFlag : LargeFileFlag) : Option (List UInt8) :=
  if nak.segmentRequestCount > sz N.max then none else some (nakOctets nak largeFileFlag)

/-- The loop writes the requests from `i` on. -/
theorem nakSerializeLoop_puts {nak : NakPdu N} {buf left i k : Nat} {fs : UInt8}
    (hmax : i + left ≤ N.max) (hfits : k + left * (2 * fs.toNat) < 2 ^ T.sizeBits) :
    Puts (nakSerializeLoop nak buf fs left i (sz k)) (buf + k)
      (((nak.segmentRequests.toList.drop i).take left).flatMap (requestOctets fs))
      (sz (k + left * (2 * fs.toNat))) := by
  induction left generalizing i k with
  | zero =>
    rw [List.take_zero, Nat.zero_mul]
    exact Puts.pure _ _
  | succ left ih =>
    have hlt : i < nak.segmentRequests.toList.length := by
      rw [Vector.length_toList]
      omega
    have hget : arrayGet nak.segmentRequests i = .ok (nak.segmentRequests.toList[i]) := by
      have hi : i < N.max := by omega
      rw [arrayGet, dif_pos hi, Vector.getElem_toList]
    have hstep : (left + 1) * (2 * fs.toNat) = 2 * fs.toNat + left * (2 * fs.toNat) := by ring
    rw [hstep] at hfits ⊢
    have hk : (sz k : Size T).toNat = k := toNat_sz (by omega)
    have hk' : (sz (k + fs.toNat) : Size T).toNat = k + fs.toNat := toNat_sz (by omega)
    -- one request is a start and an end offset; the rest follows behind both
    have hrest := @ih (i + 1) (k + fs.toNat + fs.toNat) (by omega) (by omega)
    rw [nakSerializeLoop, List.drop_eq_getElem_cons hlt, List.take_succ_cons, List.flatMap_cons]
    dsimp only
    rw [hk, sz_add, hk', sz_add]
    refine Puts.congr (Puts.bind (Puts.lift hget (buf + k)) (Puts.bind (writeUint_puts _ _ _)
      (Puts.bind (writeUint_puts _ _ _) hrest ?_) ?_) rfl) ?_ ?_
    · rw [BigEndian.length_encode]
      omega
    · rw [BigEndian.length_encode]
      omega
    · rw [List.nil_append, requestOctets, List.append_assoc]
    · congr 1
      omega

theorem length_nakOctets {nak : NakPdu N} {largeFileFlag : LargeFileFlag}
    (hcount : nak.segmentRequestCount.toNat ≤ N.max) :
    (nakOctets nak largeFileFlag).length =
      1 + 2 * (fileSizeOctets largeFileFlag).toNat +
        nak.segmentRequestCount.toNat * (2 * (fileSizeOctets largeFileFlag).toNat) := by
  have hrequests : nak.requests.length = nak.segmentRequestCount.toNat := by
    rw [NakPdu.requests, List.length_take, Vector.length_toList]
    omega
  rw [nakOctets, List.length_cons, List.length_append, length_requestOctets,
    length_flatMap_requestOctets, hrequests]
  omega

theorem nakSerialize_encodes (nak : NakPdu N) (largeFileFlag : LargeFileFlag) :
    Encodes (T := T) (fun i n => nakSerialize (some nak) largeFileFlag (some i) n)
      (nakEncoding nak largeFileFlag) := by
  obtain ⟨height, hfour⟩ := length_fileSizeOctets largeFileFlag
  have hmaxFits := N.fits
  constructor
  · intro e he
    obtain ⟨_, he⟩ := Option.ite_none_left_eq_some.mp he
    rw [← Option.some.inj he]
    exact List.cons_ne_nil _ _
  · intro i len m hext
    unfold nakSerialize
    refine Outcome.guard_start ?_ fun hmany => ?_
    -- a count above the array is refused before anything is read
    · intro hmany e he
      exact ((Option.ite_none_left_eq_some.mp he).1 hmany).elim
    · have hcount : nak.segmentRequestCount.toNat ≤ N.max := by
        rw [gt_iff_lt, sz_lt_iff (by omega)] at hmany
        omega
      have hlength := @length_nakOctets T N nak largeFileFlag hcount
      have henc : nakEncoding nak largeFileFlag = some (nakOctets nak largeFileFlag) :=
        if_neg hmany
      have hsize : (sz 1 : Size T) + sz 2 * sz (fileSizeOctets largeFileFlag).toNat +
          nak.segmentRequestCount * (sz 2 * sz (fileSizeOctets largeFileFlag).toNat) =
          sz (nakOctets nak largeFileFlag).length := by
        rw [hlength, ← sz_toNat nak.segmentRequestCount, sz_mul, sz_mul, sz_add, sz_add, sz_toNat]
      have hfits : (nakOctets nak largeFileFlag).length < 2 ^ T.sizeBits := by
        have hle : nak.segmentRequestCount.toNat * (2 * (fileSizeOctets largeFileFlag).toNat) ≤
            N.max * (2 * 8) := Nat.mul_le_mul hcount (by omega)
        omega
      dsimp only
      rw [hsize]
      refine Outcome.guard_start ?_ fun hroom => ?_
      · rw [lt_sz_iff hfits, henc]
        rintro hshort e ⟨⟩
        exact hshort
      · rw [lt_sz_iff hfits] at hroom
        have hone : (sz 1 : Size T).toNat = 1 := toNat_sz_small (by omega)
        have hpos : (sz (1 + (fileSizeOctets largeFileFlag).toNat) : Size T).toNat =
            1 + (fileSizeOctets largeFileFlag).toNat := toNat_sz_small (by omega)
        rw [hone, sz_add, sz_add, hpos]
        -- code and scope, and the requests that the count gives
        refine Outcome.of_puts (Puts.congr (Puts.bind (Puts.store i _)
          (Puts.bind (writeUint_puts (i + 1) _ _) (Puts.bind (writeUint_puts _ _ _)
            (nakSerializeLoop_puts (by omega) (by omega)) ?_) ?_) rfl) ?_ ?_) henc (by omega) hext
        · rw [BigEndian.length_encode]
          omega
        · rw [BigEndian.length_encode]
          omega
        · rw [nakOctets, requestOctets, List.append_assoc]
          rfl
        · rw [hlength]
          congr 1
          omega

end Nak

/-! ### Prompt and Keep Alive -/

def promptOctets (response : PromptResponse) : List UInt8 :=
  [CFDP_DIRECTIVE_PROMPT.toUInt8, (response.toUInt8 &&& 0x1) <<< 7]

theorem promptSerialize_encodes (response : PromptResponse) :
    Encodes (T := T) (fun i n => promptSerialize response (some i) n)
      (some (promptOctets response)) := by
  constructor
  · rintro e ⟨⟩
    exact List.cons_ne_nil _ _
  · intro i len m hext
    unfold promptSerialize
    refine Outcome.guard_start ?_ fun hroom => ?_
    · rw [lt_sz_iff (size_lt T (by omega))]
      rintro hshort e ⟨⟩
      exact hshort
    · rw [lt_sz_iff (size_lt T (by omega))] at hroom
      refine Outcome.of_puts (e := promptOctets response) (Puts.bind (Puts.store i _)
        (Puts.bind (Puts.store (i + 1) _) (Puts.pure _ _) rfl) rfl) rfl ?_ hext
      change 2 ≤ _
      omega

def keepAliveOctets (progress : UInt64) (largeFileFlag : LargeFileFlag) : List UInt8 :=
  CFDP_DIRECTIVE_KEEP_ALIVE.toUInt8 ::
    BigEndian.encode (fileSizeOctets largeFileFlag).toNat progress.toNat

theorem length_keepAliveOctets (progress : UInt64) (largeFileFlag : LargeFileFlag) :
    (keepAliveOctets progress largeFileFlag).length = (fileSizeOctets largeFileFlag).toNat + 1 := by
  rw [keepAliveOctets, List.length_cons, BigEndian.length_encode]

theorem keepAliveSerialize_encodes (progress : UInt64) (largeFileFlag : LargeFileFlag) :
    Encodes (T := T) (fun i n => keepAliveSerialize progress largeFileFlag (some i) n)
      (some (keepAliveOctets progress largeFileFlag)) := by
  have hlength := length_keepAliveOctets progress largeFileFlag
  obtain ⟨height, _⟩ := length_fileSizeOctets largeFileFlag
  constructor
  · rintro e ⟨⟩
    exact List.cons_ne_nil _ _
  · intro i len m hext
    unfold keepAliveSerialize
    dsimp only
    rw [sz_add]
    refine Outcome.guard_start ?_ fun hroom => ?_
    · rw [lt_sz_iff (size_lt T (by omega))]
      rintro hshort e ⟨⟩
      rwa [hlength]
    · rw [lt_sz_iff (size_lt T (by omega))] at hroom
      refine Outcome.of_puts (Puts.congr (Puts.bind (Puts.store i _)
        (Puts.bind (writeUint_puts (i + 1) _ _) (Puts.pure _ _) rfl) rfl) ?_ ?_) rfl (by omega) hext
      · rw [List.append_nil]
        rfl
      · rw [hlength]

end EmbeddedCfdp
