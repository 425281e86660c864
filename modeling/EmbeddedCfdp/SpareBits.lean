import EmbeddedCfdp.PduExchange

/-!
# Spare bits

"Reserved and spare bits are not checked on decode; a PDU with them set decodes as if they
were clear" (`README.md`, Limitations).  Four of the directives have an octet with spare bits
and Finished has one such bit; no serialiser sets any of them.
-/

namespace EmbeddedCfdp

open CMemory

variable {T : Target} {N : NakCapacity T}

/-! ### Where they are -/

/-- The octet of a directive that has spare bits, and those of its bits that are in use. -/
def Directive.inUse : Directive → Nat × UInt8
  | .eof => (1, 0xF0)
  | .finished => (1, 0xF7)
  | .ack => (2, 0xF3)
  | .metadata => (1, 0x4F)
  | .nak => (1, 0xFF)
  | .prompt => (1, 0x80)
  | .keepAlive => (1, 0xFF)

def Directive.clearSpare (d : Directive) (xs : List UInt8) : List UInt8 :=
  xs.set d.inUse.1 (xs.getD d.inUse.1 0 &&& d.inUse.2)

section Clear

variable {xs : List UInt8} {i j n : Nat} {v : UInt8}

theorem getD_set_ne (h : j ≠ i) : (xs.set i v).getD j 0 = xs.getD j 0 := by
  rw [List.getD_eq_getElem?_getD, List.getElem?_set_ne h.symm, List.getD_eq_getElem?_getD]

/-- Outside the list the masked octet is 0 in any case. -/
theorem getD_set_and (mask : UInt8) :
    (xs.set i (xs.getD i 0 &&& mask)).getD i 0 = xs.getD i 0 &&& mask := by
  rw [List.getD_eq_getElem?_getD]
  by_cases hi : i < xs.length
  · rw [List.getElem?_set_self hi, Option.getD_some]
  · rw [List.getElem?_eq_none (by rw [List.length_set]; omega), Option.getD_none,
      List.getD_eq_getElem?_getD, List.getElem?_eq_none (by omega), Option.getD_none,
      UInt8.zero_and]

theorem uintAt_set (h : i < j) : uintAt (xs.set i v) j n = uintAt xs j n := by
  rw [uintAt, slice, List.drop_set_of_lt h, uintAt, slice]

theorem set_getD_self : xs.set i (xs.getD i 0) = xs := by
  by_cases hi : i < xs.length
  · rw [List.getD_eq_getElem?_getD, List.getElem?_eq_getElem hi, Option.getD_some,
      List.set_getElem_self]
  · exact List.set_eq_of_length_le (by omega)

@[simp] theorem Directive.length_clearSpare (d : Directive) (xs : List UInt8) :
    (d.clearSpare xs).length = xs.length := List.length_set

/-- The directive code has no spare bits. -/
@[simp] theorem Directive.head_clearSpare (d : Directive) (xs : List UInt8) :
    (d.clearSpare xs).getD 0 0 = xs.getD 0 0 := by
  apply getD_set_ne
  cases d <;> decide

theorem Directive.getD_clearSpare (d : Directive) (xs : List UInt8) :
    (d.clearSpare xs).getD d.inUse.1 0 = xs.getD d.inUse.1 0 &&& d.inUse.2 :=
  getD_set_and _

theorem Directive.drop_clearSpare (d : Directive) (xs : List UInt8) (h : d.inUse.1 < n) :
    (d.clearSpare xs).drop n = xs.drop n := List.drop_set_of_lt h

/-- Octets are as they are when cleared where their spare bits are clear. -/
theorem Directive.clearSpare_eq_self {d : Directive}
    (h : xs.getD d.inUse.1 0 &&& d.inUse.2 = xs.getD d.inUse.1 0) : d.clearSpare xs = xs := by
  rw [clearSpare, h, set_getD_self]

end Clear

/-! ### Decoding -/

theorem finishedStatus_cleared (o : UInt8) :
    ((o &&& (0xF7 : UInt8)) >>> 4) &&& (0xF : UInt8) = (o >>> 4) &&& 0xF ∧
      ((o &&& (0xF7 : UInt8)) >>> 2) &&& (0x1 : UInt8) = (o >>> 2) &&& 0x1 ∧
      (o &&& (0xF7 : UInt8)) &&& (0x3 : UInt8) = o &&& 0x3 := by
  refine BitFields.forall_octet (P := fun o =>
    ((o &&& (0xF7 : UInt8)) >>> 4) &&& (0xF : UInt8) = (o >>> 4) &&& 0xF ∧
      ((o &&& (0xF7 : UInt8)) >>> 2) &&& (0x1 : UInt8) = (o >>> 2) &&& 0x1 ∧
      (o &&& (0xF7 : UInt8)) &&& (0x3 : UInt8) = o &&& 0x3) ?_ o
  decide +kernel

theorem ackStatus_cleared (o : UInt8) :
    ((o &&& (0xF3 : UInt8)) >>> 4) &&& (0xF : UInt8) = (o >>> 4) &&& 0xF ∧
      (o &&& (0xF3 : UInt8)) &&& (0x3 : UInt8) = o &&& 0x3 := by
  refine BitFields.forall_octet (P := fun o =>
    ((o &&& (0xF3 : UInt8)) >>> 4) &&& (0xF : UInt8) = (o >>> 4) &&& 0xF ∧
      (o &&& (0xF3 : UInt8)) &&& (0x3 : UInt8) = o &&& 0x3) ?_ o
  decide +kernel

theorem metadataFlags_cleared (o : UInt8) :
    ((o &&& (0x4F : UInt8)) >>> 6) &&& (0x1 : UInt8) = (o >>> 6) &&& 0x1 ∧
      (o &&& (0x4F : UInt8)) &&& (0xF : UInt8) = o &&& 0xF := by
  refine BitFields.forall_octet (P := fun o =>
    ((o &&& (0x4F : UInt8)) >>> 6) &&& (0x1 : UInt8) = (o >>> 6) &&& 0x1 ∧
      (o &&& (0x4F : UInt8)) &&& (0xF : UInt8) = o &&& 0xF) ?_ o
  decide +kernel

theorem promptBit_cleared (o : UInt8) :
    ((o &&& (0x80 : UInt8)) >>> 7) &&& (0x1 : UInt8) = (o >>> 7) &&& 0x1 := by
  refine BitFields.forall_octet
    (P := fun o => ((o &&& (0x80 : UInt8)) >>> 7) &&& (0x1 : UInt8) = (o >>> 7) &&& 0x1) ?_ o
  decide +kernel

section Decode

variable {xs : List UInt8} {largeFileFlag : LargeFileFlag}

theorem eofDecode_clearSpare :
    eofDecode (Directive.eof.clearSpare xs) largeFileFlag = eofDecode xs largeFileFlag := by
  have hfields : eofFields (Directive.eof.clearSpare xs) largeFileFlag =
      eofFields xs largeFileFlag := by
    have hoctet := Directive.eof.getD_clearSpare xs
    unfold eofFields
    rw [show (Directive.eof.clearSpare xs).getD 1 0 = xs.getD 1 0 &&& 0xF0 from hoctet,
      BitFields.high_of_cleared, Directive.clearSpare, uintAt_set (by decide),
      uintAt_set (by decide)]
  have hdrop : (Directive.eof.clearSpare xs).drop ((fileSizeOctets largeFileFlag).toNat + 6) =
      xs.drop ((fileSizeOctets largeFileFlag).toNat + 6) :=
    Directive.eof.drop_clearSpare xs (by change 1 < _; omega)
  unfold eofDecode
  dsimp only
  rw [hfields, hdrop, Directive.length_clearSpare, Directive.head_clearSpare]

theorem finishedDecode_clearSpare :
    finishedDecode (Directive.finished.clearSpare xs) = finishedDecode xs := by
  have hdrop : (Directive.finished.clearSpare xs).drop 2 = xs.drop 2 :=
    Directive.finished.drop_clearSpare xs (by decide)
  unfold finishedDecode
  rw [hdrop, Directive.length_clearSpare, Directive.head_clearSpare]

theorem FinishedScan.view_cleared (s : FinishedScan) (p : Ptr) (o : UInt8) :
    s.view p (o &&& 0xF7) = s.view p o := by
  obtain ⟨hcondition, hdelivery, hstatus⟩ := finishedStatus_cleared o
  unfold FinishedScan.view
  rw [hcondition, hdelivery, hstatus]

theorem ackDecode_clearSpare : ackDecode (Directive.ack.clearSpare xs) = ackDecode xs := by
  have hsecond : (Directive.ack.clearSpare xs).getD 1 0 = xs.getD 1 0 := getD_set_ne (by decide)
  have hthird : (Directive.ack.clearSpare xs).getD 2 0 = xs.getD 2 0 &&& 0xF3 :=
    Directive.ack.getD_clearSpare xs
  obtain ⟨hcondition, hstatus⟩ := ackStatus_cleared (xs.getD 2 0)
  unfold ackDecode ackedDirective
  rw [hsecond, hthird, hcondition, hstatus, Directive.length_clearSpare,
    Directive.head_clearSpare]

theorem metadataDecode_clearSpare :
    metadataDecode (Directive.metadata.clearSpare xs) largeFileFlag =
      metadataDecode xs largeFileFlag := by
  have hdrop : (Directive.metadata.clearSpare xs).drop ((fileSizeOctets largeFileFlag).toNat + 2) =
      xs.drop ((fileSizeOctets largeFileFlag).toNat + 2) :=
    Directive.metadata.drop_clearSpare xs (by change 1 < _; omega)
  unfold metadataDecode
  dsimp only
  rw [hdrop, Directive.length_clearSpare, Directive.head_clearSpare]

theorem MetadataFields.view_clearSpare (f : MetadataFields) (p : Ptr) :
    f.view p (Directive.metadata.clearSpare xs) largeFileFlag = f.view p xs largeFileFlag := by
  have hflags : (Directive.metadata.clearSpare xs).getD 1 0 = xs.getD 1 0 &&& 0x4F :=
    Directive.metadata.getD_clearSpare xs
  have hsize : uintAt (Directive.metadata.clearSpare xs) 2 (fileSizeOctets largeFileFlag).toNat =
      uintAt xs 2 (fileSizeOctets largeFileFlag).toNat := uintAt_set (by decide)
  obtain ⟨hclosure, htype⟩ := metadataFlags_cleared (xs.getD 1 0)
  unfold MetadataFields.view
  rw [hflags, hsize, hclosure, htype]

theorem promptDecode_clearSpare :
    promptDecode (Directive.prompt.clearSpare xs) = promptDecode xs := by
  have hoctet : (Directive.prompt.clearSpare xs).getD 1 0 = xs.getD 1 0 &&& 0x80 :=
    Directive.prompt.getD_clearSpare xs
  unfold promptDecode
  rw [hoctet, promptBit_cleared, Directive.length_clearSpare, Directive.head_clearSpare]

/-- No decoder looks at a spare bit. -/
theorem Directive.decode_clearSpare (d : Directive) (p : Ptr) (xs : List UInt8) :
    d.decode N p (d.clearSpare xs) largeFileFlag = d.decode N p xs largeFileFlag := by
  cases d with
  | eof => rw [decode, eofDecode_clearSpare, decode]
  | finished =>
    have hoctet : (Directive.finished.clearSpare xs).getD 1 0 = xs.getD 1 0 &&& 0xF7 :=
      Directive.finished.getD_clearSpare xs
    simp only [decode, finishedDecode_clearSpare, hoctet, FinishedScan.view_cleared,
      length_clearSpare]
  | ack => rw [decode, ackDecode_clearSpare, decode]
  | metadata =>
    simp only [decode, metadataDecode_clearSpare, MetadataFields.view_clearSpare,
      length_clearSpare]
  | nak => rw [clearSpare_eq_self (UInt8.and_neg_one (a := xs.getD 1 0))]
  | prompt => rw [decode, promptDecode_clearSpare, decode]
  | keepAlive => rw [clearSpare_eq_self (UInt8.and_neg_one (a := xs.getD 1 0))]

end Decode

/-! ### Encoding -/

/-- The fields that are shifted and masked into an octet, under the bits it has in use. -/
theorem fields_clear (o : UInt8) :
    ((o &&& 0xF) <<< 4) &&& (0xF0 : UInt8) = (o &&& 0xF) <<< 4 ∧
      ((o &&& 0xF) <<< 4) &&& (0xF3 : UInt8) = (o &&& 0xF) <<< 4 ∧
      ((o &&& 0xF) <<< 4) &&& (0xF7 : UInt8) = (o &&& 0xF) <<< 4 ∧
      ((o &&& 0x1) <<< 2) &&& (0xF7 : UInt8) = (o &&& 0x1) <<< 2 ∧
      ((o &&& 0x1) <<< 7) &&& (0x80 : UInt8) = (o &&& 0x1) <<< 7 ∧
      (o &&& 0x3) &&& (0xF3 : UInt8) = o &&& 0x3 ∧
      (o &&& 0x3) &&& (0xF7 : UInt8) = o &&& 0x3 ∧
      (o &&& 0xF) &&& (0x4F : UInt8) = o &&& 0xF := by
  refine BitFields.forall_octet (P := fun o =>
    ((o &&& 0xF) <<< 4) &&& (0xF0 : UInt8) = (o &&& 0xF) <<< 4 ∧
      ((o &&& 0xF) <<< 4) &&& (0xF3 : UInt8) = (o &&& 0xF) <<< 4 ∧
      ((o &&& 0xF) <<< 4) &&& (0xF7 : UInt8) = (o &&& 0xF) <<< 4 ∧
      ((o &&& 0x1) <<< 2) &&& (0xF7 : UInt8) = (o &&& 0x1) <<< 2 ∧
      ((o &&& 0x1) <<< 7) &&& (0x80 : UInt8) = (o &&& 0x1) <<< 7 ∧
      (o &&& 0x3) &&& (0xF3 : UInt8) = o &&& 0x3 ∧
      (o &&& 0x3) &&& (0xF7 : UInt8) = o &&& 0x3 ∧
      (o &&& 0xF) &&& (0x4F : UInt8) = o &&& 0xF) ?_ o
  decide +kernel

theorem finishedStatus_clear (fin : FinishedPdu) :
    finishedStatus fin &&& 0xF7 = finishedStatus fin := by
  obtain ⟨_, _, hcondition, _⟩ := fields_clear fin.conditionCode.toUInt8
  obtain ⟨_, _, _, hdelivery, _⟩ := fields_clear fin.deliveryCode.toUInt8
  obtain ⟨_, _, _, _, _, _, hstatus, _⟩ := fields_clear fin.fileStatus.toUInt8
  exact BitFields.and_or_of_masked (BitFields.and_or_of_masked hcondition hdelivery) hstatus

theorem ackStatus_clear (ack : AckPdu) :
    (ackOctets ack).getD 2 0 &&& 0xF3 = (ackOctets ack).getD 2 0 := by
  obtain ⟨_, hcondition, _⟩ := fields_clear ack.conditionCode.toUInt8
  obtain ⟨_, _, _, _, _, hstatus, _⟩ := fields_clear ack.transactionStatus.toUInt8
  exact BitFields.and_or_of_masked hcondition hstatus

theorem metadataFlags_clear (md : MetadataPdu) :
    metadataFlags md &&& 0x4F = metadataFlags md := by
  obtain ⟨_, _, _, _, _, _, _, htype⟩ := fields_clear md.checksumType.toUInt8
  apply BitFields.and_or_of_masked _ htype
  cases md.closureRequested <;> decide

/-- No serialiser sets a spare bit. -/
theorem DataField.clearSpare_encoding {hdr : PduHeader} {x : DataField N} {d : Directive}
    {e : List UInt8} (hd : x.directive = some d) (he : (x.serialiser hdr).encoding = some e) :
    d.clearSpare e = e := by
  apply Directive.clearSpare_eq_self
  -- the second octet is packed from the fields alone; NAK and Keep Alive have no spare bits
  cases x with
  | fileData fd => cases hd
  | eof pdu =>
    cases hd
    have hoctet : e.getD 1 0 = (pdu.conditionCode.toUInt8 &&& 0xF) <<< 4 :=
      getD_withFaultLocation he (Nat.succ_lt_succ (Nat.succ_pos _))
    change e.getD 1 0 &&& 0xF0 = e.getD 1 0
    rw [hoctet, (fields_clear _).1]
  | finished fin =>
    cases hd
    obtain ⟨_, he⟩ := Option.ite_none_left_eq_some.mp he
    have hoctet : e.getD 1 0 = finishedStatus fin :=
      getD_withFaultLocation he (Nat.succ_lt_succ (Nat.succ_pos _))
    change e.getD 1 0 &&& 0xF7 = e.getD 1 0
    rw [hoctet, finishedStatus_clear]
  | ack pdu =>
    cases hd
    obtain ⟨_, he⟩ := Option.ite_none_right_eq_some.mp he
    rw [← Option.some.inj he]
    exact ackStatus_clear pdu
  | metadata md =>
    cases hd
    obtain ⟨_, he⟩ := Option.ite_none_left_eq_some.mp he
    obtain ⟨source, destination, _, _, rfl⟩ := withNames_eq_some he
    exact metadataFlags_clear md
  | nak pdu =>
    cases hd
    exact UInt8.and_neg_one
  | prompt response =>
    cases hd
    rw [← Option.some.inj he]
    exact (fields_clear response.toUInt8).2.2.2.2.1
  | keepAlive progress =>
    cases hd
    exact UInt8.and_neg_one

/-! ### Receiving -/

/-- What `p` and `q` have at the same place behind them. -/
def Ptr.moved (p q r : Ptr) : Ptr := q.add (r.off - p.off)

/-- The same data field with its pointers at the same places behind `q` as behind `p`. -/
def DataField.moved (p q : Ptr) : DataField N → DataField N
  | .fileData fd => .fileData { fd with
      fileData := fd.fileData.map (Ptr.moved p q)
      segmentMetadata := fd.segmentMetadata.map (Ptr.moved p q) }
  | .finished fin => .finished { fin with
      filestoreResponses := fin.filestoreResponses.map (Ptr.moved p q) }
  | .metadata md => .metadata { md with
      sourceFilename := md.sourceFilename.map (Ptr.moved p q)
      destinationFilename := md.destinationFilename.map (Ptr.moved p q)
      options := md.options.map (Ptr.moved p q) }
  | .eof pdu => .eof pdu
  | .ack pdu => .ack pdu
  | .nak pdu => .nak pdu
  | .prompt response => .prompt response
  | .keepAlive progress => .keepAlive progress

section Moved

variable {p q : Ptr} {xs : List UInt8}

theorem Ptr.moved_add (p q : Ptr) (i : Nat) : Ptr.moved p q (p.add i) = q.add i := by
  have hoff : (p.add i).off - p.off = i := Nat.add_sub_cancel_left p.off i
  rw [Ptr.moved, hoff]

theorem spanAt_moved (p q : Ptr) (i k : Nat) (xs : List UInt8) :
    (spanAt (p.add i) k xs).map (Ptr.moved p q) = spanAt (q.add i) k xs := by
  unfold spanAt
  by_cases hnil : xs = []
  · rw [if_pos hnil, if_pos hnil, Option.map_none]
  · rw [if_neg hnil, if_neg hnil, Option.map_some, Ptr.add_add, Ptr.moved_add, Ptr.add_add]

theorem FinishedScan.view_moved (s : FinishedScan) (p q : Ptr) (i : Nat) (octet : UInt8) :
    (DataField.finished (s.view (p.add i) octet) : DataField N).moved p q =
      .finished (s.view (q.add i) octet) := by
  have hspan : (if s.responses = 0 then none else some ((p.add i).add 2)).map (Ptr.moved p q) =
      if s.responses = 0 then none else some ((q.add i).add 2) := by
    by_cases hnone : s.responses = 0
    · rw [if_pos hnone, if_pos hnone, Option.map_none]
    · rw [if_neg hnone, if_neg hnone, Option.map_some, Ptr.add_add, Ptr.moved_add, Ptr.add_add]
  unfold DataField.moved FinishedScan.view
  dsimp only
  rw [hspan]

theorem MetadataFields.view_moved (f : MetadataFields) (p q : Ptr) (i : Nat) (xs : List UInt8)
    (largeFileFlag : LargeFileFlag) :
    (DataField.metadata (f.view (p.add i) xs largeFileFlag) : DataField N).moved p q =
      .metadata (f.view (q.add i) xs largeFileFlag) := by
  unfold DataField.moved MetadataFields.view Lv.field
  dsimp only
  rw [spanAt_moved, spanAt_moved, spanAt_moved]

/-- The decoder depends on the place of its octets through the pointers it reports. -/
theorem Directive.decode_moved (d : Directive) (p q : Ptr) (i : Nat) (xs : List UInt8)
    (largeFileFlag : LargeFileFlag) :
    (d.decode N (p.add i) xs largeFileFlag).map (fun r => (r.1, r.2.moved p q)) =
      d.decode N (q.add i) xs largeFileFlag := by
  cases d with
  | finished =>
    rw [decode, Option.map_map, decode]
    congr 1
    funext s
    exact congrArg (Prod.mk xs.length) (s.view_moved p q i (xs.getD 1 0))
  | metadata =>
    rw [decode, Option.map_map, decode]
    congr 1
    funext f
    exact congrArg (Prod.mk xs.length) (f.view_moved p q i xs largeFileFlag)
  | eof => rw [decode, Option.map_map, decode]; rfl
  | ack => rw [decode, Option.map_map, decode]; rfl
  | nak => rw [decode, Option.map_map, decode]; rfl
  | prompt => rw [decode, Option.map_map, decode]; rfl
  | keepAlive => rw [decode, Option.map_map, decode]; rfl

end Moved

/-- **Main result.** Two PDUs with the same header whose directives differ in nothing but
    spare bits are received alike: both are refused, or both are delivered with the same
    fields, the pointers at the same places of the two buffers.  What the serialisers write
    has no spare bit set. -/
theorem spare_bits (h32 : 32 ≤ T.sizeBits) {hdr : PduHeader} (h : hdr.InRange) :
    (∀ (d : Directive) (payload payload' z z' : List UInt8) (p q : Ptr) (len len' : Size T),
      hdr.pduType = CFDP_PDU_TYPE_DIRECTIVE → payload.getD 0 0 = d.code.toUInt8 →
      SizedFor hdr payload → d.clearSpare payload = d.clearSpare payload' →
      p.Holds (pduOctets hdr payload ++ z) → (pduOctets hdr payload ++ z).length = len.toNat →
      q.Holds (pduOctets hdr payload' ++ z') →
      (pduOctets hdr payload' ++ z').length = len'.toNat →
      ∃ r : Option (PduHeader × DataField N), receivePdu N (some p) len = .ok r ∧
        receivePdu N (some q) len' = .ok (r.map fun r => (r.1, r.2.moved p q))) ∧
    (∀ (x : DataField N) (d : Directive) (i : Nat) (len n : Size T) (m m' : Object),
      x.directive = some d → (x.serialiser hdr).Sourced → i + len.toNat ≤ m.extent →
      (x.serialiser hdr).run (some i) len m = .ok (n, m') → n ≠ sz 0 →
      d.clearSpare (octetsAt (some ⟨m', i⟩) n.toNat) = octetsAt (some ⟨m', i⟩) n.toNat) := by
  constructor
  · intro d payload payload' z z' p q len len' htype hcode hsized hspare hp hlen hq hlen'
    have hlength : payload.length = payload'.length := by
      rw [← d.length_clearSpare payload, hspare, d.length_clearSpare]
    -- the directive code has no spare bits, so both payloads are the same directive
    have hcode' : payload'.getD 0 0 = d.code.toUInt8 := by
      rw [← d.head_clearSpare, ← hspare, d.head_clearSpare, hcode]
    have hsized' : SizedFor hdr payload' := by
      unfold SizedFor
      rwa [← hlength]
    have hreceived : hdr.received.pduType = CFDP_PDU_TYPE_DIRECTIVE := htype
    obtain ⟨_, hfirst⟩ := receivePdu_pduOctets (N := N) h32 h hsized hp hlen
    obtain ⟨_, hsecond⟩ := receivePdu_pduOctets (N := N) h32 h hsized' hq hlen'
    rw [DataField.decode_of_code hreceived hcode] at hfirst
    rw [DataField.decode_of_code hreceived hcode', ← d.decode_clearSpare, ← hspare,
      d.decode_clearSpare, ← d.decode_moved p q, Option.map_map] at hsecond
    refine ⟨_, hfirst, ?_⟩
    rw [hsecond, Option.map_map]
    rfl
  · intro x d i len n m m' hd hsourced hext hrun hn
    obtain ⟨e, he, hle, hsize, rfl⟩ :=
      ((x.serialiser hdr).encodes h32 hsourced).of_run hext hrun hn
    have hlength : e.length = n.toNat := by
      rw [hsize, toNat_sz (Nat.lt_of_le_of_lt hle len.isLt)]
    have hholds : (Ptr.mk (m.place i e) i).Holds e := Object.place_holds (by omega)
    rw [← hlength, hholds.octetsAt]
    exact x.clearSpare_encoding hd he

/-- A directive with a CRC and a payload of two octets. -/
def samplePromptHeader : PduHeader := { sampleCrcHeader with dataFieldLength := 4 }

theorem samplePromptHeader_inRange : samplePromptHeader.InRange := by
  constructor <;> decide

/-- A Prompt with its seven spare bits set. -/
theorem spare_bits_sample :
    let pdu := pduOctets samplePromptHeader [0x09, 0x80]
    let pdu' := pduOctets samplePromptHeader [0x09, 0xFF]
    ∃ r : Option (PduHeader × DataField defaultNakCapacity),
      receivePdu defaultNakCapacity (some ⟨Object.full pdu, 0⟩) (sz 11 : Size .checked32) =
        .ok r ∧
      receivePdu defaultNakCapacity (some ⟨Object.full pdu', 0⟩) (sz 11 : Size .checked32) =
        .ok (r.map fun r =>
          (r.1, r.2.moved ⟨Object.full pdu, 0⟩ ⟨Object.full pdu', 0⟩)) := by
  intro pdu pdu'
  have hp := Object.holds_whole (pdu ++ [])
  have hq := Object.holds_whole (pdu' ++ [])
  rw [List.append_nil] at hp hq
  exact (@spare_bits .checked32 defaultNakCapacity (Nat.le_refl 32) _
    samplePromptHeader_inRange).1 .prompt [0x09, 0x80] [0x09, 0xFF] [] [] _ _ (sz 11) (sz 11) rfl
    rfl rfl rfl (by rwa [List.append_nil]) rfl (by rwa [List.append_nil]) rfl

end EmbeddedCfdp
