import EmbeddedCfdp.FilestoreRoundTrip
import EmbeddedCfdp.FinishedChain
import EmbeddedCfdp.Serialisers
import EmbeddedCfdp.SpanWalk

/-!
# A Finished PDU from sender to receiver

A Finished PDU carries a list of Filestore Responses as the octets the response
serialiser wrote for them, one after another, and perhaps a fault location.  The receiver
finds the same codes and the same fault location, and walking the reported span with the
response deserialiser gives back the list.
-/

namespace EmbeddedCfdp

open CMemory

variable {T : Target}

/-! ### Walking the responses -/

/-- The loop a receiver runs over the reported span: decode a response, and advance by what
    was consumed. -/
def responsesWalk (span : Option Ptr) (len : Size T) :
    (fuel : Nat) → (pos : Size T) → Except Fault (Option (Size T) × List FilestoreResponse) :=
  walkSpan (fun p n => filestoreResponseTlvDeserialize (some p) n (some default)) span len

/-- The receiver's step takes every encoded response off the front. -/
theorem exists_items_takesOff {resps : List FilestoreResponse} {encs : List (List UInt8)}
    (hencs : List.Forall₂ (FilestoreResponse.EncodedAs T) resps encs) :
    ∃ items, encs.flatten = (filestoreCodec true).chain items ∧
      List.Forall₂ (fun resp item => TakesOff (T := T) (filestoreCodec true)
        (fun p n => filestoreResponseTlvDeserialize (some p) n (some default)) item
        resp.ReceivedAs) resps items := by
  induction hencs with
  | nil => exact ⟨[], rfl, List.Forall₂.nil⟩
  | cons henc _ ih =>
    obtain ⟨items, hitems, htakes⟩ := ih
    obtain ⟨hresp, item, hitem, rfl⟩ := henc.item
    refine ⟨item :: items, by rw [List.flatten_cons, hitems, PrefixCodec.chain_cons],
      List.Forall₂.cons ?_ htakes⟩
    intro p rest len h hlen
    exact ⟨_, (filestoreResponseTlvDeserialize_decodes h hlen default).accepts
      (by rw [PrefixCodec.dec_enc]; rfl), filestoreResponse_receivedAs hresp hitem h.left⟩

/-! ### The codes -/

theorem unpack_finishedStatus_bits (a : Fin 16) (b : Fin 2) (c : Fin 4) :
    let o := ((UInt8.ofNat a &&& 0xF) <<< 4) ||| ((UInt8.ofNat b &&& 0x1) <<< 2) |||
      (UInt8.ofNat c &&& 0x3)
    (o >>> 4) &&& 0xF = UInt8.ofNat a ∧ (o >>> 2) &&& 0x1 = UInt8.ofNat b ∧
      o &&& 0x3 = UInt8.ofNat c := by
  revert a b c
  decide +kernel

/-- A Finished PDU whose codes fit their fields, with a fault location where the condition
    requires one. -/
structure FinishedPdu.InRange (fin : FinishedPdu) : Prop where
  conditionCode : fin.conditionCode ≤ 15
  deliveryCode : fin.deliveryCode ≤ 1
  fileStatus : fin.fileStatus ≤ 3
  faultLocation : CallsForFaultLocation fin.conditionCode →
    1 ≤ fin.faultLocationLen.toNat ∧ fin.faultLocationLen.toNat ≤ 8

/-- The encodings `encs`, one after another, are where the PDU says its responses are. -/
structure FinishedPdu.Carries (fin : FinishedPdu) (encs : List (List UInt8)) : Prop where
  len : fin.filestoreResponsesLen.toNat = encs.flatten.length
  span : ∀ q, fin.filestoreResponses = some q → q.Holds encs.flatten
  null : fin.filestoreResponses = none → encs.flatten = []

theorem unpack_finishedStatus {fin : FinishedPdu} (h : fin.InRange) :
    ((finishedStatus fin >>> 4) &&& 0xF).toUInt32 = fin.conditionCode ∧
      ((finishedStatus fin >>> 2) &&& 0x1).toUInt32 = fin.deliveryCode ∧
      (finishedStatus fin &&& 0x3).toUInt32 = fin.fileStatus := by
  obtain ⟨a, ha, ha'⟩ := BitFields.exists_octet (k := 16) (by norm_num)
    (Nat.lt_succ_of_le (UInt32.le_iff_toNat_le.mp h.conditionCode))
  obtain ⟨b, hb, hb'⟩ := BitFields.exists_octet (k := 2) (by norm_num)
    (Nat.lt_succ_of_le (UInt32.le_iff_toNat_le.mp h.deliveryCode))
  obtain ⟨c, hc, hc'⟩ := BitFields.exists_octet (k := 4) (by norm_num)
    (Nat.lt_succ_of_le (UInt32.le_iff_toNat_le.mp h.fileStatus))
  obtain ⟨hcondition, hdelivery, hstatus⟩ := unpack_finishedStatus_bits a b c
  rw [finishedStatus, ha, hb, hc, hcondition, hdelivery, hstatus]
  exact ⟨ha', hb', hc'⟩

section Encoding

variable {fin : FinishedPdu} {encs : List (List UInt8)}

theorem FinishedPdu.Carries.readable (h : fin.Carries encs) :
    Readable fin.filestoreResponses fin.filestoreResponsesLen.toNat := by
  intro q hq
  rw [h.len]
  exact (h.span q hq).length_le

theorem FinishedPdu.Carries.octets (h : fin.Carries encs) :
    octetsAt fin.filestoreResponses fin.filestoreResponsesLen.toNat = encs.flatten := by
  rw [h.len]
  cases hspan : fin.filestoreResponses with
  | none => rw [h.null hspan, octetsAt_none]
  | some q => exact (h.span q hspan).octetsAt

/-- The octets sent for a PDU, with the fault location as a chain of one TLV or none. -/
theorem finishedEncoding_eq (h : fin.InRange) (hcarries : fin.Carries encs) :
    ∃ ids : List EntityId, finishedEncoding fin =
        some (CFDP_DIRECTIVE_FINISHED.toUInt8 :: finishedStatus fin ::
          (encs.flatten ++ entityIdCodec.chain ids)) ∧
      (CallsForFaultLocation fin.conditionCode → ∃ id : EntityId, ids = [id] ∧
        id.octets =
          BigEndian.encode fin.faultLocationLen.toNat fin.faultLocationEntityId.toNat) ∧
      (¬ CallsForFaultLocation fin.conditionCode → ids = []) := by
  have hgiven : ¬ (fin.filestoreResponses.isNone ∧ fin.filestoreResponsesLen > 0) := by
    rintro ⟨hnull, hpos⟩
    rw [toNat_pos_iff_uint16, hcarries.len,
      hcarries.null (Option.isNone_iff_eq_none.mp hnull)] at hpos
    exact absurd hpos (by decide)
  have hencoding : finishedEncoding fin = withFaultLocation
      (faultLocationRequired fin.conditionCode = true) fin.faultLocationEntityId
        fin.faultLocationLen (finishedFixed fin) := if_neg hgiven
  rw [hencoding, finishedFixed, hcarries.octets]
  unfold withFaultLocation
  -- at most one Entity ID stands behind the responses
  by_cases hrequired : CallsForFaultLocation fin.conditionCode
  · obtain ⟨id, hid⟩ : ∃ id, entityIdOf fin.faultLocationEntityId fin.faultLocationLen = some id :=
      ⟨_, dif_pos (h.faultLocation hrequired)⟩
    refine ⟨[id], ?_, fun _ => ⟨id, rfl, (entityIdOf_eq_some hid).2⟩, fun hnot => ?_⟩
    · rw [if_pos (faultLocationRequired_iff.mpr hrequired), hid, Option.map_some,
        PrefixCodec.chain_cons, PrefixCodec.chain_nil, List.append_nil]
      rfl
    · exact (hnot hrequired).elim
  · refine ⟨[], ?_, fun hyes => (hrequired hyes).elim, fun _ => rfl⟩
    rw [if_neg (mt faultLocationRequired_iff.mp hrequired), PrefixCodec.chain_nil, List.append_nil]

end Encoding

/-- What the decoder finds in such a PDU. -/
theorem finishedDecode_pdu (status : UInt8) (items : List (FilestoreItem true))
    (ids : List EntityId) :
    finishedDecode (CFDP_DIRECTIVE_FINISHED.toUInt8 :: status ::
        ((filestoreCodec true).chain items ++ entityIdCodec.chain ids)) =
      some ⟨((filestoreCodec true).chain items ++ entityIdCodec.chain ids).length,
        ((filestoreCodec true).chain items).length, ids.getLast?⟩ := by
  have hchain : (filestoreCodec true).chain items = tlvCodec.chain (items.map FilestoreItem.tlv) :=
    tlvCodec.chain_refine items
  refine finishedDecode_eq_some.mpr ⟨?_, rfl, items.map FilestoreItem.tlv, ids, ?_, ?_, ?_⟩
  · rw [List.length_cons, List.length_cons]
    omega
  · intro t ht
    obtain ⟨item, _, rfl⟩ := List.mem_map.mp ht
    rfl
  · rw [hchain]
    rfl
  · rw [hchain]
    rfl

/-- **Main result.** A Finished PDU with codes in range that carries a list of encoded
    responses is sent whole given the capacity.  The receiver gets back its codes, its
    fault location (modulo its field width), and a span of the same length on which the
    walk decodes the list in order, up to its end. -/
theorem finished_exchange {fin : FinishedPdu} {resps : List FilestoreResponse}
    {encs : List (List UInt8)} (h : fin.InRange)
    (hencs : List.Forall₂ (FilestoreResponse.EncodedAs T) resps encs)
    (hcarries : fin.Carries encs) :
    ∃ pdu : List UInt8, 2 ≤ pdu.length ∧
      (∀ (i : Nat) (cap : Size T) (m : Object), i + cap.toNat ≤ m.extent →
        pdu.length ≤ cap.toNat →
        finishedSerialize (some fin) (some i) cap m = .ok (sz pdu.length, m.place i pdu)) ∧
      ∀ (p : Ptr) (len : Size T) (old : FinishedPdu), p.Holds pdu → pdu.length = len.toNat →
        ∃ fin' resps', finishedDeserialize (some p) len (some old) = .ok (len, some fin') ∧
          fin'.conditionCode = fin.conditionCode ∧ fin'.deliveryCode = fin.deliveryCode ∧
          fin'.fileStatus = fin.fileStatus ∧
          fin'.filestoreResponsesLen.toNat = encs.flatten.length ∧
          responsesWalk fin'.filestoreResponses (sz encs.flatten.length : Size T)
            (encs.flatten.length + 1) (sz 0) = .ok (some (sz encs.flatten.length), resps') ∧
          List.Forall₂ FilestoreResponse.ReceivedAs resps resps' ∧
          (CallsForFaultLocation fin.conditionCode →
            fin'.faultLocationEntityId.toNat =
              fin.faultLocationEntityId.toNat % 256 ^ fin.faultLocationLen.toNat ∧
            fin'.faultLocationLen = fin.faultLocationLen) ∧
          (¬ CallsForFaultLocation fin.conditionCode →
            fin'.faultLocationEntityId = 0 ∧ fin'.faultLocationLen = 0) := by
  obtain ⟨ids, hencoding, hone, hnone⟩ := finishedEncoding_eq h hcarries
  obtain ⟨items, hitems, htakes⟩ := exists_items_takesOff hencs
  have hshort := fin.filestoreResponsesLen.toNat_lt
  have htotal := hcarries.len
  have hlength : encs.flatten.length = ((filestoreCodec true).chain items).length := by
    rw [hitems]
  refine ⟨CFDP_DIRECTIVE_FINISHED.toUInt8 :: finishedStatus fin ::
    (encs.flatten ++ entityIdCodec.chain ids), ?_, ?_, ?_⟩
  · rw [List.length_cons, List.length_cons]
    omega
  · intro i cap m hext hle
    have hlt := cap.isLt
    -- the responses fit the buffer, hence no sum in the serialiser wraps
    have hfits : fin.filestoreResponsesLen.toNat + 2 < 2 ^ T.sizeBits := by
      rw [List.length_cons, List.length_cons, List.length_append] at hle
      omega
    have hencodes := finishedSerialize_encodes hfits hcarries.readable
    rw [hencoding] at hencodes
    exact hencodes.writes hext hle
  · intro p len old hp hlen
    have hdec := finishedDecode_pdu (finishedStatus fin) items ids
    rw [← hitems] at hdec
    have hrun := (finishedDeserialize_decodes hp hlen old).accepts
      (by rw [hdec, Option.map_some])
    have hspan : (p.add 2).Holds ((filestoreCodec true).chain items) := by
      have htail := hp.tail.tail.left
      rwa [Ptr.add_add, hitems] at htail
    obtain ⟨hcondition, hdelivery, hstatus⟩ := unpack_finishedStatus h
    have hlen16 : (UInt16.ofNat encs.flatten.length).toNat = encs.flatten.length := by
      rw [UInt16.toNat_ofNat', Nat.mod_eq_of_lt (by omega)]
    rw [hlen, sz_toNat] at hrun
    -- without responses the receiver reports no pointer to them
    have hwhere : (filestoreCodec true).chain items = [] ∨
        ∃ q, (if encs.flatten.length = 0 then none else some (p.add 2)) = some q ∧
          q.Holds ((filestoreCodec true).chain items) := by
      by_cases hnil : encs.flatten.length = 0
      · exact Or.inl (List.eq_nil_of_length_eq_zero (hlength ▸ hnil))
      · exact Or.inr ⟨p.add 2, if_neg hnil, hspan⟩
    have hlen' : ((filestoreCodec true).chain items).length =
        (sz encs.flatten.length : Size T).toNat := by
      rw [toNat_sz_small (by omega), hlength]
    obtain ⟨resps', hwalk, hreceived⟩ :=
      walkSpan_chain htakes hwhere hlen' (Nat.lt_succ_of_le (Nat.le_of_eq hlength.symm))
    refine ⟨_, resps', hrun, hcondition, hdelivery, hstatus, hlen16, hwalk, hreceived,
      fun hrequired => ?_, fun hrequired => ?_⟩
    -- the fault location is found in the width it was sent in, reduced to it
    · obtain ⟨id, rfl, hoctets⟩ := hone hrequired
      have hwidth : id.octets.length = fin.faultLocationLen.toNat := by
        rw [hoctets, BigEndian.length_encode]
      constructor
      · change (UInt64.ofNat (BigEndian.decode id.octets)).toNat = _
        rw [toNat_ofNat_decode id.max, hoctets, BigEndian.decode_encode]
      · change UInt8.ofNat id.octets.length = _
        rw [hwidth, UInt8.ofNat_toNat]
    · rw [hnone hrequired]
      exact ⟨rfl, rfl⟩

/-- The octets of `sampleResponse`. -/
def sampleResponseOctets : List UInt8 := [0x01, 6, 0x00, 1, 0x66, 2, 0x6F, 0x6B]

/-- A response to a file that was renamed, and its octets. -/
def sampleRenamed : FilestoreResponse :=
  { actionCode := CFDP_FS_ACTION_RENAME_FILE, statusCode := 0,
    firstFilename := some ⟨Object.full [0x61], 0⟩, firstFilenameLen := 1,
    secondFilename := some ⟨Object.full [0x62, 0x63], 0⟩, secondFilenameLen := 2,
    message := none, messageLen := 0 }

def sampleRenamedOctets : List UInt8 := [0x01, 7, 0x20, 1, 0x61, 2, 0x62, 0x63, 0]

/-- A transfer rejected by the filestore, with two responses. -/
def sampleRejection : FinishedPdu :=
  { conditionCode := 4, deliveryCode := 1, fileStatus := 1,
    filestoreResponses := some ⟨Object.full (sampleResponseOctets ++ sampleRenamedOctets), 0⟩,
    filestoreResponsesLen := 17, faultLocationEntityId := 0x1234, faultLocationLen := 1 }

theorem finished_exchange_sample :
    ∃ pdu : List UInt8, ∀ (p : Ptr) (len : Size .checked32) (old : FinishedPdu), p.Holds pdu →
      pdu.length = len.toNat →
      ∃ fin' resps', finishedDeserialize (some p) len (some old) = .ok (len, some fin') ∧
        responsesWalk fin'.filestoreResponses (sz 17 : Size .checked32) 18 (sz 0) =
          .ok (some (sz 17), resps') ∧
        List.Forall₂ FilestoreResponse.ReceivedAs [sampleResponse, sampleRenamed] resps' ∧
        fin'.faultLocationEntityId.toNat = 0x34 := by
  have hsourced : sampleResponse.Sourced := by
    refine ⟨?_, fun hsecond => ?_, ?_⟩
    · rintro q ⟨⟩
      decide
    · exact absurd hsecond (by decide)
    · rintro q ⟨⟩
      decide
  have hencoded : sampleResponse.EncodedAs .checked32 sampleResponseOctets := by
    refine ⟨hsourced, 0, sz 8, sz 8, Object.full (List.replicate 8 0),
      (Object.full (List.replicate 8 0)).place 0 sampleResponseOctets, by decide, rfl, by decide,
      by decide, Object.place_holds (by decide)⟩
  have hrenamed : sampleRenamed.EncodedAs .checked32 sampleRenamedOctets := by
    refine ⟨⟨?_, fun _ => ?_, ?_⟩, 0, sz 9, sz 9, Object.full (List.replicate 9 0),
      (Object.full (List.replicate 9 0)).place 0 sampleRenamedOctets, by decide, rfl, by decide,
      by decide, Object.place_holds (by decide)⟩
    · rintro q ⟨⟩
      decide
    · rintro q ⟨⟩
      decide
    · rintro q ⟨⟩
  have hrange : sampleRejection.InRange := by
    constructor <;> decide
  have hcarries : sampleRejection.Carries [sampleResponseOctets, sampleRenamedOctets] := by
    refine ⟨rfl, ?_, fun hnull => nomatch hnull⟩
    rintro q ⟨⟩
    exact Object.holds_whole _
  obtain ⟨pdu, _, _, hreceive⟩ :=
    finished_exchange hrange (.cons hencoded (.cons hrenamed .nil)) hcarries
  refine ⟨pdu, fun p len old hp hlen => ?_⟩
  obtain ⟨fin', resps', hrun, _, _, _, _, hwalk, hsame, hfault, _⟩ := hreceive p len old hp hlen
  exact ⟨fin', resps', hrun, hwalk, hsame, (hfault (by decide)).1⟩

end EmbeddedCfdp
