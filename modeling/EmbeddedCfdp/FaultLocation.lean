import EmbeddedCfdp.FinishedChain

/-!
# Octets of an EOF or Finished data field

How many octets the decoded contents of an EOF or a Finished PDU account for, against
how many there were.  The EOF decoder reports what it consumed and leaves the rest; the
Finished decoder consumes everything, and keeps the last of several fault locations.
-/

namespace EmbeddedCfdp

open CMemory

variable {T : Target} {p : Ptr} {xs : List UInt8} {len : Size T}

/-- The octets of a Fault Location TLV with `len` octets of identifier, if there is one. -/
def faultLocationOctets (len : UInt8) : Nat := if len = 0 then 0 else len.toNat + 2

theorem EntityId.faultLocationOctets_length (id : EntityId) :
    faultLocationOctets (UInt8.ofNat id.octets.length) = (entityIdCodec.enc id).length := by
  have hmin := id.min
  have hmax := id.max
  have hlen : (UInt8.ofNat id.octets.length).toNat = id.octets.length :=
    toNat_ofNat_of_le (by omega)
  have hne : UInt8.ofNat id.octets.length ≠ 0 := by
    intro hzero
    rw [hzero] at hlen
    change 0 = _ at hlen
    omega
  rw [faultLocationOctets, if_neg hne, hlen, EntityId.length_encode]

/-- What is consumed of an EOF data field is accounted for. -/
theorem eofDecode_spec {largeFileFlag : LargeFileFlag} {n : Nat} {eof : EofPdu}
    (h : eofDecode xs largeFileFlag = some (n, eof)) :
    n ≤ xs.length ∧
      (fileSizeOctets largeFileFlag).toNat + 6 + faultLocationOctets eof.faultLocationLen = n ∧
      (eof.faultLocationLen = 0 → n = xs.length) := by
  obtain ⟨⟨hsize, _⟩, h⟩ := Option.ite_none_right_eq_some.mp h
  -- without a fault location the file size is the last field
  by_cases hexact : xs.length = (fileSizeOctets largeFileFlag).toNat + 6
  · rw [if_pos hexact, Option.some.injEq, Prod.mk.injEq] at h
    obtain ⟨rfl, rfl⟩ := h
    exact ⟨hsize, rfl, fun _ => hexact.symm⟩
  · rw [if_neg hexact] at h
    obtain ⟨⟨id, rest⟩, hid, heq⟩ := Option.map_eq_some_iff.mp h
    have hfits := entityIdCodec.length_enc_le hid
    rw [List.length_drop] at hfits
    rw [Prod.mk.injEq] at heq
    obtain ⟨rfl, rfl⟩ := heq
    have hoctets := id.faultLocationOctets_length
    refine ⟨by dsimp only; omega, by rw [hoctets], fun hzero => ?_⟩
    have hmin := id.min
    rw [show UInt8.ofNat id.octets.length = 0 from hzero, faultLocationOctets, if_pos rfl,
      EntityId.length_encode] at hoctets
    omega

/-- How many of the TLVs are Entity ID TLVs. -/
def entityIdCount (items : List TlvItem) : Nat :=
  items.countP fun t => t.type == CFDP_TLV_ENTITY_ID.toUInt8

theorem entityIdCount_chain {responses : List TlvItem}
    (htype : ∀ t ∈ responses, t.type = CFDP_TLV_FILESTORE_RESPONSE.toUInt8)
    (ids : List EntityId) : entityIdCount (responses ++ ids.map EntityId.tlv) = ids.length := by
  have hresponses : entityIdCount responses = 0 := by
    refine List.countP_eq_zero.mpr fun t ht => ?_
    rw [htype t ht]
    decide
  have hids : entityIdCount (ids.map EntityId.tlv) = (ids.map EntityId.tlv).length := by
    refine List.countP_eq_length.mpr fun t ht => ?_
    obtain ⟨id, _, rfl⟩ := List.mem_map.mp ht
    rfl
  rw [entityIdCount, List.countP_append]
  change entityIdCount _ + entityIdCount _ = _
  rw [hresponses, hids, List.length_map, Nat.zero_add]

/-- With one fault location at most, a Finished data field is accounted for. -/
theorem finishedDecode_accounted {s : FinishedScan} (h : finishedDecode xs = some s)
    (hshort : xs.length ≤ 65535) (octet : UInt8) :
    ∃ items, xs.drop 2 = tlvCodec.chain items ∧ (entityIdCount items ≤ 1 →
      2 + (s.view p octet).filestoreResponsesLen.toNat +
        faultLocationOctets (s.view p octet).faultLocationLen = xs.length) := by
  obtain ⟨htwo, _, responses, ids, htype, hdrop, rfl⟩ := finishedDecode_eq_some.mp h
  have hlength := congrArg List.length hdrop
  rw [List.length_drop, List.length_append] at hlength
  have hlen : (UInt16.ofNat (tlvCodec.chain responses).length).toNat =
      (tlvCodec.chain responses).length := by
    rw [UInt16.toNat_ofNat', Nat.mod_eq_of_lt (by omega)]
  refine ⟨responses ++ ids.map EntityId.tlv, ?_, fun hcount => ?_⟩
  · rw [hdrop, PrefixCodec.chain_append, entityIdCodec, PrefixCodec.chain_refine]
  · rw [entityIdCount_chain htype] at hcount
    dsimp only [FinishedScan.view]
    rw [hlen]
    -- no fault location, one, or more than the count allows
    rcases ids with _ | ⟨id, _ | ⟨id', ids⟩⟩
    · change 2 + _ + 0 = _
      rw [PrefixCodec.chain_nil, List.length_nil] at hlength
      omega
    · change 2 + _ + faultLocationOctets (UInt8.ofNat id.octets.length) = _
      rw [PrefixCodec.chain_cons, PrefixCodec.chain_nil, List.append_nil] at hlength
      rw [id.faultLocationOctets_length]
      omega
    · simp at hcount

/-- **Main result.** An EOF decoder that succeeds reports as consumed exactly the octets
    of the fields it decodes, which is the whole data field unless there is a fault
    location.  A Finished decoder that succeeds has consumed the whole data field, and
    where that has one fault location at most it has decoded all of it. -/
theorem faultLocation_accounted (h : p.Holds xs) (hlen : xs.length = len.toNat) :
    (∀ (largeFileFlag : LargeFileFlag) (old eof : EofPdu) (n : Size T),
      eofDeserialize (some p) len largeFileFlag (some old) = .ok (n, some eof) → n ≠ sz 0 →
      n.toNat ≤ len.toNat ∧
        fileSizeWidth largeFileFlag + 6 + faultLocationOctets eof.faultLocationLen =
          n.toNat ∧
        (eof.faultLocationLen = 0 → n = len)) ∧
    (∀ (old fin : FinishedPdu) (n : Size T),
      finishedDeserialize (some p) len (some old) = .ok (n, some fin) → n ≠ sz 0 →
      len.toNat ≤ 65535 →
      n = len ∧ ∃ items, xs.drop 2 = tlvCodec.chain items ∧ (entityIdCount items ≤ 1 →
        2 + fin.filestoreResponsesLen.toNat + faultLocationOctets fin.faultLocationLen =
          len.toNat)) := by
  have hself : (sz len.toNat : Size T) = len := sz_toNat len
  constructor
  · intro largeFileFlag old eof n hrun hn
    obtain ⟨⟨k, eof'⟩, hdec, rfl, heq⟩ :=
      (eofDeserialize_decodes h hlen largeFileFlag old).of_run hrun hn
    rw [Option.some.injEq] at heq
    subst heq
    obtain ⟨hle, hsum, hexact⟩ := eofDecode_spec hdec
    rw [hlen] at hle hexact
    dsimp only
    rw [toNat_sz (Nat.lt_of_le_of_lt hle len.isLt), ← toNat_fileSizeOctets]
    exact ⟨hle, hsum, fun hzero => by rw [hexact hzero, hself]⟩
  · intro old fin n hrun hn hshort
    obtain ⟨s, hdec, rfl, heq⟩ := (finishedDeserialize_decodes h hlen old).of_run hrun hn
    rw [Option.some.injEq] at heq
    subst heq
    have haccounted := finishedDecode_accounted (p := p) hdec (by omega) (xs.getD 1 0)
    rw [hlen] at haccounted ⊢
    exact ⟨hself, haccounted⟩

/-- An EOF PDU and a Finished PDU with a fault location of one octet. -/
def sampleFaultyEof : List UInt8 := [0x04, 0x40, 0, 0, 0, 0, 0, 0, 0, 0, 0x06, 0x01, 0x07]

def sampleFinished : List UInt8 := [0x05, 0x40, 0x06, 0x01, 0x07]

theorem faultLocation_accounted_sample :
    (∃ eof, eofDeserialize (some ⟨Object.full sampleFaultyEof, 0⟩) (sz 13 : Size .checked32)
        CFDP_FILE_SIZE_SMALL (some default) = .ok (sz 13, some eof) ∧
      4 + 6 + faultLocationOctets eof.faultLocationLen = 13) ∧
    ∃ fin, finishedDeserialize (some ⟨Object.full sampleFinished, 0⟩) (sz 5 : Size .checked32)
        (some default) = .ok (sz 5, some fin) ∧
      ∃ items, sampleFinished.drop 2 = tlvCodec.chain items ∧ (entityIdCount items ≤ 1 →
        2 + fin.filestoreResponsesLen.toNat + faultLocationOctets fin.faultLocationLen = 5) := by
  have heof : eofDeserialize (some ⟨Object.full sampleFaultyEof, 0⟩) (sz 13 : Size .checked32)
      CFDP_FILE_SIZE_SMALL (some default) = .ok (sz 13, some
        { conditionCode := 4, fileChecksum := 0, fileSize := 0, faultLocationEntityId := 7,
          faultLocationLen := 1 }) := rfl
  have hdecoded := (@faultLocation_accounted .checked32 _ _ (sz 13)
    (Object.holds_whole sampleFaultyEof) rfl).1 _ _ _ _ heof (by decide)
  have hrun : finishedDeserialize (some ⟨Object.full sampleFinished, 0⟩)
      (sz 5 : Size .checked32) (some default) = .ok (sz 5, some
        { conditionCode := 4, deliveryCode := 0, fileStatus := 0, filestoreResponses := none,
          filestoreResponsesLen := 0, faultLocationEntityId := 7, faultLocationLen := 1 }) := rfl
  have haccounted := (@faultLocation_accounted .checked32 _ _ (sz 5)
    (Object.holds_whole sampleFinished) rfl).2 _ _ _ hrun (by decide) (by decide)
  exact ⟨⟨_, heof, hdecoded.2.1⟩, _, hrun, haccounted.2⟩

/-- An EOF PDU with an octet behind its fault location, and a Finished PDU with two
    fault locations: both accepted, with more octets than the decoded fields account for. -/
theorem faultLocation_unaccounted :
    (∃ eof, eofDeserialize
        (some ⟨Object.full [0x04, 0x40, 0, 0, 0, 0, 0, 0, 0, 0, 0x06, 0x01, 0x07, 0xFF], 0⟩)
        (sz 14 : Size .checked32) CFDP_FILE_SIZE_SMALL (some default) = .ok (sz 13, some eof) ∧
      fileSizeWidth CFDP_FILE_SIZE_SMALL + 6 +
        faultLocationOctets eof.faultLocationLen ≠ 14) ∧
    ∃ fin, finishedDeserialize
        (some ⟨Object.full [0x05, 0x40, 0x06, 0x01, 0x07, 0x06, 0x01, 0x08], 0⟩)
        (sz 8 : Size .checked32) (some default) = .ok (sz 8, some fin) ∧
      2 + fin.filestoreResponsesLen.toNat + faultLocationOctets fin.faultLocationLen ≠ 8 := by
  have heof : eofDeserialize
      (some ⟨Object.full [0x04, 0x40, 0, 0, 0, 0, 0, 0, 0, 0, 0x06, 0x01, 0x07, 0xFF], 0⟩)
      (sz 14 : Size .checked32) CFDP_FILE_SIZE_SMALL (some default) = .ok (sz 13, some
        { conditionCode := 4, fileChecksum := 0, fileSize := 0, faultLocationEntityId := 7,
          faultLocationLen := 1 }) := rfl
  have hfinished : finishedDeserialize
      (some ⟨Object.full [0x05, 0x40, 0x06, 0x01, 0x07, 0x06, 0x01, 0x08], 0⟩)
      (sz 8 : Size .checked32) (some default) = .ok (sz 8, some
        { conditionCode := 4, deliveryCode := 0, fileStatus := 0, filestoreResponses := none,
          filestoreResponsesLen := 0, faultLocationEntityId := 8, faultLocationLen := 1 }) := rfl
  exact ⟨⟨_, heof, by decide⟩, _, hfinished, by decide⟩

end EmbeddedCfdp
