import EmbeddedCfdp.FinishedChain
import EmbeddedCfdp.TlvChain

/-!
# What a decoded Finished PDU says about its TLVs

The contents of a Finished data field behind its two octets are Filestore Response TLVs
and then Entity ID TLVs.  `cfdp_finished_deserialize` accepts exactly these chains; it
reports the stretch that the responses occupy and the last of the identifiers, and a TLV
out of place, wherever it stands, makes it return 0.
-/

namespace EmbeddedCfdp

open CMemory

variable {T : Target} {p : Ptr} {xs : List UInt8} {len : Size T}

/-- The TLVs of a Finished PDU: responses, and Entity ID TLVs behind them. -/
structure FinishedTlvs where
  responses : List TlvItem
  entityIds : List TlvItem
  response_type : ∀ t ∈ responses, t.type = CFDP_TLV_FILESTORE_RESPONSE.toUInt8
  entityId_type : ∀ t ∈ entityIds,
    t.type = CFDP_TLV_ENTITY_ID.toUInt8 ∧ 1 ≤ t.value.length ∧ t.value.length ≤ 8

namespace FinishedTlvs

def items (c : FinishedTlvs) : List TlvItem := c.responses ++ c.entityIds

def octets (c : FinishedTlvs) : List UInt8 := c.items.flatMap TlvItem.encode

/-- How many octets the responses occupy. -/
def responsesLength (c : FinishedTlvs) : Nat := (c.responses.flatMap TlvItem.encode).length

/-- The responses are the reported stretch, and the fault location is the last identifier. -/
structure ReportedIn (c : FinishedTlvs) (p : Ptr) (fin : FinishedPdu) : Prop where
  length : fin.filestoreResponsesLen.toNat = c.responsesLength
  span : fin.filestoreResponses = if c.responses = [] then none else some (p.add 2)
  octets : octetsAt fin.filestoreResponses fin.filestoreResponsesLen.toNat =
    c.responses.flatMap TlvItem.encode
  faultLocation : ∀ t, c.entityIds.getLast? = some t →
    fin.faultLocationEntityId.toNat = BigEndian.decode t.value ∧
      fin.faultLocationLen.toNat = t.value.length
  noFaultLocation : c.entityIds = [] →
    fin.faultLocationEntityId = 0 ∧ fin.faultLocationLen = 0

/-- A TLV behind `front` that no Finished PDU has there. -/
def Misplaced (front : List TlvItem) (t : TlvItem) : Prop :=
  (t.type ≠ CFDP_TLV_FILESTORE_RESPONSE.toUInt8 ∧ t.type ≠ CFDP_TLV_ENTITY_ID.toUInt8) ∨
  (t.type = CFDP_TLV_FILESTORE_RESPONSE.toUInt8 ∧
    ∃ t' ∈ front, t'.type = CFDP_TLV_ENTITY_ID.toUInt8) ∨
  (t.type = CFDP_TLV_ENTITY_ID.toUInt8 ∧ ¬ (1 ≤ t.value.length ∧ t.value.length ≤ 8))

/-- Octets that end before the TLV they start with. -/
def RunsPastEnd (ys : List UInt8) : Prop :=
  ys ≠ [] ∧ (ys.length < 2 ∨ ys.length < 2 + (ys.getD 1 0).toNat)

theorem entityId_ne_response :
    CFDP_TLV_ENTITY_ID.toUInt8 ≠ CFDP_TLV_FILESTORE_RESPONSE.toUInt8 := by decide

theorem not_misplaced_entityId {c : FinishedTlvs} {t : TlvItem} (h : t ∈ c.entityIds)
    (front : List TlvItem) : ¬ Misplaced front t := by
  obtain ⟨htype, hwidth⟩ := c.entityId_type t h
  rintro (⟨-, hother⟩ | ⟨hresponse, -⟩ | ⟨-, hillegal⟩)
  · exact hother htype
  · exact entityId_ne_response (htype.symm.trans hresponse)
  · exact hillegal hwidth

theorem not_misplaced_response {c : FinishedTlvs} {t : TlvItem} {front : List TlvItem}
    (h : t ∈ c.responses) (hfront : ∀ t' ∈ front, t' ∈ c.responses) : ¬ Misplaced front t := by
  have htype := c.response_type t h
  rintro (⟨hother, -⟩ | ⟨-, t', ht', hid⟩ | ⟨hid, -⟩)
  · exact hother htype
  · have hfirst := c.response_type t' (hfront t' ht')
    exact entityId_ne_response (hid.symm.trans hfirst)
  · exact entityId_ne_response (hid.symm.trans htype)

/-- A TLV of a Finished PDU is not misplaced. -/
theorem not_misplaced {c : FinishedTlvs} {front back : List TlvItem} {t : TlvItem}
    (h : c.items = front ++ t :: back) : ¬ Misplaced front t := by
  have hsplit : c.responses ++ c.entityIds = front ++ t :: back := h
  rcases List.append_eq_append_iff.mp hsplit with ⟨ids, -, hids⟩ | ⟨rest, hresponses, hrest⟩
  · apply not_misplaced_entityId
    rw [hids]
    exact List.mem_append_right ids (List.mem_cons_self ..)
  · rcases rest with _ | ⟨t', rest⟩
    · apply not_misplaced_entityId
      rw [← hrest.trans (List.nil_append _)]
      exact List.mem_cons_self ..
    · rw [List.cons_append, List.cons.injEq] at hrest
      obtain ⟨rfl, -⟩ := hrest
      apply not_misplaced_response
      · rw [hresponses]
        exact List.mem_append_right front (List.mem_cons_self ..)
      · intro t' ht'
        rw [hresponses]
        exact List.mem_append_left _ ht'

theorem decode_eq_none_of_runsPastEnd {ys : List UInt8} (h : RunsPastEnd ys) :
    TlvItem.decode ys = none := by
  obtain ⟨hne, hshort⟩ := h
  match ys with
  | [] => rfl
  | [_] => rfl
  | type :: length :: value =>
    simp only [List.length_cons, List.getD_cons_succ, List.getD_cons_zero] at hshort
    rw [TlvItem.decode, if_neg (by omega)]

/-- The Entity ID TLVs are those of identifiers. -/
theorem exists_entityIds (c : FinishedTlvs) :
    ∃ ids : List EntityId, c.entityIds = ids.map EntityId.tlv := by
  have hrange : ∀ t ∈ c.entityIds, t ∈ Set.range EntityId.tlv := by
    intro t ht
    obtain ⟨htype, hmin, hmax⟩ := c.entityId_type t ht
    exact ⟨⟨t.value, hmin, hmax⟩, TlvItem.ext htype.symm rfl⟩
  have hmem : c.entityIds ∈ Set.range (List.map EntityId.tlv) := by
    rw [Set.range_list_map]
    exact hrange
  obtain ⟨ids, hids⟩ := hmem
  exact ⟨ids, hids.symm⟩

/-- The TLVs of responses and identifiers. -/
def ofEntityIds (responses : List TlvItem) (ids : List EntityId)
    (htype : ∀ t ∈ responses, t.type = CFDP_TLV_FILESTORE_RESPONSE.toUInt8) : FinishedTlvs where
  responses := responses
  entityIds := ids.map EntityId.tlv
  response_type := htype
  entityId_type := by
    intro t ht
    obtain ⟨id, -, rfl⟩ := List.mem_map.mp ht
    exact ⟨rfl, id.min, id.max⟩

/-- What the decoder finds in a data field with the TLVs `c`. -/
def scan (c : FinishedTlvs) (pos : Nat) : FinishedScan :=
  ⟨pos, c.responsesLength, c.entityIds.getLast?.bind EntityId.ofTlv⟩

theorem octets_eq {c : FinishedTlvs} {ids : List EntityId}
    (h : c.entityIds = ids.map EntityId.tlv) :
    c.octets = tlvCodec.chain c.responses ++ entityIdCodec.chain ids := by
  rw [entityIdCodec, PrefixCodec.chain_refine, ← PrefixCodec.chain_append, ← h]
  rfl

theorem scan_eq {c : FinishedTlvs} {ids : List EntityId}
    (h : c.entityIds = ids.map EntityId.tlv) (pos : Nat) :
    c.scan pos = ⟨pos, (tlvCodec.chain c.responses).length, ids.getLast?⟩ := by
  have hlast : c.entityIds.getLast?.bind EntityId.ofTlv = ids.getLast? := by
    rw [h, List.getLast?_map]
    cases ids.getLast? with
    | none => rfl
    | some id => exact EntityId.ofTlv_eq_some.mpr rfl
  rw [scan, hlast]
  rfl

/-- What is reported about the TLVs, where the responses can be counted in 16 bits. -/
theorem reportedIn_view {c : FinishedTlvs} (hp : (p.add 2).Holds c.octets)
    (hshort : c.responsesLength ≤ 65535) (pos : Nat) (octet : UInt8) :
    c.ReportedIn p ((c.scan pos).view p octet) := by
  have hlen : (UInt16.ofNat c.responsesLength).toNat = c.responsesLength := by
    rw [UInt16.toNat_ofNat', Nat.mod_eq_of_lt (by omega)]
  have hempty : c.responsesLength = 0 ↔ c.responses = [] := by
    rw [responsesLength, List.length_eq_zero_iff]
    exact tlvCodec.chain_eq_nil
  have hspan : ((c.scan pos).view p octet).filestoreResponses =
      if c.responses = [] then none else some (p.add 2) := by
    simp only [FinishedScan.view, scan, hempty]
  have hcount : ((c.scan pos).view p octet).filestoreResponsesLen.toNat = c.responsesLength := hlen
  refine ⟨hcount, hspan, ?_, ?_, ?_⟩
  · rw [hcount, hspan]
    by_cases hnil : c.responses = []
    · rw [if_pos hnil, hnil]
      rfl
    · rw [if_neg hnil]
      have hfront : (p.add 2).Holds (c.responses.flatMap TlvItem.encode) := by
        rw [octets, items, List.flatMap_append] at hp
        exact hp.left
      exact hfront.octetsAt
  -- only the last TLV can be an Entity ID, and its type and length are legal in `c`
  · intro t ht
    obtain ⟨htype, hmin, hmax⟩ := c.entityId_type t (List.mem_of_getLast? ht)
    have hid : EntityId.ofTlv t = some ⟨t.value, hmin, hmax⟩ :=
      EntityId.ofTlv_eq_some.mpr (TlvItem.ext htype rfl)
    simp only [FinishedScan.view, scan, ht, Option.bind_some, hid]
    exact ⟨toNat_ofNat_decode hmax, toNat_ofNat_of_le (by omega)⟩
  · intro hnil
    simp [FinishedScan.view, scan, hnil]

end FinishedTlvs

/-- The data fields that are accepted, by their TLVs. -/
theorem finishedDecode_eq_some_tlvs {s : FinishedScan} :
    finishedDecode xs = some s ↔
      2 ≤ xs.length ∧ xs.getD 0 0 = CFDP_DIRECTIVE_FINISHED.toUInt8 ∧
        ∃ c : FinishedTlvs, xs.drop 2 = c.octets ∧ s = c.scan (xs.length - 2) := by
  rw [finishedDecode_eq_some]
  refine and_congr_right fun _ => and_congr_right fun _ => ?_
  constructor
  · rintro ⟨responses, ids, htype, hdrop, rfl⟩
    have hids : (FinishedTlvs.ofEntityIds responses ids htype).entityIds =
        ids.map EntityId.tlv := rfl
    exact ⟨FinishedTlvs.ofEntityIds responses ids htype,
      hdrop.trans (FinishedTlvs.octets_eq hids).symm, (FinishedTlvs.scan_eq hids _).symm⟩
  · rintro ⟨c, hdrop, rfl⟩
    obtain ⟨ids, hids⟩ := c.exists_entityIds
    exact ⟨c.responses, ids, c.response_type, hdrop.trans (FinishedTlvs.octets_eq hids),
      FinishedTlvs.scan_eq hids _⟩

/-- A data field with a TLV out of place, or one that runs past the end, is not accepted. -/
theorem finishedDecode_eq_none {front : List TlvItem} {ys : List UInt8}
    (hxs : xs.drop 2 = front.flatMap TlvItem.encode ++ ys)
    (hbad : FinishedTlvs.RunsPastEnd ys ∨
      ∃ (t : TlvItem) (rest : List UInt8), ys = t.encode ++ rest ∧ FinishedTlvs.Misplaced front t) :
    finishedDecode xs = none := by
  rw [Option.eq_none_iff_forall_ne_some]
  intro s hs
  obtain ⟨-, -, c, hdrop, -⟩ := finishedDecode_eq_some_tlvs.mp hs
  have hchain : tlvCodec.chain c.items = tlvCodec.chain front ++ ys := hdrop.symm.trans hxs
  obtain ⟨back, hitems, hback⟩ := tlvCodec.chain_eq_append hchain
  have hne : ys ≠ [] := by
    rcases hbad with ⟨hne, -⟩ | ⟨t, rest, rfl, -⟩
    · exact hne
    · rintro ⟨⟩
  -- the bad octets would have to start with a TLV of the chain
  obtain ⟨t', back', rfl, hdec⟩ := tlvCodec.dec_of_chain hback hne
  -- either no TLV fits there, or the one that does is not allowed there
  rcases hbad with hpast | ⟨t, rest, rfl, hmisplaced⟩
  · have hnone : tlvCodec.dec ys = none := FinishedTlvs.decode_eq_none_of_runsPastEnd hpast
    rw [hnone] at hdec
    cases hdec
  · have hfirst : tlvCodec.dec (t.encode ++ rest) = some (t, rest) := tlvCodec.dec_enc t rest
    rw [hfirst, Option.some.injEq, Prod.mk.injEq] at hdec
    rw [hdec.1] at hmisplaced
    exact FinishedTlvs.not_misplaced hitems hmisplaced

/-- **Main result.** `cfdp_finished_deserialize` accepts a data field that starts with its
    directive code exactly where Filestore Response TLVs and then Entity ID TLVs follow; it
    reports what they say, and one TLV out of place or cut off makes it return 0. -/
theorem finished_outputs (hp : p.Holds xs) (hlen : xs.length = len.toNat) (fin : FinishedPdu) :
    (∀ n out, finishedDeserialize (some p) len (some fin) = .ok (n, out) → n ≠ sz 0 →
      xs.length ≤ 65535 → n = len ∧ 2 ≤ xs.length ∧
        xs.getD 0 0 = CFDP_DIRECTIVE_FINISHED.toUInt8 ∧ ∃ fin', out = some fin' ∧
        ∃ c : FinishedTlvs, xs.drop 2 = c.octets ∧ c.ReportedIn p fin' ∧
          ∃ tlvs, tlvWalk (p.add 2) (sz (xs.length - 2) : Size T) xs.length (sz 0) =
            .ok (some (sz (xs.length - 2)), tlvs) ∧ List.Forall₂ Tlv.StandsFor tlvs c.items) ∧
    (2 ≤ xs.length → xs.getD 0 0 = CFDP_DIRECTIVE_FINISHED.toUInt8 →
      ∀ c : FinishedTlvs, xs.drop 2 = c.octets →
        len ≠ sz 0 ∧ ∃ fin', finishedDeserialize (some p) len (some fin) = .ok (len, fin')) ∧
    (∀ (front : List TlvItem) (ys : List UInt8),
      xs.drop 2 = front.flatMap TlvItem.encode ++ ys →
      (FinishedTlvs.RunsPastEnd ys ∨ ∃ (t : TlvItem) (rest : List UInt8),
        ys = t.encode ++ rest ∧ FinishedTlvs.Misplaced front t) →
      ∃ fin', finishedDeserialize (some p) len (some fin) = .ok (sz 0, fin')) := by
  have hdecodes := finishedDeserialize_decodes hp hlen fin
  have hlt := len.isLt
  refine ⟨?_, ?_, ?_⟩
  · intro n out hrun hn hshort
    obtain ⟨s, hs, rfl, rfl⟩ := hdecodes.of_run hrun hn
    obtain ⟨htwo, hcode, c, hdrop, rfl⟩ := finishedDecode_eq_some_tlvs.mp hs
    have hlength := congrArg List.length hdrop
    have hholds : (p.add 2).Holds c.octets := hdrop ▸ hp.drop 2 htwo
    have hresponses : c.responsesLength ≤ c.octets.length := by
      rw [FinishedTlvs.responsesLength, FinishedTlvs.octets, FinishedTlvs.items,
        List.flatMap_append, List.length_append]
      exact Nat.le_add_right _ _
    rw [List.length_drop] at hlength
    -- the walk needs no more turns than there are octets
    refine ⟨by rw [hlen, sz_toNat], htwo, hcode, _, rfl, c, hdrop,
      FinishedTlvs.reportedIn_view hholds (by omega) _ _, ?_⟩
    have hchain : (tlvCodec.chain c.items).length = xs.length - 2 := hlength.symm
    exact tlvWalk_chain hholds (by rw [hchain, toNat_sz (by omega)]) (by omega)
  · intro htwo hcode c hdrop
    have hdecode := finishedDecode_eq_some_tlvs.mpr ⟨htwo, hcode, c, hdrop, rfl⟩
    exact ⟨Size.ne_zero (by omega), _, hdecodes.accepts_exact hdecode hlen⟩
  · intro front ys hxs hbad
    exact hdecodes.refuses (by rw [finishedDecode_eq_none hxs hbad, Option.map_none])

/-- A response and a fault location. -/
def sampleFinishedTlvs : FinishedTlvs where
  responses := [⟨CFDP_TLV_FILESTORE_RESPONSE.toUInt8, [0x10], by decide⟩]
  entityIds := [⟨CFDP_TLV_ENTITY_ID.toUInt8, [0x07], by decide⟩]
  response_type := by simp
  entityId_type := by simp

theorem finished_outputs_sample :
    ∃ fin', finishedDeserialize
      (some ⟨Object.full [0x05, 0x00, 0x01, 0x01, 0x10, 0x06, 0x01, 0x07], 0⟩)
      (sz 8 : Size .checked32) (some default) = .ok (sz 8, fin') := by
  have hp := Object.holds_whole [0x05, 0x00, 0x01, 0x01, 0x10, 0x06, 0x01, 0x07]
  have haccepts := (@finished_outputs .checked32 _ _ (sz 8) hp rfl default).2.1
  exact (haccepts (by decide) rfl sampleFinishedTlvs rfl).2

end EmbeddedCfdp
