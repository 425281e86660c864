import EmbeddedCfdp.DirectiveDeserialise

/-!
# The TLV chain of a Finished PDU

Which octets `cfdp_finished_deserialize` accepts behind the directive code, and what the
state of its loop says about them: any number of Filestore Response TLVs, all in front
of any number of Entity ID TLVs, of which the last one counts.
-/

namespace EmbeddedCfdp

open CMemory

namespace FinishedScan

/-- The chain of responses and entity IDs that leads from the start to `s`. -/
structure Reads (items : List TlvItem) (responses : List TlvItem) (ids : List EntityId)
    (s : FinishedScan) : Prop where
  items_eq : items = responses ++ ids.map EntityId.tlv
  type : ∀ t ∈ responses, t.type = CFDP_TLV_FILESTORE_RESPONSE.toUInt8
  state : s = ⟨(tlvCodec.chain items).length, (tlvCodec.chain responses).length, ids.getLast?⟩

theorem step_response {s : FinishedScan} {t : TlvItem}
    (htype : t.type = CFDP_TLV_FILESTORE_RESPONSE.toUInt8) (hnone : s.faultLocation = none) :
    s.step t = some ⟨s.pos + t.encode.length, s.pos + t.encode.length, none⟩ := by
  rw [step, if_pos htype, hnone]
  rfl

theorem step_entityId (s : FinishedScan) (id : EntityId) :
    s.step id.tlv = some ⟨s.pos + id.tlv.encode.length, s.responses, some id⟩ := by
  have htype : ¬ id.tlv.type = CFDP_TLV_FILESTORE_RESPONSE.toUInt8 := by
    change ¬ CFDP_TLV_ENTITY_ID.toUInt8 = CFDP_TLV_FILESTORE_RESPONSE.toUInt8
    decide
  have hentity : id.tlv.type = CFDP_TLV_ENTITY_ID.toUInt8 := rfl
  rw [step, if_neg htype, if_pos hentity, EntityId.ofTlv_eq_some.mpr rfl]
  rfl

/-- The two ways one TLV is accepted. -/
theorem step_cases {s s' : FinishedScan} {t : TlvItem} (h : s.step t = some s') :
    (t.type = CFDP_TLV_FILESTORE_RESPONSE.toUInt8 ∧ s.faultLocation = none ∧
        s' = ⟨s.pos + t.encode.length, s.pos + t.encode.length, none⟩) ∨
      ∃ id : EntityId, t = id.tlv ∧
        s' = ⟨s.pos + t.encode.length, s.responses, some id⟩ := by
  unfold step at h
  by_cases hresponse : t.type = CFDP_TLV_FILESTORE_RESPONSE.toUInt8
  · rw [if_pos hresponse] at h
    obtain ⟨hnone, h⟩ := Option.ite_none_left_eq_some.mp h
    refine Or.inl ⟨hresponse, ?_, (Option.some.inj h).symm⟩
    rwa [Bool.not_eq_true, Option.isSome_eq_false_iff, Option.isNone_iff_eq_none] at hnone
  · rw [if_neg hresponse] at h
    obtain ⟨_, h⟩ := Option.ite_none_right_eq_some.mp h
    obtain ⟨id, hid, rfl⟩ := Option.map_eq_some_iff.mp h
    exact Or.inr ⟨id, EntityId.ofTlv_eq_some.mp hid, rfl⟩

theorem length_chain_concat (items : List TlvItem) (t : TlvItem) :
    (tlvCodec.chain (items ++ [t])).length = (tlvCodec.chain items).length + t.encode.length := by
  rw [PrefixCodec.chain_append, List.length_append, PrefixCodec.chain_cons,
    PrefixCodec.chain_nil, List.append_nil]
  rfl

theorem foldlM_responses {responses : List TlvItem}
    (htype : ∀ t ∈ responses, t.type = CFDP_TLV_FILESTORE_RESPONSE.toUInt8) :
    responses.foldlM step start =
      some ⟨(tlvCodec.chain responses).length, (tlvCodec.chain responses).length, none⟩ := by
  induction responses using List.reverseRecOn with
  | nil => rfl
  | append_singleton responses t ih =>
    have hlast := htype t (List.mem_append_right _ (List.mem_singleton_self t))
    have hstep := step_response (s := ⟨(tlvCodec.chain responses).length,
      (tlvCodec.chain responses).length, none⟩) hlast rfl
    rw [List.foldlM_append, ih fun t ht => htype t (List.mem_append_left _ ht),
      Option.bind_eq_bind, Option.bind_some, List.foldlM_cons, hstep, length_chain_concat]
    rfl

theorem foldlM_entityIds (s : FinishedScan) (ids : List EntityId) :
    (ids.map EntityId.tlv).foldlM step s =
      some ⟨s.pos + (tlvCodec.chain (ids.map EntityId.tlv)).length, s.responses,
        ids.getLast?.or s.faultLocation⟩ := by
  induction ids using List.reverseRecOn with
  | nil => rfl
  | append_singleton ids id ih =>
    have hstep := step_entityId ⟨s.pos + (tlvCodec.chain (ids.map EntityId.tlv)).length,
      s.responses, ids.getLast?.or s.faultLocation⟩ id
    rw [List.map_append, List.map_singleton, List.foldlM_append, ih, Option.bind_eq_bind,
      Option.bind_some, List.foldlM_cons, hstep, length_chain_concat, List.getLast?_concat,
      Option.some_or, ← Nat.add_assoc]
    rfl

/-- The loop accepts the chains of responses followed by entity IDs, and no others. -/
theorem foldlM_eq_some {items : List TlvItem} {s : FinishedScan} :
    items.foldlM step start = some s ↔ ∃ responses ids, Reads items responses ids s := by
  constructor
  · intro h
    induction items using List.reverseRecOn generalizing s with
    | nil => exact ⟨[], [], ⟨rfl, List.forall_mem_nil _, (Option.some.inj h).symm⟩⟩
    | append_singleton items t ih =>
      rw [List.foldlM_append] at h
      obtain ⟨s₁, hfirst, hlast⟩ := Option.bind_eq_some_iff.mp h
      have hstep : s₁.step t = some s := by simpa using hlast
      obtain ⟨responses, ids, hitems, htype, rfl⟩ := ih hfirst
      -- a response is accepted only while no fault location has been seen
      rcases step_cases hstep with ⟨hresponse, hnone, rfl⟩ | ⟨id, rfl, rfl⟩
      · have hids : ids = [] := List.getLast?_eq_none_iff.mp hnone
        subst hids
        rw [List.map_nil, List.append_nil] at hitems
        subst hitems
        refine ⟨items ++ [t], [], by simp, ?_, ?_⟩
        · intro t' ht'
          rcases List.mem_append.mp ht' with hfront | hback
          · exact htype t' hfront
          · rw [List.mem_singleton.mp hback, hresponse]
        · rw [length_chain_concat]
          rfl
      · refine ⟨responses, ids ++ [id], ?_, htype, ?_⟩
        · rw [hitems, List.map_append, List.append_assoc]
          rfl
        · rw [length_chain_concat, List.getLast?_concat]
  · rintro ⟨responses, ids, rfl, htype, rfl⟩
    rw [List.foldlM_append, foldlM_responses htype, Option.bind_eq_bind, Option.bind_some,
      foldlM_entityIds, PrefixCodec.chain_append, List.length_append, Option.or_none]

end FinishedScan

/-- The data fields that are accepted, and what is found in them. -/
theorem finishedDecode_eq_some {xs : List UInt8} {s : FinishedScan} :
    finishedDecode xs = some s ↔
      2 ≤ xs.length ∧ xs.getD 0 0 = CFDP_DIRECTIVE_FINISHED.toUInt8 ∧
        ∃ responses : List TlvItem, ∃ ids : List EntityId,
          (∀ t ∈ responses, t.type = CFDP_TLV_FILESTORE_RESPONSE.toUInt8) ∧
          xs.drop 2 = tlvCodec.chain responses ++ entityIdCodec.chain ids ∧
          s = ⟨xs.length - 2, (tlvCodec.chain responses).length, ids.getLast?⟩ := by
  have hwalk := @PrefixCodec.walk_eq_some UInt8 TlvItem FinishedScan tlvCodec FinishedScan.step
    xs.length (xs.drop 2) FinishedScan.start s (by rw [List.length_drop]; omega)
  have hchain : ∀ (responses : List TlvItem) (ids : List EntityId),
      tlvCodec.chain (responses ++ ids.map EntityId.tlv) =
        tlvCodec.chain responses ++ entityIdCodec.chain ids := by
    intro responses ids
    rw [PrefixCodec.chain_append, entityIdCodec, PrefixCodec.chain_refine]
  rw [finishedDecode, Option.ite_none_right_eq_some, and_assoc, hwalk]
  -- length and code are checked alike; the walk splits into the two chains
  refine and_congr_right fun _ => and_congr_right fun _ => ?_
  constructor
  · rintro ⟨items, hitems, hfold⟩
    obtain ⟨responses, ids, rfl, htype, rfl⟩ := FinishedScan.foldlM_eq_some.mp hfold
    refine ⟨responses, ids, htype, by rw [hitems, hchain], ?_⟩
    rw [← hitems, List.length_drop]
  · rintro ⟨responses, ids, htype, hdrop, rfl⟩
    refine ⟨responses ++ ids.map EntityId.tlv, by rw [hdrop, hchain], ?_⟩
    refine FinishedScan.foldlM_eq_some.mpr ⟨responses, ids, rfl, htype, ?_⟩
    rw [hchain, ← hdrop, List.length_drop]

end EmbeddedCfdp
