import EmbeddedCfdp.TlvSerialise

/-!
# The LV and TLV deserialisers refine the codecs

For each deserialiser, started at octets that may be read, what it reports in terms of
the decoder of the matching codec: the octets consumed and a view of the decoded item,
whose pointers index into the input.
-/

namespace EmbeddedCfdp

open CMemory

variable {T : Target} {p : Ptr} {xs : List UInt8} {len : Size T}

/-! ### LV and TLV objects -/

/-- The span and length reported for an LV object `k` octets behind `p`. -/
def Lv.field (p : Ptr) (k : Nat) (v : Lv) : Option Ptr × UInt8 :=
  (spanAt p (k + CFDP_LV_HEADER_LEN) v.octets, UInt8.ofNat v.octets.length)

/-- What is reported for the LV object at `p`. -/
def Lv.view (p : Ptr) (v : Lv) : Option (Option Ptr) × Option UInt8 :=
  (some (v.field p 0).1, some (v.field p 0).2)

theorem lvDeserialize_decodes (h : p.Holds xs) (hlen : xs.length = len.toNat)
    (value : Option Ptr) (valueLen : UInt8) :
    Decodes (lvDeserialize (some p) len (some value) (some valueLen))
      ((Lv.decode xs).map fun r => (r.1.encode.length, r.1.view p)) := by
  unfold lvDeserialize
  -- without a length octet there is nothing to decode
  refine Decodes.guard ?_ fun hone => ?_
  · intro hshort
    rw [lt_sz_iff (size_lt T (by decide)), ← hlen, CFDP_LV_HEADER_LEN] at hshort
    rw [List.eq_nil_of_length_eq_zero (by omega : xs.length = 0)]
    rfl
  · rw [lt_sz_iff (size_lt T (by decide)), ← hlen, CFDP_LV_HEADER_LEN] at hone
    have hne : xs ≠ [] := List.ne_nil_of_length_pos (by omega)
    obtain ⟨n, ys, rfl⟩ := List.exists_cons_of_ne_nil hne
    have hn := n.toNat_lt
    rw [List.length_cons] at hlen
    have hcap : len < sz n.toNat + sz CFDP_LV_HEADER_LEN ↔ ys.length < n.toNat := by
      rw [sz_add, lt_sz_iff (size_lt T (by unfold CFDP_LV_HEADER_LEN; omega)), ← hlen,
        CFDP_LV_HEADER_LEN]
      omega
    rw [h.load (b := n) rfl, ok_bind]
    -- the length must not exceed what is left
    refine Decodes.guard ?_ fun hfits => ?_
    · intro hbig
      rw [hcap] at hbig
      rw [Lv.decode, if_neg (by omega), Option.map_none]
    · rw [hcap] at hfits
      have htake : (ys.take n.toNat).length = n.toNat := List.length_take_of_le (by omega)
      rw [spanAt_of_length htake, sz_add]
      refine Decodes.accept ?_
      rw [Lv.decode, if_pos (by omega), Option.map_some, Lv.length_encode, htake]
      simp only [Lv.view, Lv.field, htake, UInt8.ofNat_toNat, Nat.zero_add]
      rfl

/-- What is reported for the TLV object at `p`. -/
def TlvItem.view (p : Ptr) (t : TlvItem) : Tlv :=
  ⟨t.type, UInt8.ofNat t.value.length, spanAt p CFDP_TLV_HEADER_LEN t.value⟩

theorem tlvDeserialize_decodes (h : p.Holds xs) (hlen : xs.length = len.toNat) (tlv : Tlv) :
    Decodes (tlvDeserialize (some p) len (some tlv))
      ((TlvItem.decode xs).map fun r => (r.1.encode.length, some (r.1.view p))) := by
  have hsmall : len < sz CFDP_TLV_HEADER_LEN ↔ xs.length < 2 := by
    rw [lt_sz_iff (size_lt T (by decide)), ← hlen, CFDP_TLV_HEADER_LEN]
  unfold tlvDeserialize
  dsimp only
  -- no octet or one is less than type and length
  rcases xs with _ | ⟨type, _ | ⟨n, ys⟩⟩
  · rw [if_pos (hsmall.mpr (by decide))]
    exact Decodes.refuse rfl
  · rw [if_pos (hsmall.mpr (by simp))]
    exact Decodes.refuse rfl
  · have hn := n.toNat_lt
    simp only [List.length_cons] at hlen hsmall
    have hcap : len < sz n.toNat + sz CFDP_TLV_HEADER_LEN ↔ ys.length < n.toNat := by
      rw [sz_add, lt_sz_iff (size_lt T (by unfold CFDP_TLV_HEADER_LEN; omega)), ← hlen,
        CFDP_TLV_HEADER_LEN]
      omega
    rw [if_neg (by rw [hsmall]; omega), h.load (i := 1) (b := n) rfl, ok_bind]
    refine Decodes.guard ?_ fun hfits => ?_
    · intro hbig
      rw [hcap] at hbig
      rw [TlvItem.decode, if_neg (by omega), Option.map_none]
    · rw [hcap] at hfits
      have htake : (ys.take n.toNat).length = n.toNat := List.length_take_of_le (by omega)
      rw [h.load (b := type) rfl, ok_bind, spanAt_of_length htake, sz_add]
      refine Decodes.accept ?_
      rw [TlvItem.decode, if_pos (by omega), Option.map_some, TlvItem.length_encode, htake]
      simp only [TlvItem.view, htake, UInt8.ofNat_toNat]
      rfl

theorem TlvItem.size_ne_zero (t : TlvItem) : (sz t.encode.length : Size T) ≠ sz 0 := by
  have hshort := t.short
  rw [TlvItem.length_encode]
  exact sz_ne_zero (by omega) (size_lt T (by omega))

theorem TlvItem.holds_value {t : TlvItem} {rest : List UInt8} (h : p.Holds (t.encode ++ rest)) :
    (p.add CFDP_TLV_HEADER_LEN).Holds t.value := by
  have htail := h.left.tail.tail
  rwa [Ptr.add_add] at htail

/-- The two ways a TLV is read, in the form the special TLVs need. -/
theorem tlvDeserialize_run (h : p.Holds xs) (hlen : xs.length = len.toNat) (tlv : Tlv) :
    (TlvItem.decode xs = none ∧ ∃ s, tlvDeserialize (some p) len (some tlv) = .ok (sz 0, s)) ∨
      ∃ t rest, TlvItem.decode xs = some (t, rest) ∧ xs = t.encode ++ rest ∧
        tlvDeserialize (some p) len (some tlv) =
          .ok (sz t.encode.length, some (t.view p)) := by
  rcases (tlvDeserialize_decodes h hlen tlv).run with ⟨n, s, hd, hrun⟩ | ⟨hd, hrun⟩
  · obtain ⟨⟨t, rest⟩, hdec, heq⟩ := Option.map_eq_some_iff.mp hd
    rw [Prod.mk.injEq] at heq
    obtain ⟨rfl, rfl⟩ := heq
    exact Or.inr ⟨t, rest, hdec, TlvItem.decode_eq_some.mp hdec, hrun⟩
  · exact Or.inl ⟨Option.map_eq_none_iff.mp hd, hrun⟩

/-! ### Entity ID TLVs -/

/-- The number an entity ID stands for. -/
def EntityId.number (id : EntityId) : UInt64 := UInt64.ofNat (BigEndian.decode id.octets)

def EntityId.view (id : EntityId) : Option UInt64 × Option UInt8 :=
  (some id.number, some (UInt8.ofNat id.octets.length))

theorem entityIdTlvDeserialize_decodes (h : p.Holds xs) (hlen : xs.length = len.toNat)
    (entityId : UInt64) (idLen : UInt8) :
    Decodes (entityIdTlvDeserialize (some p) len (some entityId) (some idLen))
      ((entityIdCodec.dec xs).map fun r => ((entityIdCodec.enc r.1).length, r.1.view)) := by
  have hdec : entityIdCodec.dec xs =
      (TlvItem.decode xs).bind fun r => (EntityId.ofTlv r.1).map fun id => (id, r.2) := rfl
  rw [hdec]
  unfold entityIdTlvDeserialize
  -- no TLV at all, or one whose type and length are then checked
  rcases tlvDeserialize_run h hlen default with ⟨hnone, s, hrun⟩ | ⟨t, rest, hsome, rfl, hrun⟩
  · rw [hrun, ok_bind, hnone]
    dsimp only
    rw [if_pos (Or.inl rfl)]
    exact Decodes.refuse rfl
  · have hshort := t.short
    have hlength : (t.view p).length.toNat = t.value.length := toNat_ofNat_of_le hshort
    have hmin : (t.view p).length < CFDP_ID_LEN_MIN ↔ t.value.length < 1 := by
      rw [UInt8.lt_iff_toNat_lt, hlength]
      rfl
    have hmax : (t.view p).length > CFDP_ID_LEN_MAX ↔ 8 < t.value.length := by
      rw [gt_iff_lt, UInt8.lt_iff_toNat_lt, hlength]
      rfl
    rw [hrun, ok_bind, hsome, Option.bind_some]
    dsimp only [Option.getD_some]
    refine Decodes.guard ?_ fun hpass => ?_
    · intro hbad
      rw [EntityId.ofTlv, dif_neg]
      · rfl
      · rintro ⟨htype, hone, height⟩
        rcases hbad with hzero | hother | hsmall | hlarge
        · exact t.size_ne_zero hzero
        · exact hother htype
        · exact absurd (hmin.mp hsmall) (by omega)
        · exact absurd (hmax.mp hlarge) (by omega)
    · rw [not_or, not_or, not_or, not_not, hmin, hmax] at hpass
      obtain ⟨_, htype, hone, height⟩ := hpass
      have hid : EntityId.ofTlv t = some ⟨t.value, by omega, by omega⟩ :=
        dif_pos ⟨htype, by omega, by omega⟩
      have hspan : (t.view p).value = some (p.add CFDP_TLV_HEADER_LEN) := by
        have hne : t.value ≠ [] := List.ne_nil_of_length_pos (by omega)
        exact if_neg hne
      rw [hspan, deref, ok_bind, readUint_eq (TlvItem.holds_value h) hlength.symm, ok_bind,
        hlength, sz_add, hid]
      exact Decodes.accept rfl

/-! ### Fault Handler Override TLVs -/

def FaultHandlerOverride.view (o : FaultHandlerOverride) :
    Option ConditionCode × Option FaultHandlerCode :=
  (some ((o.octet >>> 4) &&& 0xF).toUInt32, some (o.octet &&& 0xF).toUInt32)

theorem faultHandlerTlvDeserialize_decodes (h : p.Holds xs) (hlen : xs.length = len.toNat)
    (conditionCode : ConditionCode) (handlerCode : FaultHandlerCode) :
    Decodes (faultHandlerTlvDeserialize (some p) len (some conditionCode) (some handlerCode))
      ((faultHandlerCodec.dec xs).map fun r =>
        ((faultHandlerCodec.enc r.1).length, r.1.view)) := by
  have hdec : faultHandlerCodec.dec xs = (TlvItem.decode xs).bind fun r =>
      (FaultHandlerOverride.ofTlv r.1).map fun o => (o, r.2) := rfl
  rw [hdec]
  unfold faultHandlerTlvDeserialize
  rcases tlvDeserialize_run h hlen default with ⟨hnone, s, hrun⟩ | ⟨t, rest, hsome, rfl, hrun⟩
  · rw [hrun, ok_bind, hnone]
    dsimp only
    rw [if_pos (Or.inl rfl)]
    exact Decodes.refuse rfl
  · have hlength : (t.view p).length.toNat = t.value.length := toNat_ofNat_of_le t.short
    have hone : (t.view p).length = 1 ↔ t.value.length = 1 := by
      rw [← UInt8.toNat_inj, hlength]
      rfl
    rw [hrun, ok_bind, hsome, Option.bind_some]
    dsimp only [Option.getD_some]
    obtain ⟨type, value, short⟩ := t
    refine Decodes.guard ?_ fun hpass => ?_
    · intro hbad
      -- a value of any other length is refused; one octet fails by the type
      match value with
      | [] => rfl
      | _ :: _ :: _ => rfl
      | [octet] =>
        have htype : type ≠ CFDP_TLV_FAULT_HANDLER_OVERRIDE.toUInt8 := by
          rcases hbad with hzero | hother | hlen1
          · exact (TlvItem.size_ne_zero _ hzero).elim
          · exact hother
          · exact (hlen1 rfl).elim
        simp [FaultHandlerOverride.ofTlv, htype]
    · rw [not_or, not_or, not_not, not_not, hone] at hpass
      obtain ⟨_, htype, hvalue⟩ := hpass
      obtain ⟨octet, rfl⟩ := List.length_eq_one_iff.mp hvalue
      have hspan : (TlvItem.view p ⟨type, [octet], short⟩).value =
          some (p.add CFDP_TLV_HEADER_LEN) := rfl
      have hload : (p.add CFDP_TLV_HEADER_LEN).load 0 = .ok octet :=
        (TlvItem.holds_value h).load rfl
      rw [hspan, deref, ok_bind, hload, ok_bind]
      change type = _ at htype
      -- both nibbles have to be valid codes
      refine Decodes.guard ?_ fun hvalid => ?_
      · intro hinvalid
        have hoctet : ¬ faultHandlerOctetValid octet = true := by
          rw [faultHandlerOctetValid, Bool.and_eq_true]
          tauto
        simp [FaultHandlerOverride.ofTlv, hoctet]
      · have hoctet : faultHandlerOctetValid octet = true := by
          rw [faultHandlerOctetValid, Bool.and_eq_true]
          tauto
        rw [sz_add]
        refine Decodes.accept ?_
        simp only [FaultHandlerOverride.ofTlv, dif_pos (And.intro htype hoctet), Option.map_some]
        rfl

/-! ### Filestore TLVs -/

theorem Lv.field_add (j k : Nat) (v : Lv) : v.field (p.add j) k = v.field p (j + k) := by
  simp only [Lv.field, spanAt_add, Nat.add_assoc]

/-- An LV object that may be missing. -/
def Lv.fieldOption (p : Ptr) (k : Nat) (v : Option Lv) : Option Ptr × UInt8 :=
  match v with
  | some v => v.field p k
  | none => (none, 0)

theorem Lv.size_ne_zero (v : Lv) : (sz v.encode.length : Size T) ≠ sz 0 := by
  have hshort := v.short
  rw [Lv.length_encode]
  exact sz_ne_zero (by omega) (size_lt T (by omega))

theorem Lv.toNat_size (v : Lv) : (sz v.encode.length : Size T).toNat = v.encode.length := by
  have hshort := v.short
  exact toNat_sz_small (by rw [Lv.length_encode]; omega)

theorem lvDeserialize_run (h : p.Holds xs) (hlen : xs.length = len.toNat)
    (value : Option Ptr) (valueLen : UInt8) :
    (Lv.decode xs = none ∧
        ∃ s, lvDeserialize (some p) len (some value) (some valueLen) = .ok (sz 0, s)) ∨
      ∃ v rest, Lv.decode xs = some (v, rest) ∧ xs = v.encode ++ rest ∧
        lvDeserialize (some p) len (some value) (some valueLen) =
          .ok (sz v.encode.length, v.view p) := by
  rcases (lvDeserialize_decodes h hlen value valueLen).run with ⟨n, s, hd, hrun⟩ | ⟨hd, hrun⟩
  · obtain ⟨⟨v, rest⟩, hdec, heq⟩ := Option.map_eq_some_iff.mp hd
    rw [Prod.mk.injEq] at heq
    obtain ⟨rfl, rfl⟩ := heq
    exact Or.inr ⟨v, rest, hdec, Lv.decode_eq_some.mp hdec, hrun⟩
  · exact Or.inl ⟨Option.map_eq_none_iff.mp hd, hrun⟩

/-- What is reported for the file names at `p`, in fields that start out null and empty. -/
def namesView (p : Ptr) (names : Lv × Option Lv) : (Option Ptr × UInt8) × (Option Ptr × UInt8) :=
  (names.1.field p 0, Lv.fieldOption p names.1.encode.length names.2)

theorem filestoreNamesDeserialize_decodes (h : p.Holds xs) (hlen : xs.length = len.toNat)
    (hasSecond : Bool) :
    Decodes (filestoreNamesDeserialize p len hasSecond none 0 none 0)
      ((namesDecode hasSecond xs).map fun r => ((namesEncode r.1).length, namesView p r.1)) := by
  unfold filestoreNamesDeserialize namesDecode
  rcases lvDeserialize_run h hlen none 0 with ⟨hnone, s, hrun⟩ | ⟨v, ys, hsome, rfl, hrun⟩
  · rw [hrun, ok_bind, hnone]
    dsimp only
    rw [if_pos rfl]
    exact Decodes.refuse rfl
  · rw [List.length_append] at hlen
    rw [hrun, ok_bind, hsome, Option.bind_some]
    dsimp only [Lv.view, Option.getD_some]
    rw [if_neg v.size_ne_zero]
    -- the flag of the action says whether a second LV is read
    cases hasSecond with
    | false =>
      rw [if_neg (by simp)]
      refine Decodes.accept ?_
      rw [Lv.decodeIf, if_neg (by simp), Option.map_some, Option.map_some, namesEncode,
        Lv.encodeOption, List.append_nil]
      rfl
    | true =>
      have hrest : ys.length = (sz (len.toNat - v.encode.length) : Size T).toNat := by
        rw [toNat_sz_sub]
        omega
      rw [if_pos rfl, sub_sz_left (by omega), ok_bind, v.toNat_size]
      rcases lvDeserialize_run h.right hrest none 0 with
        ⟨hnone', s, hrun'⟩ | ⟨v', zs, hsome', _, hrun'⟩
      · rw [hrun', ok_bind]
        dsimp only
        rw [if_pos rfl]
        refine Decodes.refuse ?_
        rw [Lv.decodeIf, if_pos rfl, hnone']
        rfl
      · rw [hrun', ok_bind]
        dsimp only [Lv.view, Option.getD_some]
        rw [if_neg v'.size_ne_zero, sz_add]
        refine Decodes.accept ?_
        rw [Lv.decodeIf, if_pos rfl, hsome', Option.map_some, Option.map_some, Option.map_some,
          namesEncode, List.length_append, Lv.field_add]
        rfl

theorem filestoreNamesDeserialize_run (h : p.Holds xs) (hlen : xs.length = len.toNat)
    (hasSecond : Bool) :
    (namesDecode hasSecond xs = none ∧
        ∃ s, filestoreNamesDeserialize p len hasSecond none 0 none 0 = .ok (sz 0, s)) ∨
      ∃ names rest, namesDecode hasSecond xs = some (names, rest) ∧
        xs = namesEncode names ++ rest ∧
        filestoreNamesDeserialize p len hasSecond none 0 none 0 =
          .ok (sz (namesEncode names).length, namesView p names) := by
  rcases (filestoreNamesDeserialize_decodes h hlen hasSecond).run with
    ⟨n, s, hd, hrun⟩ | ⟨hd, hrun⟩
  · obtain ⟨⟨names, rest⟩, hdec, heq⟩ := Option.map_eq_some_iff.mp hd
    rw [Prod.mk.injEq] at heq
    obtain ⟨rfl, rfl⟩ := heq
    exact Or.inr ⟨names, rest, hdec, (namesDecode_eq_some.mp hdec).2, hrun⟩
  · exact Or.inl ⟨Option.map_eq_none_iff.mp hd, hrun⟩

theorem namesEncode_pos (names : Lv × Option Lv) : 0 < (namesEncode names).length := by
  rw [namesEncode, List.length_append, Lv.length_encode]
  omega

/-- The names start behind the two header octets and the action octet. -/
def FilestoreFields.request (p : Ptr) (f : FilestoreFields) : FilestoreRequest :=
  let names := namesView (p.add 3) (f.first, f.second)
  ⟨actionOf f.octet, names.1.1, names.1.2, names.2.1, names.2.2⟩

theorem TlvItem.toNat_view_length (t : TlvItem) : (t.view p).length.toNat = t.value.length :=
  toNat_ofNat_of_le t.short

theorem TlvItem.view_value {t : TlvItem} {octet : UInt8} {body : List UInt8}
    (hvalue : t.value = octet :: body) : (t.view p).value = some (p.add CFDP_TLV_HEADER_LEN) :=
  if_neg (by rw [hvalue]; exact List.cons_ne_nil _ _)

theorem filestoreTlvAction_view {t : TlvItem} {rest body : List UInt8} {octet : UInt8}
    (h : p.Holds (t.encode ++ rest)) (hvalue : t.value = octet :: body) :
    filestoreTlvAction (t.view p) = .ok (actionOf octet) := by
  have hholds := TlvItem.holds_value h
  rw [hvalue] at hholds
  rw [filestoreTlvAction, TlvItem.view_value hvalue, deref, ok_bind, hholds.load (b := octet) rfl,
    ok_bind]
  rfl

/-- The check both filestore deserialisers make on the TLV. -/
theorem FilestoreItem.ofTlv_of_bad {withMessage : Bool} {t : TlvItem}
    (hbad : (sz t.encode.length : Size T) = sz 0 ∨
      (t.view p).type ≠ filestoreTlvType withMessage ∨ (t.view p).length < 1) :
    FilestoreItem.ofTlv withMessage t = none := by
  refine FilestoreItem.ofTlv_eq_none fun htype => ?_
  rcases hbad with hzero | hother | hsmall
  · exact (t.size_ne_zero hzero).elim
  · exact (hother htype).elim
  · rw [UInt8.lt_iff_toNat_lt, t.toNat_view_length] at hsmall
    have hnil : t.value = [] := List.eq_nil_of_length_eq_zero (Nat.lt_one_iff.mp hsmall)
    rw [hnil]
    rfl

theorem TlvItem.value_of_good {type : UInt8} {t : TlvItem}
    (hgood : ¬ ((sz t.encode.length : Size T) = sz 0 ∨ (t.view p).type ≠ type ∨
      (t.view p).length < 1)) :
    t.type = type ∧ ∃ octet body, t.value = octet :: body := by
  rw [not_or, not_or, not_not, UInt8.lt_iff_toNat_lt, t.toNat_view_length] at hgood
  obtain ⟨_, htype, hvalue⟩ := hgood
  have hne : t.value ≠ [] := by
    intro hnil
    rw [hnil] at hvalue
    exact hvalue Nat.one_pos
  exact ⟨htype, List.exists_cons_of_ne_nil hne⟩

/-- In a TLV of the right type, the value alone decides. -/
theorem FilestoreItem.map_ofTlv {withMessage : Bool} {t : TlvItem} {β : Type}
    (htype : t.type = filestoreTlvType withMessage) (view : FilestoreFields → β) :
    ((FilestoreItem.ofTlv withMessage t).map fun item =>
        (((filestoreCodec withMessage).enc item).length, view item.fields)) =
      (FilestoreFields.parse withMessage t.value).map fun f => (t.value.length + 2, view f) := by
  cases hparse : FilestoreFields.parse withMessage t.value with
  | none =>
    rw [FilestoreItem.ofTlv_eq_none fun _ => hparse]
    rfl
  | some f =>
    obtain ⟨item, hitem, rfl⟩ := FilestoreItem.ofTlv_of_parse htype hparse
    have hvalue : t.value = item.fields.value := by
      rw [FilestoreItem.ofTlv_eq_some.mp hitem]
      rfl
    rw [hitem, Option.map_some, Option.map_some, FilestoreItem.length_enc, hvalue]

/-- What both filestore deserialisers have read when they check the action: a TLV of the right
    type, with the value `octet :: body`. -/
structure FilestoreTlvRead (p : Ptr) (xs : List UInt8) (len : Size T) (withMessage : Bool)
    (t : TlvItem) (octet : UInt8) (body : List UInt8) : Prop where
  run : tlvDeserialize (some p) len (some default) = .ok (sz t.encode.length, some (t.view p))
  passes : ¬ ((sz t.encode.length : Size T) = sz 0 ∨
    (t.view p).type ≠ filestoreTlvType withMessage ∨ (t.view p).length < 1)
  action : filestoreTlvAction (t.view p) = .ok (actionOf octet)
  value : (t.view p).value = some (p.add CFDP_TLV_HEADER_LEN)
  length : (t.view p).length.toNat = body.length + 1
  short : body.length + 1 ≤ 255
  holds : (p.add CFDP_TLV_HEADER_LEN).Holds (octet :: body)
  decodes : ∀ {β : Type} (view : FilestoreFields → β),
    (((filestoreCodec withMessage).dec xs).map fun r =>
        (((filestoreCodec withMessage).enc r.1).length, view r.1.fields)) =
      (FilestoreFields.parse withMessage (octet :: body)).map fun f => (body.length + 3, view f)

theorem filestoreTlv_cases (h : p.Holds xs) (hlen : xs.length = len.toNat) (withMessage : Bool) :
    (∃ n s, tlvDeserialize (some p) len (some default) = .ok (n, s) ∧
      (n = sz 0 ∨ (s.getD default).type ≠ filestoreTlvType withMessage ∨
        (s.getD default).length < 1) ∧ (filestoreCodec withMessage).dec xs = none) ∨
    ∃ t octet body, FilestoreTlvRead p xs len withMessage t octet body := by
  have hdec : (filestoreCodec withMessage).dec xs = (TlvItem.decode xs).bind fun r =>
      (FilestoreItem.ofTlv withMessage r.1).map fun item => (item, r.2) := rfl
  rcases tlvDeserialize_run h hlen default with ⟨hnone, s, hrun⟩ | ⟨t, rest, hsome, rfl, hrun⟩
  · exact Or.inl ⟨sz 0, s, hrun, Or.inl rfl, by rw [hdec, hnone]; rfl⟩
  · rw [hsome, Option.bind_some] at hdec
    -- the checks that request and response share: type, and one octet at least
    by_cases hbad : (sz t.encode.length : Size T) = sz 0 ∨
        (t.view p).type ≠ filestoreTlvType withMessage ∨ (t.view p).length < 1
    · exact Or.inl ⟨_, _, hrun, hbad, by rw [hdec, FilestoreItem.ofTlv_of_bad hbad]; rfl⟩
    · obtain ⟨htype, octet, body, hbody⟩ := TlvItem.value_of_good hbad
      have hholds := TlvItem.holds_value h
      have hshort := t.short
      rw [hbody] at hholds hshort
      refine Or.inr ⟨t, octet, body, hrun, hbad, filestoreTlvAction_view h hbody,
        TlvItem.view_value hbody, by rw [t.toNat_view_length, hbody, List.length_cons], hshort,
        hholds, ?_⟩
      intro β view
      have hview := FilestoreItem.map_ofTlv htype view
      rw [hbody] at hview
      rw [hdec, Option.map_map]
      exact hview

theorem filestoreRequestTlvDeserialize_decodes (h : p.Holds xs)
    (hlen : xs.length = len.toNat) (req : FilestoreRequest) :
    Decodes (filestoreRequestTlvDeserialize (some p) len (some req))
      (((filestoreCodec false).dec xs).map fun r =>
        (((filestoreCodec false).enc r.1).length, some (r.1.fields.request p))) := by
  have htype : CFDP_TLV_FILESTORE_REQUEST.toUInt8 = filestoreTlvType false := rfl
  unfold filestoreRequestTlvDeserialize
  rcases filestoreTlv_cases h hlen false with ⟨n, s, hrun, hbad, hnone⟩ | ⟨t, octet, body, hread⟩
  · rw [hrun, ok_bind, hnone]
    dsimp only
    rw [htype, if_pos hbad]
    exact Decodes.refuse rfl
  · have hshort := hread.short
    have hholds := hread.holds
    have hbodylen : body.length = (sz body.length : Size T).toNat :=
      (toNat_sz_small (by omega)).symm
    rw [hread.run, ok_bind, hread.decodes fun f => some (f.request p)]
    dsimp only [Option.getD_some]
    rw [htype, if_neg hread.passes, hread.action, ok_bind, hread.value, deref, ok_bind]
    simp only [hread.length]
    refine Decodes.guard ?_ fun haction => ?_
    · intro haction
      rw [FilestoreFields.parse, if_neg haction, Option.map_none]
    · rw [not_not] at haction
      rw [sub_sz (size_lt T (by omega)) (by omega), ok_bind, Nat.add_sub_cancel]
      -- the names are cut off, or decoded with something behind them or nothing
      rcases filestoreNamesDeserialize_run hholds.tail hbodylen
          (filestoreActionHasSecondFilename (actionOf octet)) with
        ⟨hnone, s, hrun⟩ | ⟨names, tail, hnames, hsplit, hrun⟩
      · rw [hrun, ok_bind]
        dsimp only
        rw [if_pos (Or.inl rfl)]
        refine Decodes.refuse ?_
        rw [FilestoreFields.parse, if_pos haction, hnone, Option.bind_none, Option.map_none]
      · have hlens : body.length = (namesEncode names).length + tail.length := by
          rw [hsplit, List.length_append]
        have hzero : (sz (namesEncode names).length : Size T) ≠ sz 0 :=
          sz_ne_zero (namesEncode_pos names) (size_lt T (by omega))
        have hparse : FilestoreFields.parse false (octet :: body) =
            if tail = [] then some ⟨octet, names.1, names.2, none⟩ else none := by
          rw [FilestoreFields.parse, if_pos haction, hnames]
          rfl
        have hexact : (sz (namesEncode names).length : Size T) + sz 1 ≠ sz (body.length + 1) ↔
            tail ≠ [] := by
          rw [sz_add, Ne, sz_inj (size_lt T (by omega)) (size_lt T (by omega)), Ne,
            ← List.length_eq_zero_iff]
          omega
        rw [hrun, ok_bind, hparse]
        dsimp only
        -- the names have to fill the value
        refine Decodes.guard ?_ fun hpass => ?_
        · intro hbad
          rw [if_neg (hexact.mp (hbad.resolve_left hzero)), Option.map_none]
        · rw [not_or, hexact, not_not] at hpass
          rw [if_pos hpass.2, sz_add]
          exact Decodes.accept rfl

/-- The message follows the names. -/
def FilestoreFields.response (p : Ptr) (f : FilestoreFields) : FilestoreResponse :=
  let names := namesView (p.add 3) (f.first, f.second)
  let message := Lv.fieldOption (p.add (3 + (namesEncode (f.first, f.second)).length)) 0 f.message
  ⟨actionOf f.octet, (f.octet &&& 0xF).toUInt32, names.1.1, names.1.2, names.2.1, names.2.2,
    message.1, message.2⟩

theorem filestoreResponseTlvDeserialize_decodes (h : p.Holds xs)
    (hlen : xs.length = len.toNat) (resp : FilestoreResponse) :
    Decodes (filestoreResponseTlvDeserialize (some p) len (some resp))
      (((filestoreCodec true).dec xs).map fun r =>
        (((filestoreCodec true).enc r.1).length, some (r.1.fields.response p))) := by
  have htype : CFDP_TLV_FILESTORE_RESPONSE.toUInt8 = filestoreTlvType true := rfl
  unfold filestoreResponseTlvDeserialize
  rcases filestoreTlv_cases h hlen true with ⟨n, s, hrun, hbad, hnone⟩ | ⟨t, octet, body, hread⟩
  · rw [hrun, ok_bind, hnone]
    dsimp only
    rw [htype, if_pos hbad]
    exact Decodes.refuse rfl
  · have hshort := hread.short
    have hholds := hread.holds
    have hbodylen : body.length = (sz body.length : Size T).toNat :=
      (toNat_sz_small (by omega)).symm
    rw [hread.run, ok_bind, hread.decodes fun f => some (f.response p)]
    dsimp only [Option.getD_some]
    rw [htype, if_neg hread.passes, hread.action, ok_bind, hread.value, deref, ok_bind]
    simp only [hread.length]
    refine Decodes.guard ?_ fun haction => ?_
    · intro haction
      rw [FilestoreFields.parse, if_neg haction, Option.map_none]
    · rw [not_not] at haction
      rw [hholds.load (b := octet) rfl, ok_bind, sub_sz (size_lt T (by omega)) (by omega), ok_bind,
        Nat.add_sub_cancel]
      -- behind the names there has to be a message
      rcases filestoreNamesDeserialize_run hholds.tail hbodylen
          (filestoreActionHasSecondFilename (actionOf octet)) with
        ⟨hnone, s, hrun⟩ | ⟨names, tail, hnames, hsplit, hrun⟩
      · rw [hrun, ok_bind]
        dsimp only
        rw [if_pos rfl]
        refine Decodes.refuse ?_
        rw [FilestoreFields.parse, if_pos haction, hnone, Option.bind_none, Option.map_none]
      · have hlens : body.length = (namesEncode names).length + tail.length := by
          rw [hsplit, List.length_append]
        have hzero : (sz (namesEncode names).length : Size T) ≠ sz 0 :=
          sz_ne_zero (namesEncode_pos names) (size_lt T (by omega))
        have hparse : FilestoreFields.parse true (octet :: body) = (Lv.decode tail).bind fun r =>
            if r.2 = [] then some ⟨octet, names.1, names.2, some r.1⟩ else none := by
          rw [FilestoreFields.parse, if_pos haction, hnames, Option.bind_some, Lv.decodeIf,
            if_pos rfl, Option.bind_map]
          rfl
        have hmessage : (sz (1 + (namesEncode names).length) : Size T).toNat =
            1 + (namesEncode names).length := toNat_sz_small (by omega)
        have hptr : (p.add CFDP_TLV_HEADER_LEN).add (1 + (namesEncode names).length) =
            p.add (3 + (namesEncode names).length) := by
          rw [Ptr.add_add, ← Nat.add_assoc]
          rfl
        have hrest : (p.add (3 + (namesEncode names).length)).Holds tail := by
          rw [hsplit] at hholds
          have htail := hholds.tail.right
          rwa [Ptr.add_add, hptr] at htail
        have htaillen : tail.length =
            (sz (body.length - (namesEncode names).length) : Size T).toNat := by
          rw [toNat_sz_small (by omega)]
          omega
        rw [hrun, ok_bind]
        dsimp only
        rw [if_neg hzero, ok_bind, sub_sz (size_lt T (by omega)) (by omega), ok_bind, sz_add,
          hmessage, hptr, hparse]
        rcases lvDeserialize_run hrest htaillen none 0 with
          ⟨hnone, s, hrun'⟩ | ⟨v, tail', hv, hsplit', hrun'⟩
        · rw [hrun', ok_bind, hnone]
          dsimp only
          rw [if_pos (Or.inl rfl)]
          exact Decodes.refuse rfl
        · have hlens' : tail.length = v.encode.length + tail'.length := by
            rw [hsplit', List.length_append]
          have hexact : (sz (namesEncode names).length : Size T) + sz v.encode.length + sz 1 ≠
              sz (body.length + 1) ↔ tail' ≠ [] := by
            rw [sz_add, sz_add, Ne, sz_inj (size_lt T (by omega)) (size_lt T (by omega)), Ne,
              ← List.length_eq_zero_iff]
            omega
          rw [hrun', ok_bind, hv, Option.bind_some]
          dsimp only [Lv.view, Option.getD_some]
          -- names and message have to fill the value
          refine Decodes.guard ?_ fun hpass => ?_
          · intro hbad
            rw [if_neg (hexact.mp (hbad.resolve_left v.size_ne_zero)), Option.map_none]
          · rw [not_or, hexact, not_not] at hpass
            rw [if_pos hpass.2, sz_add]
            exact Decodes.accept rfl

end EmbeddedCfdp
