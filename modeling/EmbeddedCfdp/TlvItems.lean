import EmbeddedCfdp.PrefixCodec
import EmbeddedCfdp.Tlv

/-!
# What the LV and TLV octets mean

The abstract contents of LV and TLV objects, each with the bounds its length field
imposes, and the prefix codec that says which octets stand for them.  The codecs of
the special TLVs narrow the codec of all TLVs.
-/

namespace EmbeddedCfdp

open CMemory

/-! ### LV objects -/

/-- The contents of an LV object. -/
@[ext] structure Lv where
  octets : List UInt8
  short : octets.length ≤ 255

def Lv.encode (v : Lv) : List UInt8 := UInt8.ofNat v.octets.length :: v.octets

def Lv.decode : List UInt8 → Option (Lv × List UInt8)
  | [] => none
  | len :: xs =>
      if len.toNat ≤ xs.length then
        some (⟨xs.take len.toNat, by
          have := len.toNat_lt
          rw [List.length_take]
          omega⟩, xs.drop len.toNat)
      else none

theorem toNat_ofNat_of_le {n : Nat} (h : n ≤ 255) : (UInt8.ofNat n).toNat = n := by
  rw [UInt8.toNat_ofNat']
  omega

/-- A length octet and the octets it announces, split off the front of a string. -/
theorem cons_take_drop {len : UInt8} {xs ys rest : List UInt8} (hle : ys.length ≤ 255) :
    len.toNat ≤ xs.length ∧ xs.take len.toNat = ys ∧ xs.drop len.toNat = rest ↔
      len = UInt8.ofNat ys.length ∧ xs = ys ++ rest := by
  constructor
  · rintro ⟨hlen, rfl, rfl⟩
    rw [List.length_take_of_le hlen, UInt8.ofNat_toNat, List.take_append_drop]
    exact ⟨rfl, rfl⟩
  · rintro ⟨rfl, rfl⟩
    rw [toNat_ofNat_of_le hle]
    simp

theorem Lv.decode_eq_some {xs : List UInt8} {v : Lv} {rest : List UInt8} :
    Lv.decode xs = some (v, rest) ↔ xs = v.encode ++ rest := by
  cases xs with
  | nil => simp [Lv.decode, Lv.encode]
  | cons len xs =>
    have hsplit := @cons_take_drop len xs v.octets rest v.short
    rw [Lv.encode, List.cons_append, List.cons.injEq, ← hsplit, Lv.decode]
    by_cases hlen : len.toNat ≤ xs.length
    · simp [hlen, Lv.ext_iff]
    · simp [hlen]

def lvCodec : PrefixCodec UInt8 Lv where
  enc := Lv.encode
  dec := Lv.decode
  dec_eq_some := Lv.decode_eq_some
  enc_ne_nil := by
    rintro v ⟨⟩

@[simp] theorem Lv.length_encode (v : Lv) : v.encode.length = v.octets.length + 1 := rfl

/-! ### TLV objects -/

/-- The contents of a TLV object. -/
@[ext] structure TlvItem where
  type : UInt8
  value : List UInt8
  short : value.length ≤ 255

def TlvItem.encode (t : TlvItem) : List UInt8 :=
  t.type :: UInt8.ofNat t.value.length :: t.value

def TlvItem.decode : List UInt8 → Option (TlvItem × List UInt8)
  | type :: len :: xs =>
      if len.toNat ≤ xs.length then
        some (⟨type, xs.take len.toNat, by
          have := len.toNat_lt
          rw [List.length_take]
          omega⟩, xs.drop len.toNat)
      else none
  | _ => none

theorem TlvItem.decode_eq_some {xs : List UInt8} {t : TlvItem} {rest : List UInt8} :
    TlvItem.decode xs = some (t, rest) ↔ xs = t.encode ++ rest := by
  match xs with
  | [] => simp [TlvItem.decode, TlvItem.encode]
  | [_] => simp [TlvItem.decode, TlvItem.encode]
  | type :: len :: xs =>
    have hsplit := @cons_take_drop len xs t.value rest t.short
    rw [TlvItem.encode, List.cons_append, List.cons_append, List.cons.injEq, List.cons.injEq,
      ← hsplit, TlvItem.decode]
    by_cases hlen : len.toNat ≤ xs.length
    · simp [hlen, TlvItem.ext_iff, and_assoc]
    · simp [hlen]

def tlvCodec : PrefixCodec UInt8 TlvItem where
  enc := TlvItem.encode
  dec := TlvItem.decode
  dec_eq_some := TlvItem.decode_eq_some
  enc_ne_nil := by
    rintro t ⟨⟩

@[simp] theorem TlvItem.length_encode (t : TlvItem) :
    t.encode.length = t.value.length + 2 := rfl

/-! ### Entity ID TLVs -/

/-- An entity ID as transmitted: its 1 to 8 octets, most significant first. -/
@[ext] structure EntityId where
  octets : List UInt8
  min : 1 ≤ octets.length
  max : octets.length ≤ 8

def EntityId.tlv (id : EntityId) : TlvItem :=
  ⟨CFDP_TLV_ENTITY_ID.toUInt8, id.octets, by have := id.max; omega⟩

def EntityId.ofTlv (t : TlvItem) : Option EntityId :=
  if h : t.type = CFDP_TLV_ENTITY_ID.toUInt8 ∧ 1 ≤ t.value.length ∧ t.value.length ≤ 8 then
    some ⟨t.value, h.2.1, h.2.2⟩
  else none

theorem EntityId.ofTlv_eq_some {t : TlvItem} {id : EntityId} :
    EntityId.ofTlv t = some id ↔ t = id.tlv := by
  unfold EntityId.ofTlv
  constructor
  · intro h
    by_cases hvalid : t.type = CFDP_TLV_ENTITY_ID.toUInt8 ∧ 1 ≤ t.value.length ∧ t.value.length ≤ 8
    · rw [dif_pos hvalid, Option.some.injEq] at h
      subst h
      exact TlvItem.ext hvalid.1 rfl
    · rw [dif_neg hvalid] at h
      cases h
  · rintro rfl
    exact dif_pos ⟨rfl, id.min, id.max⟩

def entityIdCodec : PrefixCodec UInt8 EntityId :=
  tlvCodec.refine EntityId.tlv EntityId.ofTlv EntityId.ofTlv_eq_some

/-! ### Fault Handler Override TLVs -/

def faultHandlerOctetValid (octet : UInt8) : Bool :=
  faultConditionValid ((octet >>> 4) &&& 0xF).toUInt32 && faultHandlerValid (octet &&& 0xF).toUInt32

/-- A condition code and a handler code, as packed into their octet. -/
@[ext] structure FaultHandlerOverride where
  octet : UInt8
  valid : faultHandlerOctetValid octet = true

def FaultHandlerOverride.tlv (o : FaultHandlerOverride) : TlvItem :=
  ⟨CFDP_TLV_FAULT_HANDLER_OVERRIDE.toUInt8, [o.octet], by simp⟩

def FaultHandlerOverride.ofTlv (t : TlvItem) : Option FaultHandlerOverride :=
  match t.value with
  | [octet] =>
      if h : t.type = CFDP_TLV_FAULT_HANDLER_OVERRIDE.toUInt8 ∧ faultHandlerOctetValid octet = true
      then some ⟨octet, h.2⟩
      else none
  | _ => none

theorem FaultHandlerOverride.ofTlv_eq_some {t : TlvItem} {o : FaultHandlerOverride} :
    FaultHandlerOverride.ofTlv t = some o ↔ t = o.tlv := by
  obtain ⟨type, value, short⟩ := t
  have hvalid := o.valid
  -- only a value of a single octet can be an override
  match value with
  | [] => simp [FaultHandlerOverride.ofTlv, FaultHandlerOverride.tlv]
  | [octet] =>
    simp only [FaultHandlerOverride.ofTlv, FaultHandlerOverride.tlv, TlvItem.mk.injEq,
      List.cons.injEq, and_true, Option.dite_none_right_eq_some, Option.some.injEq,
      FaultHandlerOverride.ext_iff]
    constructor
    · rintro ⟨⟨htype, _⟩, hoctet⟩
      exact ⟨htype, hoctet⟩
    · rintro ⟨htype, rfl⟩
      exact ⟨⟨htype, hvalid⟩, rfl⟩
  | _ :: _ :: _ => simp [FaultHandlerOverride.ofTlv, FaultHandlerOverride.tlv]

def faultHandlerCodec : PrefixCodec UInt8 FaultHandlerOverride :=
  tlvCodec.refine FaultHandlerOverride.tlv FaultHandlerOverride.ofTlv
    FaultHandlerOverride.ofTlv_eq_some

/-! ### Filestore TLVs -/

/-- The action code in the first octet of a filestore value. -/
def actionOf (octet : UInt8) : FilestoreAction := ((octet >>> 4) &&& 0xF).toUInt32

/-- An LV object that only some values have. -/
def Lv.encodeOption (v : Option Lv) : List UInt8 :=
  match v with
  | some v => v.encode
  | none => []

def Lv.decodeIf (present : Bool) (xs : List UInt8) : Option (Option Lv × List UInt8) :=
  if present then (Lv.decode xs).map fun r => (some r.1, r.2) else some (none, xs)

theorem Lv.decodeIf_eq_some {present : Bool} {xs rest : List UInt8} {v : Option Lv} :
    Lv.decodeIf present xs = some (v, rest) ↔
      v.isSome = present ∧ xs = Lv.encodeOption v ++ rest := by
  unfold Lv.decodeIf
  cases present with
  | false => cases v <;> simp [Lv.encodeOption]
  | true =>
    cases v with
    | none => simp
    | some v => simp [Lv.encodeOption, Lv.decode_eq_some]

def namesEncode (names : Lv × Option Lv) : List UInt8 :=
  names.1.encode ++ Lv.encodeOption names.2

/-- One file name or two. -/
def namesDecode (hasSecond : Bool) (xs : List UInt8) :
    Option ((Lv × Option Lv) × List UInt8) :=
  (Lv.decode xs).bind fun r =>
    (Lv.decodeIf hasSecond r.2).map fun r' => ((r.1, r'.1), r'.2)

theorem namesDecode_eq_some {hasSecond : Bool} {xs rest : List UInt8}
    {names : Lv × Option Lv} :
    namesDecode hasSecond xs = some (names, rest) ↔
      names.2.isSome = hasSecond ∧ xs = namesEncode names ++ rest := by
  obtain ⟨first, second⟩ := names
  unfold namesDecode namesEncode
  constructor
  · intro h
    obtain ⟨⟨v, ys⟩, hfirst, h⟩ := Option.bind_eq_some_iff.mp h
    obtain ⟨⟨v', zs⟩, hsecond, heq⟩ := Option.map_eq_some_iff.mp h
    simp only [Prod.mk.injEq] at heq
    obtain ⟨⟨rfl, rfl⟩, rfl⟩ := heq
    obtain ⟨hsome, hys⟩ := Lv.decodeIf_eq_some.mp hsecond
    dsimp only at hys
    rw [Lv.decode_eq_some.mp hfirst, hys, List.append_assoc]
    exact ⟨hsome, rfl⟩
  · rintro ⟨hsome, rfl⟩
    have hfirst := Lv.decode_eq_some.mpr (List.append_assoc first.encode
      (Lv.encodeOption second) rest)
    have hsecond := Lv.decodeIf_eq_some.mpr ⟨hsome, Eq.refl (Lv.encodeOption second ++ rest)⟩
    rw [hfirst, Option.bind_some, hsecond, Option.map_some]

/-- The fields of a filestore value: action and status (in a request, spare bits) in one
    octet, one or two file names and, in a response, a message. -/
@[ext] structure FilestoreFields where
  octet : UInt8
  first : Lv
  second : Option Lv
  message : Option Lv

def FilestoreFields.value (f : FilestoreFields) : List UInt8 :=
  f.octet :: (namesEncode (f.first, f.second) ++ Lv.encodeOption f.message)

structure FilestoreFields.Valid (f : FilestoreFields) (withMessage : Bool) : Prop where
  action : filestoreActionValid (actionOf f.octet) = true
  second : f.second.isSome = filestoreActionHasSecondFilename (actionOf f.octet)
  message : f.message.isSome = withMessage

/-- A value is read in the order of its fields and must be used up. -/
def FilestoreFields.parse (withMessage : Bool) : List UInt8 → Option FilestoreFields
  | [] => none
  | octet :: xs =>
      if filestoreActionValid (actionOf octet) then
        (namesDecode (filestoreActionHasSecondFilename (actionOf octet)) xs).bind fun r =>
          (Lv.decodeIf withMessage r.2).bind fun r' =>
            if r'.2 = [] then some ⟨octet, r.1.1, r.1.2, r'.1⟩ else none
      else none

theorem FilestoreFields.parse_eq_some {withMessage : Bool} {value : List UInt8}
    {f : FilestoreFields} :
    FilestoreFields.parse withMessage value = some f ↔
      f.Valid withMessage ∧ value = f.value := by
  cases value with
  | nil => simp [FilestoreFields.parse, FilestoreFields.value]
  | cons octet xs =>
    constructor
    · intro h
      -- every stage of the parser has succeeded, and nothing is left over
      obtain ⟨haction, h⟩ := Option.ite_none_right_eq_some.mp h
      obtain ⟨⟨names, ys⟩, hnames, h⟩ := Option.bind_eq_some_iff.mp h
      obtain ⟨⟨message, zs⟩, hmessage, h⟩ := Option.bind_eq_some_iff.mp h
      obtain ⟨hnil, hf⟩ := Option.ite_none_right_eq_some.mp h
      rw [Option.some.injEq] at hf
      subst hf hnil
      obtain ⟨hsecond, hxs⟩ := namesDecode_eq_some.mp hnames
      obtain ⟨hpresent, hys⟩ := Lv.decodeIf_eq_some.mp hmessage
      rw [List.append_nil] at hys
      dsimp only at hys
      refine ⟨⟨haction, hsecond, hpresent⟩, ?_⟩
      rw [FilestoreFields.value, hxs, hys]
    · rintro ⟨hvalid, hvalue⟩
      rw [FilestoreFields.value, List.cons.injEq] at hvalue
      obtain ⟨rfl, rfl⟩ := hvalue
      have hnames := namesDecode_eq_some.mpr ⟨hvalid.second,
        Eq.refl (namesEncode (f.first, f.second) ++ Lv.encodeOption f.message)⟩
      have hmessage := Lv.decodeIf_eq_some.mpr ⟨hvalid.message,
        (List.append_nil (Lv.encodeOption f.message)).symm⟩
      rw [FilestoreFields.parse, if_pos hvalid.action, hnames, Option.bind_some, hmessage,
        Option.bind_some, if_pos rfl]

/-- A filestore value that fits into a TLV. -/
@[ext] structure FilestoreItem (withMessage : Bool) where
  fields : FilestoreFields
  valid : fields.Valid withMessage
  short : fields.value.length ≤ 255

/-- Responses carry a message, requests do not. -/
def filestoreTlvType (withMessage : Bool) : UInt8 :=
  if withMessage then CFDP_TLV_FILESTORE_RESPONSE.toUInt8
  else CFDP_TLV_FILESTORE_REQUEST.toUInt8

section FilestoreItem

variable {withMessage : Bool}

def FilestoreItem.tlv (item : FilestoreItem withMessage) : TlvItem :=
  ⟨filestoreTlvType withMessage, item.fields.value, item.short⟩

def FilestoreItem.ofTlv (withMessage : Bool) (t : TlvItem) :
    Option (FilestoreItem withMessage) :=
  if t.type = filestoreTlvType withMessage then
    match h : FilestoreFields.parse withMessage t.value with
    | some f => some ⟨f, (FilestoreFields.parse_eq_some.mp h).1, by
        rw [← (FilestoreFields.parse_eq_some.mp h).2]
        exact t.short⟩
    | none => none
  else none

theorem FilestoreItem.ofTlv_eq_some {t : TlvItem} {item : FilestoreItem withMessage} :
    FilestoreItem.ofTlv withMessage t = some item ↔ t = item.tlv := by
  have hparse : FilestoreFields.parse withMessage t.value = some item.fields ↔
      t.value = item.fields.value := by
    rw [FilestoreFields.parse_eq_some]
    exact and_iff_right item.valid
  rw [TlvItem.ext_iff, FilestoreItem.ofTlv]
  simp only [FilestoreItem.tlv, ← hparse]
  -- a TLV of another type is none of these
  by_cases htype : t.type = filestoreTlvType withMessage
  · rw [if_pos htype]
    split
    · rename_i f hf
      simp [htype, hf, FilestoreItem.ext_iff]
    · rename_i hf
      simp [htype, hf]
  · simp [htype]

theorem FilestoreItem.ofTlv_eq_none {t : TlvItem} (h : t.type = filestoreTlvType withMessage →
    FilestoreFields.parse withMessage t.value = none) :
    FilestoreItem.ofTlv withMessage t = none := by
  rw [Option.eq_none_iff_forall_not_mem]
  intro item hitem
  obtain rfl := FilestoreItem.ofTlv_eq_some.mp hitem
  have hparse : FilestoreFields.parse withMessage item.fields.value = some item.fields :=
    FilestoreFields.parse_eq_some.mpr ⟨item.valid, rfl⟩
  have hnone := h rfl
  rw [FilestoreItem.tlv, hparse] at hnone
  cases hnone

theorem FilestoreItem.ofTlv_of_parse {t : TlvItem} {f : FilestoreFields}
    (htype : t.type = filestoreTlvType withMessage)
    (hparse : FilestoreFields.parse withMessage t.value = some f) :
    ∃ item, FilestoreItem.ofTlv withMessage t = some item ∧ item.fields = f := by
  obtain ⟨hvalid, hvalue⟩ := FilestoreFields.parse_eq_some.mp hparse
  have hshort : f.value.length ≤ 255 := by
    rw [← hvalue]
    exact t.short
  exact ⟨⟨f, hvalid, hshort⟩, FilestoreItem.ofTlv_eq_some.mpr (TlvItem.ext htype hvalue), rfl⟩

instance (f : FilestoreFields) (withMessage : Bool) : Decidable (f.Valid withMessage) :=
  decidable_of_iff (filestoreActionValid (actionOf f.octet) = true ∧
      f.second.isSome = filestoreActionHasSecondFilename (actionOf f.octet) ∧
      f.message.isSome = withMessage)
    ⟨fun h => ⟨h.1, h.2.1, h.2.2⟩, fun h => ⟨h.action, h.second, h.message⟩⟩

/-- The item with the given fields, if they are legal and fit. -/
def FilestoreItem.ofFields (withMessage : Bool) (f : FilestoreFields) :
    Option (FilestoreItem withMessage) :=
  if h : f.Valid withMessage ∧ f.value.length ≤ 255 then some ⟨f, h.1, h.2⟩ else none

theorem FilestoreItem.ofFields_eq_some {f : FilestoreFields} {item : FilestoreItem withMessage} :
    FilestoreItem.ofFields withMessage f = some item ↔ item.fields = f := by
  unfold FilestoreItem.ofFields
  constructor
  · intro h
    by_cases hf : f.Valid withMessage ∧ f.value.length ≤ 255
    · rw [dif_pos hf, Option.some.injEq] at h
      rw [← h]
    · rw [dif_neg hf] at h
      cases h
  · rintro rfl
    rw [dif_pos ⟨item.valid, item.short⟩]

def filestoreCodec (withMessage : Bool) : PrefixCodec UInt8 (FilestoreItem withMessage) :=
  tlvCodec.refine FilestoreItem.tlv (FilestoreItem.ofTlv withMessage) FilestoreItem.ofTlv_eq_some

theorem FilestoreItem.enc_eq (item : FilestoreItem withMessage) :
    (filestoreCodec withMessage).enc item = filestoreTlvType withMessage ::
      UInt8.ofNat item.fields.value.length :: item.fields.value := rfl

theorem FilestoreItem.length_enc (item : FilestoreItem withMessage) :
    ((filestoreCodec withMessage).enc item).length = item.fields.value.length + 2 := rfl

end FilestoreItem

end EmbeddedCfdp
