import EmbeddedCfdp.BitFields
import EmbeddedCfdp.CodecRules
import EmbeddedCfdp.TlvItems

/-!
# The LV and TLV serialisers refine the codecs

What each C argument stands for (`lvOf`, `tlvOf`, ...) and, for each serialiser, that
it writes exactly the encoding of that, or nothing when the argument stands for
nothing.
-/

namespace EmbeddedCfdp

open CMemory

variable {T : Target}

/-! ### LV objects -/

/-- The octets at a pointer, if it is not null where it must not be. -/
def lvOf (value : Option Ptr) (valueLen : UInt8) : Option Lv :=
  if value.isNone ∧ valueLen > 0 then none
  else some ⟨octetsAt value valueLen.toNat, by
    have := valueLen.toNat_lt
    have hle : (octetsAt value valueLen.toNat).length ≤ valueLen.toNat := by
      cases value with
      | none => simp
      | some p => exact List.length_take_le _ _
    omega⟩

theorem toNat_pos_iff {n : UInt8} : n > 0 ↔ n.toNat > 0 := UInt8.lt_iff_toNat_lt

theorem lvOf_eq_some {value : Option Ptr} {valueLen : UInt8} {v : Lv}
    (hr : Readable value valueLen.toNat) (h : lvOf value valueLen = some v) :
    ¬ (value.isNone ∧ valueLen.toNat > 0) ∧ v.octets = octetsAt value valueLen.toNat ∧
      v.octets.length = valueLen.toNat := by
  unfold lvOf at h
  by_cases hnull : value.isNone ∧ valueLen > 0
  · rw [if_pos hnull] at h
    cases h
  · rw [if_neg hnull, Option.some.injEq] at h
    subst h
    rw [toNat_pos_iff] at hnull
    exact ⟨hnull, rfl, length_octetsAt hr hnull⟩

theorem lvOf_isSome {value : Option Ptr} {valueLen : UInt8} :
    (∃ v, lvOf value valueLen = some v) ↔ (value = none → valueLen = 0) := by
  constructor
  · rintro ⟨v, hv⟩ hnull
    by_contra hne
    have hpos : valueLen > 0 := UInt8.pos_iff_ne_zero.mpr hne
    rw [lvOf, if_pos ⟨Option.isNone_iff_eq_none.mpr hnull, hpos⟩] at hv
    cases hv
  · intro hgiven
    have hpass : ¬ (value.isNone ∧ valueLen > 0) := by
      rintro ⟨hnull, hpos⟩
      rw [hgiven (Option.isNone_iff_eq_none.mp hnull)] at hpos
      exact absurd hpos (by decide)
    exact ⟨_, if_neg hpass⟩

theorem lvSerialize_encodes {value : Option Ptr} {valueLen : UInt8}
    (hr : Readable value valueLen.toNat) :
    Encodes (T := T) (fun i n => lvSerialize value valueLen (some i) n)
      ((lvOf value valueLen).map Lv.encode) := by
  constructor
  · intro e he
    obtain ⟨v, _, rfl⟩ := Option.map_eq_some_iff.mp he
    exact lvCodec.enc_ne_nil v
  · intro i len m hext
    have hlt := valueLen.toNat_lt
    have hcap : len < sz valueLen.toNat + sz CFDP_LV_HEADER_LEN ↔
        len.toNat < valueLen.toNat + 1 := by
      rw [sz_add]
      exact lt_sz_iff (size_lt T (by unfold CFDP_LV_HEADER_LEN; omega))
    unfold lvSerialize
    refine Outcome.guard_start ?_ fun hpass => ?_
    -- a null value with a length has no encoding, a short buffer no room for it
    · rintro hrefuse e he
      obtain ⟨v, hv, rfl⟩ := Option.map_eq_some_iff.mp he
      obtain ⟨hnull, _, hlen⟩ := lvOf_eq_some hr hv
      rw [← toNat_pos_iff] at hnull
      rw [Lv.length_encode, hlen]
      exact hcap.mp (hrefuse.resolve_left hnull)
    · rw [not_or, hcap] at hpass
      obtain ⟨hnull, hfits⟩ := hpass
      have hv : lvOf value valueLen = some _ := if_neg hnull
      obtain ⟨hnull, _, hlen⟩ := lvOf_eq_some hr hv
      -- the length, and the value where there is one
      refine Outcome.of_puts (Puts.congr (Puts.bind (Puts.store i valueLen)
        (Puts.copy toNat_pos_iff hnull hr rfl (Puts.pure _ _) fun _ => rfl) rfl) ?_ ?_)
        (by rw [hv, Option.map_some]) ?_ hext
      · rw [Lv.encode, hlen, UInt8.ofNat_toNat, List.append_nil, List.singleton_append]
      · rw [Lv.length_encode, hlen, sz_add, CFDP_LV_HEADER_LEN]
      · rw [Lv.length_encode, hlen]
        omega

/-! ### TLV objects -/

def tlvOf (tlv : Tlv) : Option TlvItem :=
  (lvOf tlv.value tlv.length).map fun v => ⟨tlv.type, v.octets, v.short⟩

theorem tlvSerialize_encodes {tlv : Tlv} (hr : Readable tlv.value tlv.length.toNat) :
    Encodes (T := T) (fun i n => tlvSerialize (some tlv) (some i) n)
      ((tlvOf tlv).map TlvItem.encode) := by
  constructor
  · intro e he
    obtain ⟨t, _, rfl⟩ := Option.map_eq_some_iff.mp he
    exact tlvCodec.enc_ne_nil t
  · intro i len m hext
    have hlt := tlv.length.toNat_lt
    have hcap : len < sz tlv.length.toNat + sz CFDP_TLV_HEADER_LEN ↔
        len.toNat < tlv.length.toNat + 2 := by
      rw [sz_add]
      exact lt_sz_iff (size_lt T (by unfold CFDP_TLV_HEADER_LEN; omega))
    unfold tlvSerialize
    refine Outcome.guard_start ?_ fun hpass => ?_
    -- a null value with a length has no encoding, a short buffer no room for it
    · rintro hrefuse e he
      obtain ⟨t, ht, rfl⟩ := Option.map_eq_some_iff.mp he
      obtain ⟨v, hv, rfl⟩ := Option.map_eq_some_iff.mp ht
      obtain ⟨hnull, _, hlen⟩ := lvOf_eq_some hr hv
      rw [← toNat_pos_iff] at hnull
      rw [TlvItem.length_encode, hlen]
      exact hcap.mp (hrefuse.resolve_left hnull)
    · rw [not_or, hcap] at hpass
      obtain ⟨hnull, hfits⟩ := hpass
      have hv : lvOf tlv.value tlv.length = some _ := if_neg hnull
      obtain ⟨hnull, _, hlen⟩ := lvOf_eq_some hr hv
      refine Outcome.of_puts (Puts.congr (Puts.bind (Puts.store i tlv.type)
        (Puts.bind (Puts.store (i + 1) tlv.length)
          (Puts.copy toNat_pos_iff hnull hr rfl (Puts.pure _ _) fun _ => rfl) rfl) rfl) ?_ ?_)
        (by rw [tlvOf, hv, Option.map_some, Option.map_some]) ?_ hext
      · rw [TlvItem.encode, hlen, UInt8.ofNat_toNat, List.append_nil, List.singleton_append,
          List.singleton_append]
      · rw [TlvItem.length_encode, hlen, sz_add, CFDP_TLV_HEADER_LEN]
      · rw [TlvItem.length_encode, hlen]
        omega

/-! ### Entity ID TLVs -/

def entityIdOf (entityId : UInt64) (idLen : UInt8) : Option EntityId :=
  if h : 1 ≤ idLen.toNat ∧ idLen.toNat ≤ 8 then
    some ⟨BigEndian.encode idLen.toNat entityId.toNat,
      by rw [BigEndian.length_encode]; exact h.1, by rw [BigEndian.length_encode]; exact h.2⟩
  else none

theorem entityIdOf_eq_some {entityId : UInt64} {idLen : UInt8} {id : EntityId}
    (h : entityIdOf entityId idLen = some id) :
    (1 ≤ idLen.toNat ∧ idLen.toNat ≤ 8) ∧
      id.octets = BigEndian.encode idLen.toNat entityId.toNat := by
  unfold entityIdOf at h
  by_cases hlen : 1 ≤ idLen.toNat ∧ idLen.toNat ≤ 8
  · rw [dif_pos hlen, Option.some.injEq] at h
    subst h
    exact ⟨hlen, rfl⟩
  · rw [dif_neg hlen] at h
    cases h

theorem EntityId.enc_eq (id : EntityId) : entityIdCodec.enc id =
    CFDP_TLV_ENTITY_ID.toUInt8 :: UInt8.ofNat id.octets.length :: id.octets := rfl

theorem EntityId.length_encode (id : EntityId) :
    (entityIdCodec.enc id).length = id.octets.length + 2 := rfl

theorem entityIdTlvSerialize_encodes (entityId : UInt64) (idLen : UInt8) :
    Encodes (T := T) (fun i n => entityIdTlvSerialize entityId idLen (some i) n)
      ((entityIdOf entityId idLen).map entityIdCodec.enc) := by
  constructor
  · intro e he
    obtain ⟨id, _, rfl⟩ := Option.map_eq_some_iff.mp he
    exact entityIdCodec.enc_ne_nil id
  · intro i len m hext
    have hlt := idLen.toNat_lt
    have hmin : idLen < CFDP_ID_LEN_MIN ↔ idLen.toNat < 1 := UInt8.lt_iff_toNat_lt
    have hmax : idLen > CFDP_ID_LEN_MAX ↔ 8 < idLen.toNat := UInt8.lt_iff_toNat_lt
    have hcap : len < sz idLen.toNat + sz CFDP_TLV_HEADER_LEN ↔ len.toNat < idLen.toNat + 2 := by
      rw [sz_add]
      exact lt_sz_iff (size_lt T (by unfold CFDP_TLV_HEADER_LEN; omega))
    unfold entityIdTlvSerialize
    refine Outcome.guard_start ?_ fun hpass => ?_
    -- refused for an id of no octets, of more than eight, or for want of room
    · rintro hrefuse e he
      obtain ⟨id, hid, rfl⟩ := Option.map_eq_some_iff.mp he
      obtain ⟨hlen, hoctets⟩ := entityIdOf_eq_some hid
      rw [EntityId.length_encode, hoctets, BigEndian.length_encode]
      rw [hmin, hmax, hcap] at hrefuse
      omega
    · rw [hmin, hmax, hcap] at hpass
      have hlen : 1 ≤ idLen.toNat ∧ idLen.toNat ≤ 8 := by omega
      obtain ⟨id, hid⟩ : ∃ id, entityIdOf entityId idLen = some id := ⟨_, dif_pos hlen⟩
      have hoctets := (entityIdOf_eq_some hid).2
      refine Outcome.of_puts (Puts.congr (Puts.bind (Puts.store i _)
        (Puts.bind (Puts.store (i + 1) idLen)
          (Puts.bind (writeUint_puts _ entityId idLen) (Puts.pure _ _) rfl) rfl) rfl) ?_ ?_)
        (by rw [hid, Option.map_some]) ?_ hext
      · rw [EntityId.enc_eq, hoctets, BigEndian.length_encode, UInt8.ofNat_toNat,
          List.append_nil, List.singleton_append, List.singleton_append]
      · rw [EntityId.length_encode, hoctets, BigEndian.length_encode, sz_add, CFDP_TLV_HEADER_LEN]
      · rw [EntityId.length_encode, hoctets, BigEndian.length_encode]
        omega

/-! ### Fault Handler Override TLVs -/

theorem le_fifteen_and {a : UInt32} (h : a ≤ 15) : a &&& 0xF = a := by
  have hnat : a.toNat ≤ 15 := UInt32.le_iff_toNat_le.mp h
  exact BitFields.and_mask_of_lt (k := 4) (by norm_num) (by omega)

/-- The packed octet is valid because the two codes are. -/
theorem faultHandlerOctetValid_pack {conditionCode : ConditionCode}
    {handlerCode : FaultHandlerCode} (hcondition : faultConditionValid conditionCode = true)
    (hhandler : faultHandlerValid handlerCode = true) :
    faultHandlerOctetValid
      (((conditionCode.toUInt8 &&& 0xF) <<< 4) ||| (handlerCode.toUInt8 &&& 0xF)) = true := by
  have hc : conditionCode ≤ 15 := by
    simp only [faultConditionValid, Bool.and_eq_true, decide_eq_true_eq] at hcondition
    exact UInt32.le_trans hcondition.2 (by decide)
  have hh : handlerCode ≤ 15 := by
    simp only [faultHandlerValid, Bool.and_eq_true, decide_eq_true_eq] at hhandler
    exact UInt32.le_trans hhandler.2 (by decide)
  unfold faultHandlerOctetValid
  rw [BitFields.high_nibble, BitFields.low_nibble, BitFields.toUInt32_toUInt8_and,
    BitFields.toUInt32_toUInt8_and]
  have hmask : (0xF : UInt8).toUInt32 = 0xF := rfl
  rw [hmask, le_fifteen_and hc, le_fifteen_and hh, hcondition, hhandler]
  rfl

def faultHandlerOf (conditionCode : ConditionCode) (handlerCode : FaultHandlerCode) :
    Option FaultHandlerOverride :=
  if h : faultConditionValid conditionCode = true ∧ faultHandlerValid handlerCode = true then
    some ⟨((conditionCode.toUInt8 &&& 0xF) <<< 4) ||| (handlerCode.toUInt8 &&& 0xF),
      faultHandlerOctetValid_pack h.1 h.2⟩
  else none

theorem faultHandlerTlvSerialize_encodes (conditionCode : ConditionCode)
    (handlerCode : FaultHandlerCode) :
    Encodes (T := T) (fun i n => faultHandlerTlvSerialize conditionCode handlerCode (some i) n)
      ((faultHandlerOf conditionCode handlerCode).map faultHandlerCodec.enc) := by
  constructor
  · intro e he
    obtain ⟨o, _, rfl⟩ := Option.map_eq_some_iff.mp he
    exact faultHandlerCodec.enc_ne_nil o
  · intro i len m hext
    have hcap : len < sz CFDP_TLV_HEADER_LEN + sz 1 ↔ len.toNat < 3 := by
      rw [sz_add]
      exact lt_sz_iff (size_lt T (by unfold CFDP_TLV_HEADER_LEN; omega))
    unfold faultHandlerTlvSerialize
    refine Outcome.guard_start ?_ fun hpass => ?_
    -- refused for want of room, or for a code that is not valid
    · rintro hrefuse e he
      obtain ⟨o, ho, rfl⟩ := Option.map_eq_some_iff.mp he
      obtain ⟨⟨hcondition, hhandler⟩, _⟩ := Option.dite_none_right_eq_some.mp ho
      rw [hcap] at hrefuse
      rcases hrefuse with h | h | h
      · exact h
      · exact (h hcondition).elim
      · exact (h hhandler).elim
    · rw [hcap, not_or, not_or, not_not, not_not] at hpass
      obtain ⟨hfits, hcondition, hhandler⟩ := hpass
      have ho : faultHandlerOf conditionCode handlerCode = some _ :=
        dif_pos ⟨hcondition, hhandler⟩
      refine Outcome.of_puts (Puts.congr (Puts.bind (Puts.store i _)
        (Puts.bind (Puts.store (i + 1) _) (Puts.bind (Puts.store (i + 2) _) (Puts.pure _ _) rfl)
          rfl) rfl) rfl ?_) (by rw [ho, Option.map_some]; rfl) ?_ hext
      · rw [sz_add]
        rfl
      · change 3 ≤ _
        omega

/-! ### Filestore TLVs -/

/-- One or two file names. -/
def namesOf (first : Option Ptr) (firstLen : UInt8) (second : Option Ptr) (secondLen : UInt8)
    (hasSecond : Bool) : Option (Lv × Option Lv) :=
  (lvOf first firstLen).bind fun v =>
    if hasSecond then (lvOf second secondLen).map fun v' => (v, some v') else some (v, none)

theorem filestoreNamesSerialize_encodes {first second : Option Ptr} {firstLen secondLen : UInt8}
    {hasSecond : Bool} (hfirst : Readable first firstLen.toNat)
    (hsecond : hasSecond = true → Readable second secondLen.toNat) :
    Encodes (T := T)
      (fun i n => filestoreNamesSerialize first firstLen second secondLen hasSecond i n)
      ((namesOf first firstLen second secondLen hasSecond).map namesEncode) := by
  constructor
  · intro e he
    obtain ⟨names, _, rfl⟩ := Option.map_eq_some_iff.mp he
    rintro ⟨⟩
  · intro i len m hext
    unfold filestoreNamesSerialize
    refine Outcome.start (j := i) (Outcome.bind_encodes (lvSerialize_encodes hfirst) rfl rfl
      (Nat.le_refl i) hext ?_ ?_)
    -- the first name is part of every encoding
    · rintro e he
      obtain ⟨names, hnames, rfl⟩ := Option.map_eq_some_iff.mp he
      obtain ⟨v, hv, hnames⟩ := Option.bind_eq_some_iff.mp hnames
      refine ⟨v.encode, by rw [hv, Option.map_some], ?_⟩
      have hfst : names.1 = v := by
        cases hasSecond with
        | false => rw [if_neg (by simp), Option.some.injEq] at hnames; rw [← hnames]
        | true =>
          rw [if_pos rfl] at hnames
          obtain ⟨v', _, rfl⟩ := Option.map_eq_some_iff.mp hnames
          rfl
      rw [namesEncode, hfst, List.length_append]
      omega
    · intro e' he' hle
      obtain ⟨v, hv, rfl⟩ := Option.map_eq_some_iff.mp he'
      -- the second name is written only for the actions that have one
      cases hasSecond with
      | false =>
        have hnames : namesOf first firstLen second secondLen false = some (v, none) := by
          rw [namesOf, hv]
          rfl
        rw [if_neg (by simp), hnames]
        refine Outcome.done ?_ hle rfl
        rw [Option.map_some, namesEncode, Lv.encodeOption, List.append_nil, List.nil_append]
      | true =>
        have hnames : namesOf first firstLen second secondLen true =
            (lvOf second secondLen).map fun v' => (v, some v') := by
          rw [namesOf, hv]
          rfl
        rw [if_pos rfl, hnames, Option.map_map]
        have hpos : (sz v.encode.length : Size T).toNat = v.encode.length :=
          toNat_sz (by have := len.isLt; omega)
        refine Outcome.bind (Puts.subW _ hle) rfl
          (by simp only [List.nil_append, List.length_nil]; omega) ?_
        rw [hpos, List.append_nil]
        refine Outcome.bind_encodes (lvSerialize_encodes (hsecond rfl)) rfl ?_ (Nat.le_refl i)
          hext ?_ ?_
        · rw [toNat_sz_sub]
          omega
        · rintro e he
          obtain ⟨v', hv', rfl⟩ := Option.map_eq_some_iff.mp he
          refine ⟨v'.encode, by rw [hv', Option.map_some], ?_⟩
          simp only [Function.comp_apply, namesEncode, Lv.encodeOption, List.length_append]
          omega
        · intro e' he' hle'
          obtain ⟨v', hv', rfl⟩ := Option.map_eq_some_iff.mp he'
          rw [toNat_sz_sub] at hle'
          refine Outcome.done ?_ ?_ ?_
          · rw [hv', Option.map_some, Function.comp_apply, namesEncode, Lv.encodeOption,
              List.nil_append]
          · rw [List.nil_append, List.length_append]
            omega
          · rw [List.nil_append, List.length_append, sz_add]

theorem namesOf_isSome {first second : Option Ptr} {firstLen secondLen : UInt8}
    {hasSecond : Bool} {names : Lv × Option Lv}
    (h : namesOf first firstLen second secondLen hasSecond = some names) :
    names.2.isSome = hasSecond := by
  obtain ⟨v, _, hnames⟩ := Option.bind_eq_some_iff.mp h
  cases hasSecond with
  | false =>
    rw [if_neg (by simp), Option.some.injEq] at hnames
    rw [← hnames]
    rfl
  | true =>
    rw [if_pos rfl] at hnames
    obtain ⟨v', _, rfl⟩ := Option.map_eq_some_iff.mp hnames
    rfl

/-- The type and length octets are written last, in front of the value. -/
theorem filestoreTlvFinish_outcome {enc : Option (List UInt8)} {m : Object} {i n : Nat}
    {type : TlvType} {value : List UInt8}
    (hshort : value.length ≤ 255 →
      enc = some (type.toUInt8 :: UInt8.ofNat value.length :: value))
    (hlong : 255 < value.length → enc = none) (hfits : value.length + 2 ≤ n)
    (hn : n < 2 ^ T.sizeBits) (hext : i + n ≤ m.extent) :
    Outcome enc m i n
      (filestoreTlvFinish i type (sz (value.length + 2) : Size T) (m.place (i + 2) value)) := by
  have hend : (sz (value.length + 2) : Size T).toNat = value.length + 2 := toNat_sz (by omega)
  have hcap : (sz ((sz (value.length + 2) : Size T).toNat - 2) : Size T) > sz 255 ↔
      255 < value.length := by
    rw [hend, Nat.add_sub_cancel]
    exact sz_lt_sz (size_lt T (by norm_num)) (by omega)
  unfold filestoreTlvFinish CFDP_TLV_HEADER_LEN
  refine Outcome.bind (Puts.subW _ (by omega)) rfl
    (by simp only [List.length_nil]; omega) ?_
  rw [List.append_nil]
  refine Outcome.guard (by omega) (by omega) ?_ fun hpass => ?_
  -- a value of more than 255 octets has no length octet
  · rintro hrefuse e he
    rw [hlong (hcap.mp hrefuse)] at he
    cases he
  · rw [hcap] at hpass
    -- type and length go in front of the value, which is there already
    refine Outcome.done_left (Puts.bind (Puts.store i _)
      (Puts.bind (Puts.store (i + 1) _) (Puts.pure _ _) rfl) rfl) rfl (by omega) ?_ ?_ ?_
    · rw [hshort (by omega), hend, Nat.add_sub_cancel, toNat_sz (by omega)]
      rfl
    · simp only [List.length_append, List.length_cons, List.length_nil]
      omega
    · simp only [List.length_append, List.length_cons, List.length_nil]
      rw [Nat.add_comm]

theorem FilestoreItem.finish_outcome {withMessage : Bool} {f : FilestoreFields} {m : Object}
    {i n : Nat} {type : TlvType} {w : List UInt8} (hvalid : f.Valid withMessage)
    (hw : w = f.value) (htype : type.toUInt8 = filestoreTlvType withMessage)
    (hfits : w.length + 2 ≤ n) (hn : n < 2 ^ T.sizeBits) (hext : i + n ≤ m.extent) :
    Outcome ((FilestoreItem.ofFields withMessage f).map (filestoreCodec withMessage).enc) m i n
      (filestoreTlvFinish i type (sz (w.length + 2) : Size T) (m.place (i + 2) w)) := by
  subst hw
  refine filestoreTlvFinish_outcome ?_ ?_ hfits hn hext
  · intro hshort
    rw [FilestoreItem.ofFields, dif_pos ⟨hvalid, hshort⟩, Option.map_some,
      FilestoreItem.enc_eq, htype]
  · intro hlong
    rw [FilestoreItem.ofFields, dif_neg (by omega), Option.map_none]

theorem actionOf_pack {action : FilestoreAction} (h : filestoreActionValid action = true)
    (b : UInt8) :
    actionOf (((action.toUInt8 &&& 0xF) <<< 4) ||| (b &&& 0xF)) = action := by
  have hle : action ≤ 15 := UInt32.le_trans (of_decide_eq_true h) (by decide)
  rw [actionOf, BitFields.high_nibble, BitFields.toUInt32_toUInt8_and]
  exact le_fifteen_and hle

def filestoreRequestOf (req : FilestoreRequest) : Option (FilestoreItem false) :=
  if filestoreActionValid req.actionCode then
    (namesOf req.firstFilename req.firstFilenameLen req.secondFilename req.secondFilenameLen
      (filestoreActionHasSecondFilename req.actionCode)).bind fun names =>
        FilestoreItem.ofFields false
          ⟨(req.actionCode.toUInt8 &&& 0xF) <<< 4, names.1, names.2, none⟩
  else none

/-- The source's promise about the pointers in a request. -/
structure FilestoreRequest.Sourced (req : FilestoreRequest) : Prop where
  first : Readable req.firstFilename req.firstFilenameLen.toNat
  second : NamesSecondFile req.actionCode →
    Readable req.secondFilename req.secondFilenameLen.toNat

theorem FilestoreRequest.Sourced.secondFilename {req : FilestoreRequest} (h : req.Sourced) :
    filestoreActionHasSecondFilename req.actionCode = true →
      Readable req.secondFilename req.secondFilenameLen.toNat :=
  fun hnames => h.second (filestoreActionHasSecondFilename_iff.mp hnames)

theorem filestoreRequestTlvSerialize_encodes {req : FilestoreRequest} (hreq : req.Sourced) :
    Encodes (T := T) (fun i n => filestoreRequestTlvSerialize (some req) (some i) n)
      ((filestoreRequestOf req).map (filestoreCodec false).enc) := by
  constructor
  · intro e he
    obtain ⟨item, _, rfl⟩ := Option.map_eq_some_iff.mp he
    exact (filestoreCodec false).enc_ne_nil item
  · intro i len m hext
    have hcap : len < sz CFDP_TLV_HEADER_LEN + sz 1 ↔ len.toNat < 3 := by
      rw [sz_add]
      exact lt_sz_iff (size_lt T (by unfold CFDP_TLV_HEADER_LEN; omega))
    have hheader : (sz CFDP_TLV_HEADER_LEN : Size T).toNat = 2 := toNat_sz_small (by decide)
    have hthree : (sz (CFDP_TLV_HEADER_LEN + 1) : Size T).toNat = 3 := toNat_sz_small (by decide)
    unfold filestoreRequestTlvSerialize
    dsimp only
    refine Outcome.guard_start ?_ fun hpass => ?_
    -- an action out of range has no encoding, a buffer of two octets no room
    · rintro hrefuse e he
      obtain ⟨item, hitem, rfl⟩ := Option.map_eq_some_iff.mp he
      obtain ⟨haction, _⟩ := Option.ite_none_right_eq_some.mp hitem
      have hsmall := hcap.mp (hrefuse.resolve_right (not_not.mpr haction))
      rw [FilestoreItem.length_enc, FilestoreFields.value, List.length_cons]
      omega
    · rw [hcap, not_or, not_not] at hpass
      obtain ⟨hfits, haction⟩ := hpass
      -- the names are written behind the action, and the TLV is closed at last
      rw [sz_add, hheader, hthree]
      refine Outcome.start (j := i + 2) (Outcome.bind (Puts.store _ _) rfl
        (by simp only [List.length_singleton]; omega) ?_)
      refine Outcome.bind (Puts.subW _ (by unfold CFDP_TLV_HEADER_LEN; omega)) rfl
        (by simp only [List.nil_append, List.length_singleton, List.length_nil]; omega) ?_
      refine Outcome.bind_encodes
        (filestoreNamesSerialize_encodes hreq.first hreq.secondFilename) rfl
        (by rw [toNat_sz_sub]; unfold CFDP_TLV_HEADER_LEN; omega) (by omega) hext ?_ ?_
      · rintro e he
        obtain ⟨item, hitem, rfl⟩ := Option.map_eq_some_iff.mp he
        obtain ⟨_, hitem⟩ := Option.ite_none_right_eq_some.mp hitem
        obtain ⟨names, hnames, hitem⟩ := Option.bind_eq_some_iff.mp hitem
        refine ⟨namesEncode names, by rw [hnames, Option.map_some], ?_⟩
        rw [FilestoreItem.length_enc, FilestoreItem.ofFields_eq_some.mp hitem]
        simp only [FilestoreFields.value, Prod.mk.eta, Lv.encodeOption, List.append_nil,
          List.length_cons]
        omega
      · rintro e' he' hle
        obtain ⟨names, hnames, rfl⟩ := Option.map_eq_some_iff.mp he'
        have henc : filestoreRequestOf req = FilestoreItem.ofFields false
            ⟨(req.actionCode.toUInt8 &&& 0xF) <<< 4, names.1, names.2, none⟩ := by
          rw [filestoreRequestOf, if_pos haction, hnames]
          rfl
        have hoctet := actionOf_pack haction 0
        rw [UInt8.zero_and, UInt8.or_zero] at hoctet
        rw [toNat_sz_sub] at hle
        rw [henc, sz_add, Nat.add_comm _ (namesEncode names).length]
        refine FilestoreItem.finish_outcome (w := [(req.actionCode.toUInt8 &&& 0xF) <<< 4] ++
          namesEncode names) ⟨?_, ?_, rfl⟩ ?_ rfl ?_ len.isLt hext
        · rw [hoctet, haction]
        · rw [hoctet, namesOf_isSome hnames]
        · simp [FilestoreFields.value, Lv.encodeOption]
        · unfold CFDP_TLV_HEADER_LEN at hle
          simp only [List.length_append, List.length_singleton]
          omega

def filestoreResponseOf (resp : FilestoreResponse) : Option (FilestoreItem true) :=
  if filestoreActionValid resp.actionCode then
    (namesOf resp.firstFilename resp.firstFilenameLen resp.secondFilename
      resp.secondFilenameLen (filestoreActionHasSecondFilename resp.actionCode)).bind fun names =>
        (lvOf resp.message resp.messageLen).bind fun message =>
          FilestoreItem.ofFields true
            ⟨((resp.actionCode.toUInt8 &&& 0xF) <<< 4) ||| (resp.statusCode.toUInt8 &&& 0xF),
              names.1, names.2, some message⟩
  else none

/-- The source's promise about the pointers in a response. -/
structure FilestoreResponse.Sourced (resp : FilestoreResponse) : Prop where
  first : Readable resp.firstFilename resp.firstFilenameLen.toNat
  second : NamesSecondFile resp.actionCode →
    Readable resp.secondFilename resp.secondFilenameLen.toNat
  message : Readable resp.message resp.messageLen.toNat

theorem FilestoreResponse.Sourced.secondFilename {resp : FilestoreResponse} (h : resp.Sourced) :
    filestoreActionHasSecondFilename resp.actionCode = true →
      Readable resp.secondFilename resp.secondFilenameLen.toNat :=
  fun hnames => h.second (filestoreActionHasSecondFilename_iff.mp hnames)

theorem filestoreResponseTlvSerialize_encodes {resp : FilestoreResponse}
    (hresp : resp.Sourced) :
    Encodes (T := T) (fun i n => filestoreResponseTlvSerialize (some resp) (some i) n)
      ((filestoreResponseOf resp).map (filestoreCodec true).enc) := by
  constructor
  · intro e he
    obtain ⟨item, _, rfl⟩ := Option.map_eq_some_iff.mp he
    exact (filestoreCodec true).enc_ne_nil item
  · intro i len m hext
    have hcap : len < sz CFDP_TLV_HEADER_LEN + sz 1 ↔ len.toNat < 3 := by
      rw [sz_add]
      exact lt_sz_iff (size_lt T (by unfold CFDP_TLV_HEADER_LEN; omega))
    have hheader : (sz CFDP_TLV_HEADER_LEN : Size T).toNat = 2 := toNat_sz_small (by decide)
    have hthree : (sz (CFDP_TLV_HEADER_LEN + 1) : Size T).toNat = 3 := toNat_sz_small (by decide)
    unfold filestoreResponseTlvSerialize
    dsimp only
    refine Outcome.guard_start ?_ fun hpass => ?_
    -- an action out of range has no encoding, a buffer of two octets no room
    · rintro hrefuse e he
      obtain ⟨item, hitem, rfl⟩ := Option.map_eq_some_iff.mp he
      obtain ⟨haction, _⟩ := Option.ite_none_right_eq_some.mp hitem
      have hsmall := hcap.mp (hrefuse.resolve_right (not_not.mpr haction))
      rw [FilestoreItem.length_enc, FilestoreFields.value, List.length_cons]
      omega
    · rw [hcap, not_or, not_not] at hpass
      obtain ⟨hfits, haction⟩ := hpass
      rw [sz_add, hheader, hthree]
      refine Outcome.start (j := i + 2) (Outcome.bind (Puts.store _ _) rfl
        (by simp only [List.length_singleton]; omega) ?_)
      refine Outcome.bind (Puts.subW _ (by unfold CFDP_TLV_HEADER_LEN; omega)) rfl
        (by simp only [List.nil_append, List.length_singleton, List.length_nil]; omega) ?_
      refine Outcome.bind_encodes
        (filestoreNamesSerialize_encodes hresp.first hresp.secondFilename) rfl
        (by rw [toNat_sz_sub]; unfold CFDP_TLV_HEADER_LEN; omega) (by omega) hext ?_ ?_
      · rintro e he
        obtain ⟨item, hitem, rfl⟩ := Option.map_eq_some_iff.mp he
        obtain ⟨_, hitem⟩ := Option.ite_none_right_eq_some.mp hitem
        obtain ⟨names, hnames, hitem⟩ := Option.bind_eq_some_iff.mp hitem
        obtain ⟨message, _, hitem⟩ := Option.bind_eq_some_iff.mp hitem
        refine ⟨namesEncode names, by rw [hnames, Option.map_some], ?_⟩
        rw [FilestoreItem.length_enc, FilestoreItem.ofFields_eq_some.mp hitem]
        simp only [FilestoreFields.value, Prod.mk.eta, List.length_append, List.length_cons]
        omega
      · rintro e' he' hle
        obtain ⟨names, hnames, rfl⟩ := Option.map_eq_some_iff.mp he'
        have hoctet := actionOf_pack haction resp.statusCode.toUInt8
        have henc : filestoreResponseOf resp =
            (lvOf resp.message resp.messageLen).bind fun message =>
              FilestoreItem.ofFields true
                ⟨((resp.actionCode.toUInt8 &&& 0xF) <<< 4) ||| (resp.statusCode.toUInt8 &&& 0xF),
                  names.1, names.2, some message⟩ := by
          rw [filestoreResponseOf, if_pos haction, hnames]
          rfl
        rw [toNat_sz_sub] at hle
        unfold CFDP_TLV_HEADER_LEN at hle ⊢
        have hpos : (sz (2 + 1 + (namesEncode names).length) : Size T).toNat =
            2 + 1 + (namesEncode names).length := toNat_sz (by have := len.isLt; omega)
        -- behind the names comes the message, on what is left of the buffer
        rw [henc, sz_add, hpos]
        refine Outcome.bind (Puts.subW (i + (2 + 1 + (namesEncode names).length)) (by omega))
          (by simp only [List.nil_append, List.append_nil, List.length_append,
            List.length_singleton]; omega)
          (by simp only [List.length_nil]; omega) ?_
        refine Outcome.bind_encodes (lvSerialize_encodes hresp.message)
          (by simp only [List.nil_append, List.append_nil, List.length_append,
            List.length_singleton]; omega)
          (by rw [toNat_sz_sub]; omega) (by omega) hext ?_ ?_
        · rintro e he
          obtain ⟨item, hitem, rfl⟩ := Option.map_eq_some_iff.mp he
          obtain ⟨message, hmessage, hitem⟩ := Option.bind_eq_some_iff.mp hitem
          refine ⟨message.encode, by rw [hmessage, Option.map_some], ?_⟩
          rw [FilestoreItem.length_enc, FilestoreItem.ofFields_eq_some.mp hitem]
          simp only [FilestoreFields.value, Prod.mk.eta, Lv.encodeOption, List.length_append,
            List.length_cons]
          omega
        · rintro e'' he'' hle'
          obtain ⟨message, hmessage, rfl⟩ := Option.map_eq_some_iff.mp he''
          rw [toNat_sz_sub] at hle'
          have hsize : 2 + 1 + (namesEncode names).length + message.encode.length =
              ([((resp.actionCode.toUInt8 &&& 0xF) <<< 4) ||| (resp.statusCode.toUInt8 &&& 0xF)] ++
                namesEncode names ++ message.encode).length + 2 := by
            simp only [List.length_append, List.length_singleton]
            omega
          rw [hmessage, Option.bind_some, sz_add, hsize]
          simp only [List.nil_append, List.append_nil]
          refine FilestoreItem.finish_outcome ⟨?_, ?_, ?_⟩ ?_ ?_ ?_ len.isLt hext
          · rw [hoctet, haction]
          · rw [hoctet, namesOf_isSome hnames]
          · rfl
          · simp [FilestoreFields.value, Lv.encodeOption]
          · rfl
          · omega

end EmbeddedCfdp
