import EmbeddedCfdp.DirectiveSerialise
import EmbeddedCfdp.TlvDeserialise

/-!
# The directive deserialisers refine pure decoders

For each File Directive, what a data field stands for, and that the deserialiser of
the library reports it.
-/

namespace EmbeddedCfdp

open CMemory

variable {T : Target} {p : Ptr} {xs : List UInt8} {len : Size T}

/-- What every directive deserialiser does first: `need` octets have to be there, the first of
    them the directive code. -/
theorem Decodes.directive {σ : Type} {need : Nat} {code : UInt8} {out : Option σ}
    {r : Except Fault (Size T × Option σ)} {d : Option (Nat × Option σ)} (h : p.Holds xs)
    (hlen : xs.length = len.toNat) (hpos : 0 < need) (hsmall : need < 65536)
    (hnone : ¬ (need ≤ xs.length ∧ xs.getD 0 0 = code) → d = none)
    (hpass : need ≤ xs.length → xs.getD 0 0 = code → Decodes r d) :
    Decodes (if len < sz need then pure (sz 0, out) else do
      let octet ← p.load 0
      if octet ≠ code then pure (sz 0, out) else r) d := by
  have hshort : len < sz need ↔ xs.length < need := by
    rw [lt_sz_iff (size_lt T hsmall), hlen]
  -- first the length is checked, then the directive code
  refine Decodes.guard ?_ fun hroom => ?_
  · rw [hshort]
    intro hroom
    exact hnone fun hand => Nat.not_le.mpr hroom hand.1
  · rw [hshort, Nat.not_lt] at hroom
    rw [h.load_getD (by omega), ok_bind]
    refine Decodes.guard ?_ fun hcode => ?_
    · intro hcode
      exact hnone fun hand => hcode hand.2
    · exact hpass hroom (not_not.mp hcode)

/-! ### EOF -/

/-- The fields in front of the fault location. -/
def eofFields (xs : List UInt8) (largeFileFlag : LargeFileFlag) : EofPdu :=
  ⟨((xs.getD 1 0 >>> 4) &&& 0xF).toUInt32, (uintAt xs 2 4).toUInt32,
    uintAt xs 6 (fileSizeOctets largeFileFlag).toNat, 0, 0⟩

def eofDecode (xs : List UInt8) (largeFileFlag : LargeFileFlag) : Option (Nat × EofPdu) :=
  let size := (fileSizeOctets largeFileFlag).toNat + 6
  let eof := eofFields xs largeFileFlag
  if size ≤ xs.length ∧ xs.getD 0 0 = CFDP_DIRECTIVE_EOF.toUInt8 then
    if xs.length = size then some (size, eof)
    else
      (entityIdCodec.dec (xs.drop size)).map fun r =>
        (size + (entityIdCodec.enc r.1).length, { eof with
          faultLocationEntityId := r.1.number
          faultLocationLen := UInt8.ofNat r.1.octets.length })
  else none

theorem EntityId.size_ne_zero (id : EntityId) :
    (sz (entityIdCodec.enc id).length : Size T) ≠ sz 0 := by
  have hmax := id.max
  rw [EntityId.length_encode]
  exact sz_ne_zero (by omega) (size_lt T (by omega))

theorem eofDeserialize_decodes (h : p.Holds xs) (hlen : xs.length = len.toNat)
    (largeFileFlag : LargeFileFlag) (eof : EofPdu) :
    Decodes (eofDeserialize (some p) len largeFileFlag (some eof))
      ((eofDecode xs largeFileFlag).map fun r => (r.1, some r.2)) := by
  obtain ⟨height, _⟩ := length_fileSizeOctets largeFileFlag
  have hsize : (sz ((fileSizeOctets largeFileFlag).toNat + 6) : Size T).toNat =
      (fileSizeOctets largeFileFlag).toNat + 6 := toNat_sz_small (by omega)
  have hfour : (4 : UInt8).toNat = 4 := rfl
  unfold eofDeserialize
  dsimp only
  rw [sz_add, hsize]
  refine Decodes.directive h hlen (by omega) (by omega) ?_ fun hroom hcode => ?_
  · intro hnot
    rw [eofDecode, if_neg hnot, Option.map_none]
  · rw [h.load_getD (by omega), ok_bind, readUint_add h (by rw [hfour]; omega), ok_bind,
      readUint_add h (by omega), ok_bind, hfour]
    have hdec : eofDecode xs largeFileFlag =
        if xs.length = (fileSizeOctets largeFileFlag).toNat + 6 then
          some ((fileSizeOctets largeFileFlag).toNat + 6, eofFields xs largeFileFlag)
        else
          (entityIdCodec.dec (xs.drop ((fileSizeOctets largeFileFlag).toNat + 6))).map fun r =>
            ((fileSizeOctets largeFileFlag).toNat + 6 + (entityIdCodec.enc r.1).length,
              { eofFields xs largeFileFlag with
                faultLocationEntityId := r.1.number
                faultLocationLen := UInt8.ofNat r.1.octets.length }) :=
      if_pos ⟨by omega, hcode⟩
    rw [hdec]
    -- nothing behind the file size: there is no fault location
    by_cases hexact : xs.length = (fileSizeOctets largeFileFlag).toNat + 6
    · have hlenEq : len = sz ((fileSizeOctets largeFileFlag).toNat + 6) := by
        rw [← hexact, hlen, sz_toNat]
      rw [if_pos hexact, if_pos hlenEq]
      exact Decodes.accept rfl
    · have hlenNe : ¬ len = sz ((fileSizeOctets largeFileFlag).toNat + 6) := by
        rw [eq_sz_iff (size_lt T (by omega)), ← hlen]
        exact hexact
      have hdrop : (xs.drop ((fileSizeOctets largeFileFlag).toNat + 6)).length =
          (sz (len.toNat - ((fileSizeOctets largeFileFlag).toNat + 6)) : Size T).toNat := by
        rw [toNat_sz_sub, List.length_drop, hlen]
      rw [if_neg hexact, if_neg hlenNe, sub_sz_left (by omega), ok_bind]
      -- anything else there has to start with an Entity ID TLV
      rcases (entityIdTlvDeserialize_decodes (h.drop _ (by omega)) hdrop 0 0).run with
        ⟨n, s, hd, hrun⟩ | ⟨hd, s, hrun⟩
      · obtain ⟨⟨id, rest⟩, hid, heq⟩ := Option.map_eq_some_iff.mp hd
        rw [Prod.mk.injEq] at heq
        obtain ⟨rfl, rfl⟩ := heq
        rw [hrun, ok_bind, hid, Option.map_some, Option.map_some]
        dsimp only [EntityId.view, Option.getD_some]
        rw [if_neg id.size_ne_zero, sz_add]
        exact Decodes.accept rfl
      · rw [hrun, ok_bind, Option.map_eq_none_iff.mp hd]
        dsimp only
        rw [if_pos rfl]
        exact Decodes.refuse rfl

/-! ### Finished -/

/-- What the loop over the TLVs of a Finished PDU has seen: the octets of TLVs read, how
    many of them belong to the span of responses, and the fault location. -/
@[ext] structure FinishedScan where
  pos : Nat
  responses : Nat
  faultLocation : Option EntityId

namespace FinishedScan

def start : FinishedScan := ⟨0, 0, none⟩

/-- One TLV: a response extends the span up to its end, unless a fault location has been
    seen; an Entity ID replaces the fault location. -/
def step (s : FinishedScan) (t : TlvItem) : Option FinishedScan :=
  let pos := s.pos + t.encode.length
  if t.type = CFDP_TLV_FILESTORE_RESPONSE.toUInt8 then
    if s.faultLocation.isSome then none else some ⟨pos, pos, none⟩
  else if t.type = CFDP_TLV_ENTITY_ID.toUInt8 then
    (EntityId.ofTlv t).map fun id => ⟨pos, s.responses, some id⟩
  else none

/-- What is reported for the TLVs behind the two octets at `p`. -/
def view (p : Ptr) (octet : UInt8) (s : FinishedScan) : FinishedPdu :=
  { conditionCode := ((octet >>> 4) &&& 0xF).toUInt32
    deliveryCode := ((octet >>> 2) &&& 0x1).toUInt32
    fileStatus := (octet &&& 0x3).toUInt32
    filestoreResponses := if s.responses = 0 then none else some (p.add 2)
    filestoreResponsesLen := UInt16.ofNat s.responses
    faultLocationEntityId := match s.faultLocation with
      | some id => id.number
      | none => 0
    faultLocationLen := match s.faultLocation with
      | some id => UInt8.ofNat id.octets.length
      | none => 0 }

theorem view_faultLocationLen (p : Ptr) (octet : UInt8) (s : FinishedScan) :
    (s.view p octet).faultLocationLen > 0 ↔ s.faultLocation.isSome = true := by
  rw [toNat_pos_iff]
  obtain ⟨pos, responses, faultLocation⟩ := s
  cases faultLocation with
  | none => exact iff_of_false (by simp [view]) (by simp)
  | some id =>
    have hmin := id.min
    have hmax := id.max
    have hlen : (UInt8.ofNat id.octets.length).toNat = id.octets.length :=
      toNat_ofNat_of_le (by omega)
    change (UInt8.ofNat id.octets.length).toNat > 0 ↔ _
    rw [hlen]
    exact iff_of_true (by omega) rfl

theorem step_pos {s s' : FinishedScan} {t : TlvItem} (h : step s t = some s') :
    s'.pos = s.pos + t.encode.length := by
  unfold step at h
  by_cases hresponse : t.type = CFDP_TLV_FILESTORE_RESPONSE.toUInt8
  · rw [if_pos hresponse] at h
    obtain ⟨_, h⟩ := Option.ite_none_left_eq_some.mp h
    rw [← Option.some.inj h]
  · rw [if_neg hresponse] at h
    obtain ⟨_, h⟩ := Option.ite_none_right_eq_some.mp h
    obtain ⟨id, _, rfl⟩ := Option.map_eq_some_iff.mp h
    rfl

end FinishedScan

def finishedDecode (xs : List UInt8) : Option FinishedScan :=
  if 2 ≤ xs.length ∧ xs.getD 0 0 = CFDP_DIRECTIVE_FINISHED.toUInt8 then
    tlvCodec.walk FinishedScan.step xs.length (xs.drop 2) FinishedScan.start
  else none

/-- One round of the loop, with the octets `ys` still to read. -/
theorem finishedParseTlvsLoop_round (hlen : xs.length = len.toNat) (octet : UInt8) (fuel : Nat)
    {ys : List UInt8} {s : FinishedScan} (h : (p.add (2 + s.pos)).Holds ys)
    (hrest : 2 + s.pos + ys.length = xs.length) (hne : ys ≠ []) :
    ((∀ t rest, TlvItem.decode ys = some (t, rest) → s.step t = none) ∧
      ∃ fin, finishedParseTlvsLoop p len (fuel + 1) (sz (2 + s.pos)) (s.view p octet) =
        .ok (sz 0, fin)) ∨
    ∃ t rest s', TlvItem.decode ys = some (t, rest) ∧ s.step t = some s' ∧
      finishedParseTlvsLoop p len (fuel + 1) (sz (2 + s.pos)) (s.view p octet) =
        finishedParseTlvsLoop p len fuel (sz (2 + s'.pos)) (s'.view p octet) := by
  have hlt := len.isLt
  have hsome := List.length_pos_of_ne_nil hne
  have hpos : (sz (2 + s.pos) : Size T).toNat = 2 + s.pos := toNat_sz (by omega)
  have hmore : ¬ ¬ (sz (2 + s.pos) : Size T) < len := by
    rw [not_not, sz_lt_iff (by omega)]
    omega
  have hlength : ys.length = (sz (len.toNat - (2 + s.pos)) : Size T).toNat := by
    rw [toNat_sz_sub]
    omega
  rw [finishedParseTlvsLoop, if_neg hmore]
  dsimp only
  rw [sub_sz_left (by omega), ok_bind, hpos]
  -- a round ends the loop with 0 unless it reads a TLV that is in place
  rcases tlvDeserialize_run h hlength default with ⟨hnone, v, hrun⟩ | ⟨t, rest, htlv, hys, hrun⟩
  · rw [hrun, ok_bind]
    dsimp only
    rw [if_pos rfl]
    refine Or.inl ⟨fun t rest hsome => ?_, _, rfl⟩
    rw [hnone] at hsome
    cases hsome
  · have hsize : s.pos + t.encode.length ≤ xs.length - 2 := by
      rw [hys, List.length_append] at hrest
      omega
    rw [hrun, ok_bind]
    dsimp only [Option.getD_some]
    rw [if_neg t.size_ne_zero, sz_add]
    by_cases hresponse : t.type = CFDP_TLV_FILESTORE_RESPONSE.toUInt8
    · have hstep : s.step t = if s.faultLocation.isSome then none else
          some ⟨s.pos + t.encode.length, s.pos + t.encode.length, none⟩ := if_pos hresponse
      have htype : ((t.view (p.add (2 + s.pos))).type = CFDP_TLV_FILESTORE_RESPONSE.toUInt8) :=
        hresponse
      rw [if_pos htype]
      -- no response may follow a fault location
      by_cases hfault : s.faultLocation.isSome = true
      · rw [if_pos ((s.view_faultLocationLen p octet).mpr hfault)]
        refine Or.inl ⟨fun t' rest' hsome => ?_, _, rfl⟩
        rw [htlv, Option.some.injEq, Prod.mk.injEq] at hsome
        rw [← hsome.1, hstep, if_pos hfault]
      · rw [if_neg (mt (s.view_faultLocationLen p octet).mp hfault)]
        rw [if_neg hfault] at hstep
        refine Or.inr ⟨t, rest, _, htlv, hstep, ?_⟩
        have hnone : s.faultLocation = none := by rwa [Bool.not_eq_true, Option.isSome_eq_false_iff,
          Option.isNone_iff_eq_none] at hfault
        have htwo : (sz 2 : Size T).toNat = 2 := toNat_sz_small (by omega)
        have hspan : 2 + s.pos + t.encode.length - 2 = s.pos + t.encode.length := by omega
        have hnonempty : ¬ s.pos + t.encode.length = 0 := by
          rw [TlvItem.length_encode]
          omega
        have hspanLen : (sz (s.pos + t.encode.length) : Size T).toNat = s.pos + t.encode.length :=
          toNat_sz (by omega)
        rw [sub_sz (by omega) (by omega), ok_bind, hspan, hspanLen, htwo, Nat.add_assoc]
        simp only [FinishedScan.view, hnone, if_neg hnonempty]
    · have hstep : s.step t = if t.type = CFDP_TLV_ENTITY_ID.toUInt8 then
          (EntityId.ofTlv t).map fun id => ⟨s.pos + t.encode.length, s.responses, some id⟩
          else none := if_neg hresponse
      have hother : ¬ (t.view (p.add (2 + s.pos))).type = CFDP_TLV_FILESTORE_RESPONSE.toUInt8 :=
        hresponse
      rw [if_neg hother]
      -- of all other types only the Entity ID is known
      by_cases hentity : t.type = CFDP_TLV_ENTITY_ID.toUInt8
      · have htype : (t.view (p.add (2 + s.pos))).type = CFDP_TLV_ENTITY_ID.toUInt8 := hentity
        rw [if_pos hentity] at hstep
        rw [if_pos htype, ok_bind]
        have hdec : entityIdCodec.dec ys = (EntityId.ofTlv t).map fun id => (id, rest) := by
          change ((TlvItem.decode ys).bind fun r =>
            (EntityId.ofTlv r.1).map fun id => (id, r.2)) = _
          rw [htlv, Option.bind_some]
        rcases (entityIdTlvDeserialize_decodes h hlength (s.view p octet).faultLocationEntityId
            (s.view p octet).faultLocationLen).run with ⟨n, v, hd, hrun'⟩ | ⟨hd, v, hrun'⟩
        · obtain ⟨⟨id, rest'⟩, hid, heq⟩ := Option.map_eq_some_iff.mp hd
          rw [hdec] at hid
          obtain ⟨id', hid', hpair⟩ := Option.map_eq_some_iff.mp hid
          rw [Prod.mk.injEq] at heq hpair
          obtain ⟨rfl, rfl⟩ := heq
          obtain ⟨rfl, rfl⟩ := hpair
          rw [hid', Option.map_some] at hstep
          refine Or.inr ⟨t, rest, _, htlv, hstep, ?_⟩
          rw [hrun', ok_bind]
          dsimp only [EntityId.view, Option.getD_some]
          rw [if_neg id'.size_ne_zero, Nat.add_assoc]
          rfl
        · rw [hrun', ok_bind]
          dsimp only
          rw [if_pos rfl]
          refine Or.inl ⟨fun t' rest' hsome => ?_, _, rfl⟩
          rw [htlv, Option.some.injEq, Prod.mk.injEq] at hsome
          rw [hdec, Option.map_eq_none_iff, Option.map_eq_none_iff] at hd
          rw [← hsome.1, hstep, hd, Option.map_none]
      · have htype : ¬ (t.view (p.add (2 + s.pos))).type = CFDP_TLV_ENTITY_ID.toUInt8 := hentity
        rw [if_neg htype]
        refine Or.inl ⟨fun t' rest' hsome => ?_, _, rfl⟩
        rw [htlv, Option.some.injEq, Prod.mk.injEq] at hsome
        rw [← hsome.1, hstep, if_neg hentity]

/-- The test of the loop condition when everything has been read. -/
theorem finishedParseTlvsLoop_end (hlen : xs.length = len.toNat) (octet : UInt8) (fuel : Nat)
    {s : FinishedScan} (hrest : 2 + s.pos + ([] : List UInt8).length = xs.length) :
    Decodes (finishedParseTlvsLoop p len (fuel + 1) (sz (2 + s.pos)) (s.view p octet))
      ((tlvCodec.walk FinishedScan.step fuel [] s).map fun s' => (xs.length, s'.view p octet)) := by
  have hlt := len.isLt
  rw [List.length_nil, Nat.add_zero] at hrest
  have hdone : ¬ (sz (2 + s.pos) : Size T) < len := by
    rw [sz_lt_iff (by omega)]
    omega
  have hwalk : tlvCodec.walk FinishedScan.step fuel [] s = some s := by
    cases fuel <;> rfl
  rw [finishedParseTlvsLoop, if_pos hdone, hwalk, hrest]
  exact Decodes.accept rfl

/-- The loop behind the TLVs that led to `s`, with the octets `ys` still to read. -/
theorem finishedParseTlvsLoop_decodes (hlen : xs.length = len.toNat) (octet : UInt8) {fuel : Nat}
    {ys : List UInt8} {s : FinishedScan} (h : (p.add (2 + s.pos)).Holds ys)
    (hrest : 2 + s.pos + ys.length = xs.length) (hfuel : ys.length ≤ fuel) :
    Decodes (finishedParseTlvsLoop p len (fuel + 1) (sz (2 + s.pos)) (s.view p octet))
      ((tlvCodec.walk FinishedScan.step fuel ys s).map fun s' => (xs.length, s'.view p octet)) := by
  have hlt := len.isLt
  induction fuel generalizing ys s with
  | zero =>
    have hnil : ys = [] := List.eq_nil_of_length_eq_zero (by omega)
    subst hnil
    exact finishedParseTlvsLoop_end hlen octet 0 hrest
  | succ fuel ih =>
    cases ys with
    | nil => exact finishedParseTlvsLoop_end hlen octet (fuel + 1) hrest
    | cons y ys =>
      rw [PrefixCodec.walk]
      -- the round and the step of the walk agree, and so do the rest of both
      rcases finishedParseTlvsLoop_round hlen octet (fuel + 1) h hrest (List.cons_ne_nil _ _) with
        ⟨hstuck, fin, hrun⟩ | ⟨t, rest, s', htlv, hstep, hrun⟩
      · rw [hrun]
        refine Decodes.refuse ?_
        cases hdec : tlvCodec.dec (y :: ys) with
        | none => rfl
        | some r =>
          simp only [hstuck r.1 r.2 hdec]
          rfl
      · have hys : y :: ys = t.encode ++ rest := TlvItem.decode_eq_some.mp htlv
        have hpos := FinishedScan.step_pos hstep
        have hlens : (y :: ys).length = t.encode.length + rest.length := by
          rw [hys, List.length_append]
        have hdec : tlvCodec.dec (y :: ys) = some (t, rest) := htlv
        simp only [hdec, hstep]
        rw [hrun]
        rw [hys] at h
        have hholds := h.right
        rw [Ptr.add_add, Nat.add_assoc, ← hpos] at hholds
        exact ih hholds (by omega) (by rw [TlvItem.length_encode] at hlens; omega)

theorem finishedParseTlvs_decodes (h : p.Holds xs) (hlen : xs.length = len.toNat)
    (htwo : 2 ≤ xs.length) (octet : UInt8) :
    Decodes (finishedParseTlvs p len (FinishedScan.start.view p octet))
      ((tlvCodec.walk FinishedScan.step xs.length (xs.drop 2) FinishedScan.start).map
        fun s => (xs.length, s.view p octet)) := by
  have hrest : 2 + FinishedScan.start.pos + (xs.drop 2).length = xs.length := by
    rw [List.length_drop]
    change 2 + 0 + (xs.length - 2) = xs.length
    omega
  rw [finishedParseTlvs, ← hlen]
  exact finishedParseTlvsLoop_decodes hlen octet (h.drop 2 htwo) hrest
    (by rw [List.length_drop]; omega)

theorem finishedDeserialize_decodes (h : p.Holds xs) (hlen : xs.length = len.toNat)
    (fin : FinishedPdu) :
    Decodes (finishedDeserialize (some p) len (some fin))
      ((finishedDecode xs).map fun s => (xs.length, some (s.view p (xs.getD 1 0)))) := by
  unfold finishedDeserialize
  refine Decodes.directive h hlen (by omega) (by omega) ?_ fun hroom hcode => ?_
  · intro hnot
    rw [finishedDecode, if_neg hnot, Option.map_none]
  · have hdec : finishedDecode xs =
        tlvCodec.walk FinishedScan.step xs.length (xs.drop 2) FinishedScan.start :=
      if_pos ⟨by omega, hcode⟩
    rw [h.load_getD (by omega), ok_bind, hdec]
    change Decodes (finishedParseTlvs p len (FinishedScan.start.view p (xs.getD 1 0)) >>= _) _
    -- what the loop says about the TLVs is what is returned
    rcases (finishedParseTlvs_decodes h hlen (by omega) (xs.getD 1 0)).run with
      ⟨n, v, hd, hrun⟩ | ⟨hd, v, hrun⟩
    · obtain ⟨s, hs, heq⟩ := Option.map_eq_some_iff.mp hd
      rw [Prod.mk.injEq] at heq
      obtain ⟨rfl, rfl⟩ := heq
      rw [hrun, ok_bind, hs, Option.map_some]
      exact Decodes.accept rfl
    · rw [hrun, ok_bind, Option.map_eq_none_iff.mp hd, Option.map_none]
      exact Decodes.refuse rfl

/-! ### ACK -/

/-- The acknowledged directive, in the high nibble of the second octet. -/
def ackedDirective (xs : List UInt8) : DirectiveCode := ((xs.getD 1 0 >>> 4) &&& 0xF).toUInt32

def ackDecode (xs : List UInt8) : Option AckPdu :=
  if 3 ≤ xs.length ∧ xs.getD 0 0 = CFDP_DIRECTIVE_ACK.toUInt8 ∧
      ackDirectiveValid (ackedDirective xs) = true ∧
      xs.getD 1 0 &&& 0xF = ackDirectiveSubtype (ackedDirective xs) then
    some ⟨ackedDirective xs, ((xs.getD 2 0 >>> 4) &&& 0xF).toUInt32,
      (xs.getD 2 0 &&& 0x3).toUInt32⟩
  else none

theorem ackDeserialize_decodes (h : p.Holds xs) (hlen : xs.length = len.toNat) (ack : AckPdu) :
    Decodes (ackDeserialize (some p) len (some ack))
      ((ackDecode xs).map fun pdu => (3, some pdu)) := by
  unfold ackDeserialize
  refine Decodes.directive h hlen (by omega) (by omega) ?_ fun hroom hcode => ?_
  · intro hnot
    rw [ackDecode, if_neg (fun hand => hnot ⟨hand.1, hand.2.1⟩), Option.map_none]
  · rw [h.load_getD (by omega), ok_bind]
    refine Decodes.guard ?_ fun hvalid => ?_
    · rintro (hinvalid | hsubtype)
      · rw [ackDecode, if_neg (fun hand => hinvalid hand.2.2.1), Option.map_none]
      · rw [ackDecode, if_neg (fun hand => hsubtype hand.2.2.2), Option.map_none]
    · rw [not_or, not_not, not_not] at hvalid
      rw [h.load_getD (by omega), ok_bind, ackDecode,
        if_pos ⟨by omega, hcode, hvalid.1, hvalid.2⟩]
      exact Decodes.accept rfl

/-! ### Metadata -/

/-- The two file names, and the options that remain. -/
structure MetadataFields where
  source : Lv
  destination : Lv
  options : List UInt8

def metadataDecode (xs : List UInt8) (largeFileFlag : LargeFileFlag) : Option MetadataFields :=
  let start := (fileSizeOctets largeFileFlag).toNat + 2
  if start ≤ xs.length ∧ xs.getD 0 0 = CFDP_DIRECTIVE_METADATA.toUInt8 then
    (Lv.decode (xs.drop start)).bind fun r =>
      (Lv.decode r.2).map fun r' => ⟨r.1, r'.1, r'.2⟩
  else none

/-- Where the options start. -/
def MetadataFields.optionsStart (largeFileFlag : LargeFileFlag) (f : MetadataFields) : Nat :=
  2 + (fileSizeOctets largeFileFlag).toNat + f.source.encode.length + f.destination.encode.length

/-- What is reported for the Metadata PDU `xs` at `p`. -/
def MetadataFields.view (p : Ptr) (xs : List UInt8) (largeFileFlag : LargeFileFlag)
    (f : MetadataFields) : MetadataPdu :=
  let start := 2 + (fileSizeOctets largeFileFlag).toNat
  { closureRequested := ((xs.getD 1 0 >>> 6) &&& 0x1) ≠ 0
    checksumType := (xs.getD 1 0 &&& 0xF).toUInt32
    fileSize := uintAt xs 2 (fileSizeOctets largeFileFlag).toNat
    sourceFilename := (f.source.field p start).1
    sourceFilenameLen := (f.source.field p start).2
    destinationFilename := (f.destination.field p (start + f.source.encode.length)).1
    destinationFilenameLen := (f.destination.field p (start + f.source.encode.length)).2
    options := spanAt p (f.optionsStart largeFileFlag) f.options
    optionsLen := UInt16.ofNat f.options.length }

theorem metadataDeserialize_decodes (h : p.Holds xs) (hlen : xs.length = len.toNat)
    (largeFileFlag : LargeFileFlag) (md : MetadataPdu) :
    Decodes (metadataDeserialize (some p) len largeFileFlag (some md))
      ((metadataDecode xs largeFileFlag).map fun f =>
        (xs.length, some (f.view p xs largeFileFlag))) := by
  obtain ⟨height, _⟩ := length_fileSizeOctets largeFileFlag
  have hlt := len.isLt
  unfold metadataDeserialize
  dsimp only
  rw [sz_add]
  refine Decodes.directive h hlen (by omega) (by omega) ?_ fun hroom hcode => ?_
  · intro hnot
    rw [metadataDecode, if_neg (fun hand => hnot ⟨by omega, hand.2⟩), Option.map_none]
  · have htwo : (sz 2 : Size T).toNat = 2 := toNat_sz_small (by omega)
    have hdec : metadataDecode xs largeFileFlag =
        (Lv.decode (xs.drop (2 + (fileSizeOctets largeFileFlag).toNat))).bind fun r =>
          (Lv.decode r.2).map fun r' => ⟨r.1, r'.1, r'.2⟩ := by
      rw [Nat.add_comm 2]
      exact if_pos ⟨by omega, hcode⟩
    generalize hstart : 2 + (fileSizeOctets largeFileFlag).toNat = start at hdec
    have hstartLen : (sz start : Size T).toNat = start := toNat_sz_small (by omega)
    have hdrop : (xs.drop start).length = (sz (len.toNat - start) : Size T).toNat := by
      rw [toNat_sz_sub, List.length_drop, hlen]
    rw [h.load_getD (by omega), ok_bind, htwo, readUint_add h (by omega), ok_bind, sz_add,
      hstart, sub_sz_left (by omega), ok_bind, hstartLen, hdec]
    -- the source name is cut off, or the destination name follows it
    rcases lvDeserialize_run (h.drop start (by omega)) hdrop md.sourceFilename
        md.sourceFilenameLen with ⟨hnone, v, hrun⟩ | ⟨source, rest, hsource, hsplit, hrun⟩
    · rw [hrun, ok_bind, hnone]
      dsimp only
      rw [if_pos rfl]
      exact Decodes.refuse rfl
    · have hlens : (xs.drop start).length = source.encode.length + rest.length := by
        rw [hsplit, List.length_append]
      rw [List.length_drop] at hlens
      have hpos : (sz (start + source.encode.length) : Size T).toNat =
          start + source.encode.length := toNat_sz (by omega)
      have hrest : rest.length =
          (sz (len.toNat - (start + source.encode.length)) : Size T).toNat := by
        rw [toNat_sz_sub]
        omega
      have hholds := h.drop start (by omega)
      rw [hsplit] at hholds
      have hholdsRest := hholds.right
      rw [Ptr.add_add] at hholdsRest
      rw [hrun, ok_bind, hsource, Option.bind_some]
      dsimp only [Lv.view, Option.getD_some]
      rw [if_neg source.size_ne_zero, sz_add, sub_sz_left (by omega), ok_bind, hpos]
      -- whatever is left behind the destination name are the options
      rcases lvDeserialize_run hholdsRest hrest md.destinationFilename
          md.destinationFilenameLen with
        ⟨hnone, v, hrun'⟩ | ⟨destination, options, hdestination, hsplit', hrun'⟩
      · rw [hrun', ok_bind, hnone]
        dsimp only
        rw [if_pos rfl]
        exact Decodes.refuse rfl
      · have hlens' : rest.length = destination.encode.length + options.length := by
          rw [hsplit', List.length_append]
        have hspan := @spanAt_of_rest T p options
          (start + source.encode.length + destination.encode.length) len (by omega)
        have hoptions : len.toNat - (start + source.encode.length + destination.encode.length) =
            options.length := by omega
        have hself : (sz xs.length : Size T) = len := by rw [hlen, sz_toNat]
        rw [hrun', ok_bind, hdestination]
        dsimp only [Lv.view, Option.getD_some]
        rw [if_neg destination.size_ne_zero, sz_add, sub_sz_left (by omega), ok_bind, hspan,
          toNat_sz_sub, hoptions]
        conv_lhs => rw [← hself]
        refine Decodes.accept ?_
        rw [Option.map_some, Option.map_some, MetadataFields.view, MetadataFields.optionsStart,
          hstart, Lv.field_add, Lv.field_add, Nat.add_zero, Nat.add_zero]

/-! ### NAK -/

section Nak

variable {N : NakCapacity T}

/-- `count` segment requests from index `k` on. -/
def parseRequests (xs : List UInt8) (fs : UInt8) : (count k : Nat) → List SegmentRequest
  | 0, _ => []
  | count + 1, k =>
      ⟨uintAt xs k fs.toNat, uintAt xs (k + fs.toNat) fs.toNat⟩ ::
        parseRequests xs fs count (k + 2 * fs.toNat)

/-- The array with the elements from index `i` on overwritten. -/
def setRequests {n : Nat} (requests : Vector SegmentRequest n) :
    (i : Nat) → List SegmentRequest → Vector SegmentRequest n
  | _, [] => requests
  | i, r :: rs => setRequests (if h : i < n then requests.set i r else requests) (i + 1) rs

structure NakFields where
  startOfScope : UInt64
  endOfScope : UInt64
  requests : List SegmentRequest

/-- The requests fill the data field, and there are at most as many as fit the array. -/
def nakDecode (xs : List UInt8) (largeFileFlag : LargeFileFlag) (max : Nat) : Option NakFields :=
  let fs := fileSizeOctets largeFileFlag
  let rest := xs.length - (1 + 2 * fs.toNat)
  if 1 + 2 * fs.toNat ≤ xs.length ∧ xs.getD 0 0 = CFDP_DIRECTIVE_NAK.toUInt8 ∧
      rest % (2 * fs.toNat) = 0 ∧ rest / (2 * fs.toNat) ≤ max then
    some ⟨uintAt xs 1 fs.toNat, uintAt xs (1 + fs.toNat) fs.toNat,
      parseRequests xs fs (rest / (2 * fs.toNat)) (1 + 2 * fs.toNat)⟩
  else none

/-- What is reported in the object `nak`: elements behind the requests keep their values. -/
def NakFields.view (nak : NakPdu N) (f : NakFields) : NakPdu N :=
  { startOfScope := f.startOfScope
    endOfScope := f.endOfScope
    segmentRequests := setRequests nak.segmentRequests 0 f.requests
    segmentRequestCount := sz f.requests.length }

theorem length_parseRequests (xs : List UInt8) (fs : UInt8) (count k : Nat) :
    (parseRequests xs fs count k).length = count := by
  induction count generalizing k with
  | zero => rfl
  | succ count ih => rw [parseRequests, List.length_cons, ih]

/-- The loop reads `left` requests from index `base + k` on, at `k` behind its buffer. -/
theorem nakParseLoop_run (h : p.Holds xs) {base left i k : Nat} {fs : UInt8} {nak : NakPdu N}
    (hroom : base + k + left * (2 * fs.toNat) ≤ xs.length)
    (hfits : k + left * (2 * fs.toNat) < 2 ^ T.sizeBits) (hmax : i + left ≤ N.max) :
    nakParseLoop (p.add base) fs left i (sz k) nak =
      .ok (sz (k + left * (2 * fs.toNat)), { nak with
        segmentRequests :=
          setRequests nak.segmentRequests i (parseRequests xs fs left (base + k))
        segmentRequestCount := nak.segmentRequestCount + sz left }) := by
  induction left generalizing i k nak with
  | zero =>
    have hzero : nak.segmentRequestCount + sz 0 = nak.segmentRequestCount := BitVec.add_zero _
    rw [parseRequests, setRequests, hzero, Nat.zero_mul]
    rfl
  | succ left ih =>
    have hstep : (left + 1) * (2 * fs.toNat) = 2 * fs.toNat + left * (2 * fs.toNat) := by ring
    rw [hstep] at hroom hfits ⊢
    have hi : i < N.max := by omega
    have hk : (sz k : Size T).toNat = k := toNat_sz (by omega)
    have hk' : (sz (k + fs.toNat) : Size T).toNat = k + fs.toNat := toNat_sz (by omega)
    rw [nakParseLoop]
    dsimp only
    rw [hk, sz_add, hk', sz_add, Ptr.add_add, Ptr.add_add, readUint_add h (by omega), ok_bind,
      readUint_add h (by omega), ok_bind, arraySet, dif_pos hi, ok_bind, ih (by omega) (by omega)
        (by omega), parseRequests, setRequests, dif_pos hi]
    -- each request takes two offsets and one place of the array
    have hnext : k + fs.toNat + fs.toNat = k + 2 * fs.toNat := by omega
    have hcount : (sz 1 : Size T) + sz left = sz (left + 1) := by rw [sz_add, Nat.add_comm]
    simp only [hnext, Nat.add_assoc, BitVec.add_assoc, hcount]

theorem nakParseSegmentRequests_run (h : p.Holds xs) {base : Nat} {rest : Size T} {fs : UInt8}
    (hrest : base + rest.toNat = xs.length) (hfs : 0 < fs.toNat ∧ fs.toNat ≤ 8) (nak : NakPdu N) :
    nakParseSegmentRequests (p.add base) rest fs nak = .ok
      (if rest.toNat % (2 * fs.toNat) = 0 ∧ rest.toNat / (2 * fs.toNat) ≤ N.max then
        (rest, { nak with
          segmentRequests := setRequests nak.segmentRequests 0
            (parseRequests xs fs (rest.toNat / (2 * fs.toNat)) base)
          segmentRequestCount := sz (rest.toNat / (2 * fs.toNat)) })
      else (sz 0, nak)) := by
  have hlt := rest.isLt
  have hmaxFits := N.fits
  have hpair : (sz (2 * fs.toNat) : Size T).toNat = 2 * fs.toNat := toNat_sz_small (by omega)
  have hcount : (rest / sz (2 * fs.toNat)).toNat = rest.toNat / (2 * fs.toNat) := by
    rw [BitVec.toNat_udiv, hpair]
  have hremainder : rest % sz (2 * fs.toNat) = sz 0 ↔ rest.toNat % (2 * fs.toNat) = 0 := by
    rw [eq_sz_iff (size_lt T (by omega)), BitVec.toNat_umod, hpair]
  have hmany : rest / sz (2 * fs.toNat) > sz N.max ↔ N.max < rest.toNat / (2 * fs.toNat) := by
    rw [gt_iff_lt, sz_lt_iff (by omega), hcount]
  unfold nakParseSegmentRequests
  dsimp only
  rw [sz_mul]
  -- a whole number of requests, and no more than the array holds
  by_cases hvalid : rest.toNat % (2 * fs.toNat) = 0 ∧ rest.toNat / (2 * fs.toNat) ≤ N.max
  · have hexact : rest.toNat / (2 * fs.toNat) * (2 * fs.toNat) = rest.toNat :=
      Nat.div_mul_cancel (Nat.dvd_of_mod_eq_zero hvalid.1)
    have hpass : ¬ (rest % sz (2 * fs.toNat) ≠ sz 0 ∨ rest / sz (2 * fs.toNat) > sz N.max) := by
      rw [hmany, not_or, not_not, hremainder]
      exact ⟨hvalid.1, Nat.not_lt.mpr hvalid.2⟩
    have hzero : (sz 0 : Size T) + sz (rest.toNat / (2 * fs.toNat)) =
        sz (rest.toNat / (2 * fs.toNat)) := BitVec.zero_add _
    rw [if_neg hpass, if_pos hvalid, hcount,
      nakParseLoop_run h (by omega) (by omega) (by omega), Nat.zero_add, hexact, sz_toNat]
    simp only [hzero, Nat.add_zero]
  · have hrefuse : rest % sz (2 * fs.toNat) ≠ sz 0 ∨ rest / sz (2 * fs.toNat) > sz N.max := by
      rw [hmany, Ne, hremainder]
      omega
    rw [if_pos hrefuse, if_neg hvalid]
    rfl

theorem nakDeserialize_decodes (h : p.Holds xs) (hlen : xs.length = len.toNat)
    (largeFileFlag : LargeFileFlag) (nak : NakPdu N) :
    Decodes (nakDeserialize (some p) len largeFileFlag (some nak))
      ((nakDecode xs largeFileFlag N.max).map fun f => (xs.length, some (f.view nak))) := by
  obtain ⟨height, hfour⟩ := length_fileSizeOctets largeFileFlag
  have hlt := len.isLt
  unfold nakDeserialize nakDecode
  dsimp only
  generalize fileSizeOctets largeFileFlag = fs at height hfour ⊢
  rw [sz_mul, sz_add, sz_add, sz_add]
  refine Decodes.directive h hlen (by omega) (by omega) ?_ fun hroom hcode => ?_
  · intro hnot
    rw [if_neg (fun hand => hnot ⟨hand.1, hand.2.1⟩), Option.map_none]
  · have hone : (sz 1 : Size T).toNat = 1 := toNat_sz_small (by omega)
    have hsecond : (sz (1 + fs.toNat) : Size T).toNat = 1 + fs.toNat := toNat_sz_small (by omega)
    have hdouble : 1 + fs.toNat + fs.toNat = 1 + 2 * fs.toNat := by omega
    have hstart : (sz (1 + 2 * fs.toNat) : Size T).toNat = 1 + 2 * fs.toNat :=
      toNat_sz_small (by omega)
    have hrest : (sz (len.toNat - (1 + 2 * fs.toNat)) : Size T).toNat =
        xs.length - (1 + 2 * fs.toNat) := by
      rw [toNat_sz_sub, hlen]
    rw [hone, readUint_add h (by omega), ok_bind, hsecond, readUint_add h (by omega), ok_bind,
      hdouble, sub_sz_left (by omega), ok_bind, hstart,
      nakParseSegmentRequests_run h (by rw [hrest]; omega) (by omega), ok_bind, hrest]
    have hexact : len = sz (1 + 2 * fs.toNat) ↔ xs.length = 1 + 2 * fs.toNat := by
      rw [eq_sz_iff (size_lt T (by omega)), hlen]
    have hnothing : (sz (len.toNat - (1 + 2 * fs.toNat)) : Size T) = sz 0 ↔
        xs.length - (1 + 2 * fs.toNat) = 0 := by
      rw [eq_sz_iff (size_lt T (by omega)), hrest]
    -- the array parser returns 0 for an empty array too, which is accepted
    by_cases hvalid : (xs.length - (1 + 2 * fs.toNat)) % (2 * fs.toNat) = 0 ∧
        (xs.length - (1 + 2 * fs.toNat)) / (2 * fs.toNat) ≤ N.max
    · have htotal : 1 + 2 * fs.toNat + (len.toNat - (1 + 2 * fs.toNat)) = xs.length := by omega
      rw [if_pos hvalid]
      dsimp only
      rw [if_neg (by rw [hnothing, Ne, hexact]; omega), sz_add, htotal,
        if_pos ⟨by omega, hcode, hvalid⟩]
      refine Decodes.accept ?_
      rw [Option.map_some, NakFields.view, length_parseRequests]
    · -- an empty array is valid, so there are octets behind the scope
      have hrest : xs.length ≠ 1 + 2 * fs.toNat := by
        intro heq
        rw [heq, Nat.sub_self] at hvalid
        simp at hvalid
      rw [if_neg hvalid]
      dsimp only
      rw [if_pos ⟨rfl, fun heq => hrest (hexact.mp heq)⟩, if_neg (fun hand => hvalid hand.2.2)]
      exact Decodes.refuse rfl

end Nak

/-! ### Prompt and Keep Alive -/

def promptDecode (xs : List UInt8) : Option PromptResponse :=
  if 2 ≤ xs.length ∧ xs.getD 0 0 = CFDP_DIRECTIVE_PROMPT.toUInt8 then
    some ((xs.getD 1 0 >>> 7) &&& 0x1).toUInt32
  else none

theorem promptDeserialize_decodes (h : p.Holds xs) (hlen : xs.length = len.toNat)
    (response : PromptResponse) :
    Decodes (promptDeserialize (some p) len (some response))
      ((promptDecode xs).map fun r => (2, some r)) := by
  unfold promptDeserialize
  refine Decodes.directive h hlen (by omega) (by omega) ?_ fun hroom hcode => ?_
  · intro hnot
    rw [promptDecode, if_neg hnot, Option.map_none]
  · rw [h.load_getD (by omega), ok_bind, promptDecode, if_pos ⟨by omega, hcode⟩]
    exact Decodes.accept rfl

def keepAliveDecode (xs : List UInt8) (largeFileFlag : LargeFileFlag) : Option UInt64 :=
  if (fileSizeOctets largeFileFlag).toNat + 1 ≤ xs.length ∧
      xs.getD 0 0 = CFDP_DIRECTIVE_KEEP_ALIVE.toUInt8 then
    some (uintAt xs 1 (fileSizeOctets largeFileFlag).toNat)
  else none

theorem keepAliveDeserialize_decodes (h : p.Holds xs) (hlen : xs.length = len.toNat)
    (largeFileFlag : LargeFileFlag) (progress : UInt64) :
    Decodes (keepAliveDeserialize (some p) len largeFileFlag (some progress))
      ((keepAliveDecode xs largeFileFlag).map fun r =>
        ((fileSizeOctets largeFileFlag).toNat + 1, some r)) := by
  obtain ⟨height, _⟩ := length_fileSizeOctets largeFileFlag
  unfold keepAliveDeserialize
  dsimp only
  rw [sz_add]
  refine Decodes.directive h hlen (by omega) (by omega) ?_ fun hroom hcode => ?_
  · intro hnot
    rw [keepAliveDecode, if_neg hnot, Option.map_none]
  · rw [readUint_add h (by omega), ok_bind, keepAliveDecode,
      if_pos ⟨by omega, hcode⟩]
    exact Decodes.accept rfl

end EmbeddedCfdp
