import EmbeddedCfdp.FaultLocation

/-!
# An EOF PDU from sender to receiver

The sender appends a fault location when the condition code calls for one, the receiver
looks for one when octets remain.  On what is sent the two rules agree; on what is received
they need not, and where they do the PDU is sent again as it came.
-/

namespace EmbeddedCfdp

open CMemory

variable {T : Target} {p : Ptr} {xs : List UInt8} {largeFileFlag : LargeFileFlag}

/-! ### The parts of an EOF PDU -/

/-- The octets in front of a fault location. -/
def eofFront (octet : UInt8) (checksum size : List UInt8) : List UInt8 :=
  CFDP_DIRECTIVE_EOF.toUInt8 :: octet :: (checksum ++ size)

/-- What these octets and a fault location say. -/
def eofOf (octet : UInt8) (checksum size : List UInt8) (id : Option EntityId) : EofPdu :=
  { conditionCode := ((octet >>> 4) &&& 0xF).toUInt32
    fileChecksum := (UInt64.ofNat (BigEndian.decode checksum)).toUInt32
    fileSize := UInt64.ofNat (BigEndian.decode size)
    faultLocationEntityId := (id.map EntityId.number).getD 0
    faultLocationLen := (id.map fun id => UInt8.ofNat id.octets.length).getD 0 }

/-- The octets of a fault location, if there is one. -/
def faultLocationTail (id : Option EntityId) : List UInt8 :=
  (id.map entityIdCodec.enc).getD []

section Parts

variable {checksum size : List UInt8}

theorem length_eofFront (octet : UInt8) (hchecksum : checksum.length = 4)
    (hsize : size.length = (fileSizeOctets largeFileFlag).toNat) :
    (eofFront octet checksum size).length = (fileSizeOctets largeFileFlag).toNat + 6 := by
  simp only [eofFront, List.length_cons, List.length_append, hchecksum, hsize]
  omega

theorem eofFields_front (octet : UInt8) (hchecksum : checksum.length = 4)
    (hsize : size.length = (fileSizeOctets largeFileFlag).toNat) (rest : List UInt8) :
    eofFields (eofFront octet checksum size ++ rest) largeFileFlag =
      eofOf octet checksum size none := by
  have hfirst : uintAt (eofFront octet checksum size ++ rest) 2 4 =
      UInt64.ofNat (BigEndian.decode checksum) := by
    simp only [eofFront, List.cons_append, List.append_assoc]
    exact @uintAt_append [CFDP_DIRECTIVE_EOF.toUInt8, octet] _ _ _ _ rfl hchecksum.symm
  have hsecond : uintAt (eofFront octet checksum size ++ rest) 6
      (fileSizeOctets largeFileFlag).toNat = UInt64.ofNat (BigEndian.decode size) := by
    simp only [eofFront, List.cons_append, List.append_assoc]
    exact @uintAt_append (CFDP_DIRECTIVE_EOF.toUInt8 :: octet :: checksum) _ _ _ _
      (by simp [hchecksum]) hsize.symm
  rw [eofFields, hfirst, hsecond]
  rfl

/-- A PDU without a fault location is read to its end. -/
theorem eofDecode_front (octet : UInt8) (hchecksum : checksum.length = 4)
    (hsize : size.length = (fileSizeOctets largeFileFlag).toNat) :
    eofDecode (eofFront octet checksum size) largeFileFlag =
      some ((eofFront octet checksum size).length, eofOf octet checksum size none) := by
  have hlength := length_eofFront octet hchecksum hsize
  have hfields := eofFields_front octet hchecksum hsize []
  rw [List.append_nil] at hfields
  unfold eofDecode
  dsimp only
  rw [if_pos ⟨Nat.le_of_eq hlength.symm, rfl⟩, if_pos hlength, hfields, hlength]

/-- A PDU with a fault location is read up to the end of that. -/
theorem eofDecode_faultLocation (octet : UInt8) (hchecksum : checksum.length = 4)
    (hsize : size.length = (fileSizeOctets largeFileFlag).toNat) (id : EntityId)
    (rest : List UInt8) :
    eofDecode (eofFront octet checksum size ++ (entityIdCodec.enc id ++ rest)) largeFileFlag =
      some ((eofFront octet checksum size ++ entityIdCodec.enc id).length,
        eofOf octet checksum size (some id)) := by
  have hlength := length_eofFront octet hchecksum hsize
  have htail := id.length_encode
  have hroom : (fileSizeOctets largeFileFlag).toNat + 6 ≤
      (eofFront octet checksum size ++ (entityIdCodec.enc id ++ rest)).length := by
    rw [List.length_append]
    omega
  have hmore : (eofFront octet checksum size ++ (entityIdCodec.enc id ++ rest)).length ≠
      (fileSizeOctets largeFileFlag).toNat + 6 := by
    rw [List.length_append, List.length_append, htail]
    omega
  unfold eofDecode
  dsimp only
  rw [if_pos ⟨hroom, rfl⟩, if_neg hmore, eofFields_front octet hchecksum hsize,
    List.drop_left' hlength, PrefixCodec.dec_enc, Option.map_some, List.length_append, hlength]
  rfl

end Parts

/-- Whatever is accepted consists of these parts. -/
theorem eofDecode_eq_some {n : Nat} {eof : EofPdu}
    (h : eofDecode xs largeFileFlag = some (n, eof)) :
    ∃ octet checksum size id, checksum.length = 4 ∧
      size.length = (fileSizeOctets largeFileFlag).toNat ∧
      eofFront octet checksum size ++ faultLocationTail id <+: xs ∧
      n = (eofFront octet checksum size ++ faultLocationTail id).length ∧
      eof = eofOf octet checksum size id := by
  obtain ⟨⟨hroom, hcode⟩, _⟩ := Option.ite_none_right_eq_some.mp h
  rcases xs with _ | ⟨code, _ | ⟨octet, ys⟩⟩
  · simp at hroom
  · simp at hroom
  · simp only [List.length_cons] at hroom
    have hcode' : code = CFDP_DIRECTIVE_EOF.toUInt8 := hcode
    subst hcode'
    have hchecksum : (ys.take 4).length = 4 := List.length_take_of_le (by omega)
    have hsize : ((ys.drop 4).take (fileSizeOctets largeFileFlag).toNat).length =
        (fileSizeOctets largeFileFlag).toNat :=
      List.length_take_of_le (by rw [List.length_drop]; omega)
    have hsplit : CFDP_DIRECTIVE_EOF.toUInt8 :: octet :: ys =
        eofFront octet (ys.take 4) ((ys.drop 4).take (fileSizeOctets largeFileFlag).toNat) ++
          (ys.drop 4).drop (fileSizeOctets largeFileFlag).toNat := by
      simp only [eofFront, List.cons_append, List.append_assoc, List.take_append_drop]
    generalize ys.take 4 = checksum at hchecksum hsplit
    generalize (ys.drop 4).take (fileSizeOctets largeFileFlag).toNat = size at hsize hsplit
    generalize (ys.drop 4).drop (fileSizeOctets largeFileFlag).toNat = tail at hsplit
    have hlength := length_eofFront octet hchecksum hsize
    rw [hsplit] at h ⊢
    -- the decoder reads a fault location exactly when something stands behind the file size
    cases tail with
    | nil =>
      rw [List.append_nil, eofDecode_front _ hchecksum hsize, Option.some.injEq,
        Prod.mk.injEq] at h
      refine ⟨octet, checksum, size, none, hchecksum, hsize, List.prefix_refl _, ?_, h.2.symm⟩
      rw [← h.1, faultLocationTail, Option.map_none, Option.getD_none, List.append_nil]
    | cons t ts =>
      -- a tail the Entity ID decoder refuses makes the whole EOF refused
      have hid : ∃ id rest, entityIdCodec.dec (t :: ts) = some (id, rest) := by
        obtain ⟨_, h⟩ := Option.ite_none_right_eq_some.mp h
        rw [if_neg (by simp [hlength]), List.drop_left' hlength] at h
        obtain ⟨⟨id, rest⟩, hid, _⟩ := Option.map_eq_some_iff.mp h
        exact ⟨id, rest, hid⟩
      obtain ⟨id, rest, hid⟩ := hid
      rw [entityIdCodec.dec_eq_some.mp hid] at h ⊢
      rw [eofDecode_faultLocation _ hchecksum hsize, Option.some.injEq, Prod.mk.injEq] at h
      refine ⟨octet, checksum, size, some id, hchecksum, hsize, ?_, h.1.symm, h.2.symm⟩
      rw [← List.append_assoc]
      exact List.prefix_append _ _

/-! ### The condition code -/

theorem unpack_conditionCode_bits (condition : Fin 16) :
    (((UInt8.ofNat condition &&& 0xF) <<< 4) >>> 4) &&& 0xF = UInt8.ofNat condition := by
  revert condition
  decide +kernel

theorem unpack_conditionCode {condition : ConditionCode} (h : condition ≤ 15) :
    ((((condition.toUInt8 &&& 0xF) <<< 4) >>> 4) &&& 0xF).toUInt32 = condition := by
  obtain ⟨n, hn, hn'⟩ := BitFields.exists_octet (k := 16) (by norm_num)
    (Nat.lt_succ_of_le (UInt32.le_iff_toNat_le.mp h))
  rw [hn, unpack_conditionCode_bits]
  exact hn'

/-! ### What is sent -/

/-- The fault location a PDU carries: none where the condition code is 'No error'. -/
def EofPdu.faultLocation (eof : EofPdu) : Option EntityId :=
  if eof.conditionCode = CFDP_COND_NO_ERROR then none
  else entityIdOf eof.faultLocationEntityId eof.faultLocationLen

/-- The octets the argument asks for. -/
def eofSize (eof : EofPdu) (largeFileFlag : LargeFileFlag) : Nat :=
  fileSizeWidth largeFileFlag + 6 +
    if eof.conditionCode = CFDP_COND_NO_ERROR then 0 else eof.faultLocationLen.toNat + 2

/-- The fault location is one of 1 to 8 octets where there has to be one. -/
def EofPdu.Sendable (eof : EofPdu) : Prop :=
  eof.conditionCode = CFDP_COND_NO_ERROR ∨
    1 ≤ eof.faultLocationLen.toNat ∧ eof.faultLocationLen.toNat ≤ 8

section Encoding

variable {eof : EofPdu}

theorem eofEncoding_eq_some {e : List UInt8} :
    eofEncoding eof largeFileFlag = some e ↔
      eof.Sendable ∧ e = eofFixed eof largeFileFlag ++ faultLocationTail eof.faultLocation := by
  unfold eofEncoding withFaultLocation EofPdu.Sendable EofPdu.faultLocation
  by_cases hnone : eof.conditionCode = CFDP_COND_NO_ERROR
  · simp [hnone, faultLocationTail, eq_comm]
  · rw [if_pos hnone, if_neg hnone]
    by_cases hlen : 1 ≤ eof.faultLocationLen.toNat ∧ eof.faultLocationLen.toNat ≤ 8
    · obtain ⟨id, hid⟩ :
          ∃ id, entityIdOf eof.faultLocationEntityId eof.faultLocationLen = some id :=
        ⟨_, dif_pos hlen⟩
      simp [hid, hlen, faultLocationTail, eq_comm]
    · have hid : entityIdOf eof.faultLocationEntityId eof.faultLocationLen = none := dif_neg hlen
      simp [hid, hlen, hnone]

theorem length_eofEncoding {e : List UInt8} (h : eofEncoding eof largeFileFlag = some e) :
    e.length = eofSize eof largeFileFlag := by
  obtain ⟨hsendable, rfl⟩ := eofEncoding_eq_some.mp h
  rw [List.length_append, length_eofFixed, eofSize, toNat_fileSizeOctets]
  unfold EofPdu.faultLocation
  by_cases hnone : eof.conditionCode = CFDP_COND_NO_ERROR
  · rw [if_pos hnone, if_pos hnone]
    rfl
  · obtain ⟨id, hid⟩ :
        ∃ id, entityIdOf eof.faultLocationEntityId eof.faultLocationLen = some id :=
      ⟨_, dif_pos (hsendable.resolve_left hnone)⟩
    have hwidth : id.octets.length = eof.faultLocationLen.toNat := by
      rw [(entityIdOf_eq_some hid).2, BigEndian.length_encode]
    rw [if_neg hnone, if_neg hnone, hid, faultLocationTail, Option.map_some, Option.getD_some,
      id.length_encode, hwidth]

/-- What the receiver reports of the PDU that was sent. -/
structure EofPdu.ReceivedAs (largeFileFlag : LargeFileFlag) (eof eof' : EofPdu) : Prop where
  conditionCode : eof'.conditionCode = eof.conditionCode
  fileChecksum : eof'.fileChecksum = eof.fileChecksum
  fileSize : eof'.fileSize.toNat =
    eof.fileSize.toNat % 256 ^ fileSizeWidth largeFileFlag
  faultLocation : eof.conditionCode ≠ CFDP_COND_NO_ERROR →
    eof'.faultLocationEntityId.toNat =
        eof.faultLocationEntityId.toNat % 256 ^ eof.faultLocationLen.toNat ∧
      eof'.faultLocationLen = eof.faultLocationLen
  noFaultLocation : eof.conditionCode = CFDP_COND_NO_ERROR →
    eof'.faultLocationEntityId = 0 ∧ eof'.faultLocationLen = 0

theorem EntityId.number_of_entityIdOf {entityId : UInt64} {idLen : UInt8} {id : EntityId}
    (h : entityIdOf entityId idLen = some id) :
    id.number.toNat = entityId.toNat % 256 ^ idLen.toNat ∧
      UInt8.ofNat id.octets.length = idLen := by
  obtain ⟨_, hoctets⟩ := entityIdOf_eq_some h
  constructor
  · rw [EntityId.number, toNat_ofNat_decode id.max, hoctets, BigEndian.decode_encode]
  · rw [hoctets, BigEndian.length_encode, UInt8.ofNat_toNat]

theorem eof_receivedAs (hcondition : eof.conditionCode ≤ 15) (hsendable : eof.Sendable) :
    eof.ReceivedAs largeFileFlag (eofOf ((eof.conditionCode.toUInt8 &&& 0xF) <<< 4)
      (BigEndian.encode 4 eof.fileChecksum.toNat)
      (BigEndian.encode (fileSizeOctets largeFileFlag).toNat eof.fileSize.toNat)
      eof.faultLocation) := by
  have hwidth := (length_fileSizeOctets largeFileFlag).1
  constructor
  · exact unpack_conditionCode hcondition
  · apply UInt32.toNat_inj.mp
    have hlt := eof.fileChecksum.toNat_lt
    change (UInt64.ofNat (BigEndian.decode (BigEndian.encode 4 _))).toUInt32.toNat = _
    rw [UInt64.toNat_toUInt32, toNat_ofNat_decode (by rw [BigEndian.length_encode]; norm_num),
      BigEndian.decode_encode]
    omega
  · change (UInt64.ofNat (BigEndian.decode (BigEndian.encode _ _))).toNat = _
    rw [toNat_ofNat_decode (by rw [BigEndian.length_encode]; omega), BigEndian.decode_encode,
      toNat_fileSizeOctets]
  -- an error carries the number of the fault location, a success carries none
  · intro hsome
    obtain ⟨id, hid⟩ :
        ∃ id, entityIdOf eof.faultLocationEntityId eof.faultLocationLen = some id :=
      ⟨_, dif_pos (hsendable.resolve_left hsome)⟩
    rw [EofPdu.faultLocation, if_neg hsome, hid]
    exact EntityId.number_of_entityIdOf hid
  · intro hnone
    rw [EofPdu.faultLocation, if_pos hnone]
    exact ⟨rfl, rfl⟩

end Encoding

/-! ### What is sent again -/

/-- The number and the length reported for an entity ID stand for it again. -/
theorem EntityId.entityIdOf_number (id : EntityId) :
    entityIdOf id.number (UInt8.ofNat id.octets.length) = some id := by
  have hmin := id.min
  have hmax := id.max
  have hlen : (UInt8.ofNat id.octets.length).toNat = id.octets.length :=
    toNat_ofNat_of_le (by omega)
  rw [entityIdOf, dif_pos (by rw [hlen]; exact ⟨hmin, hmax⟩), Option.some.injEq]
  apply EntityId.ext
  change BigEndian.encode _ id.number.toNat = id.octets
  rw [hlen]
  exact encode_ofNat_decode hmax

/-- Where the two rules for a fault location agree, a received PDU is encoded as it came. -/
theorem eofEncoding_eofOf {octet : UInt8} {checksum size : List UInt8} {id : Option EntityId}
    (hchecksum : checksum.length = 4)
    (hsize : size.length = (fileSizeOctets largeFileFlag).toNat)
    (hagree : (eofOf octet checksum size id).faultLocationLen ≠ 0 ↔
      (eofOf octet checksum size id).conditionCode ≠ CFDP_COND_NO_ERROR) :
    eofEncoding (eofOf octet checksum size id) largeFileFlag =
      some (eofFront (octet &&& 0xF0) checksum size ++ faultLocationTail id) := by
  have hwidth := (length_fileSizeOctets largeFileFlag).1
  have hlow : BigEndian.encode 4 (eofOf octet checksum size id).fileChecksum.toNat = checksum := by
    have hlt := BigEndian.decode_lt checksum
    change BigEndian.encode 4 (UInt64.ofNat (BigEndian.decode checksum)).toUInt32.toNat = _
    rw [hchecksum] at hlt
    rw [UInt64.toNat_toUInt32, toNat_ofNat_decode (by omega), Nat.mod_eq_of_lt (by omega),
      ← hchecksum, BigEndian.encode_decode]
  have hhigh : BigEndian.encode (fileSizeOctets largeFileFlag).toNat
      (eofOf octet checksum size id).fileSize.toNat = size := by
    rw [← hsize]
    exact encode_ofNat_decode (by omega)
  have hfixed : eofFixed (eofOf octet checksum size id) largeFileFlag =
      eofFront (octet &&& 0xF0) checksum size := by
    rw [eofFixed, hlow, hhigh, eofFront]
    exact congrArg (fun o => _ :: o :: _) (BitFields.repack_high octet)
  rw [eofEncoding_eq_some, hfixed]
  -- `hagree` says that the serialiser sends a fault location exactly when one was decoded
  cases id with
  | none =>
    have hnone : (eofOf octet checksum size none).conditionCode = CFDP_COND_NO_ERROR := by
      by_contra hsome
      exact hagree.mpr hsome rfl
    refine ⟨Or.inl hnone, ?_⟩
    rw [EofPdu.faultLocation, if_pos hnone]
  | some id =>
    have hmin := id.min
    have hmax := id.max
    have hlen : (eofOf octet checksum size (some id)).faultLocationLen.toNat =
        id.octets.length := toNat_ofNat_of_le (by omega)
    have hsome : (eofOf octet checksum size (some id)).conditionCode ≠ CFDP_COND_NO_ERROR := by
      refine hagree.mp fun hzero => ?_
      rw [hzero] at hlen
      change 0 = _ at hlen
      omega
    refine ⟨Or.inr (by rw [hlen]; exact ⟨hmin, hmax⟩), ?_⟩
    rw [EofPdu.faultLocation, if_neg hsome]
    exact congrArg _ (congrArg faultLocationTail (EntityId.entityIdOf_number id).symm)

/-- What is decoded from what was sent. -/
theorem eofDecode_encoding {eof : EofPdu} {e : List UInt8}
    (h : eofEncoding eof largeFileFlag = some e) :
    eofDecode e largeFileFlag = some (e.length,
      eofOf ((eof.conditionCode.toUInt8 &&& 0xF) <<< 4)
        (BigEndian.encode 4 eof.fileChecksum.toNat)
        (BigEndian.encode (fileSizeOctets largeFileFlag).toNat eof.fileSize.toNat)
        eof.faultLocation) := by
  obtain ⟨_, rfl⟩ := eofEncoding_eq_some.mp h
  have hchecksum := BigEndian.length_encode 4 eof.fileChecksum.toNat
  have hsize := BigEndian.length_encode (fileSizeOctets largeFileFlag).toNat eof.fileSize.toNat
  cases eof.faultLocation with
  | none =>
    rw [faultLocationTail, Option.map_none, Option.getD_none, List.append_nil]
    exact eofDecode_front _ hchecksum hsize
  | some id =>
    have hdec := eofDecode_faultLocation ((eof.conditionCode.toUInt8 &&& 0xF) <<< 4)
      hchecksum hsize id []
    rw [List.append_nil] at hdec
    exact hdec

/-- An end of file is sent when it fits, and what is sent is received as it was given. -/
theorem eof_encode_decode (largeFileFlag : LargeFileFlag) {eof : EofPdu}
    (hcondition : eof.conditionCode ≤ 15) {i : Nat} {cap : Size T} {m : Object}
    (hext : i + cap.toNat ≤ m.extent) :
    ∃ n m', eofSerialize (some eof) largeFileFlag (some i) cap m = .ok (n, m') ∧
      (n ≠ sz 0 ↔ eof.Sendable ∧ eofSize eof largeFileFlag ≤ cap.toNat) ∧
      (n ≠ sz 0 → ∃ e : List UInt8, e.length = n.toNat ∧ m' = m.place i e ∧
        ∀ (p : Ptr) (old : EofPdu), p.Holds e →
          ∃ eof', eofDeserialize (some p) n largeFileFlag (some old) = .ok (n, some eof') ∧
            eof.ReceivedAs largeFileFlag eof') := by
  have hencodes := eofSerialize_encodes (T := T) eof largeFileFlag
  obtain ⟨n, m', hrun, hiff⟩ := hencodes.accepts_iff hext
  refine ⟨n, m', hrun, hiff.trans ⟨?_, ?_⟩, ?_⟩
  -- the encoding exists exactly for a sendable EOF; then only its length matters
  · rintro ⟨e, henc, hle⟩
    exact ⟨(eofEncoding_eq_some.mp henc).1, by rwa [← length_eofEncoding henc]⟩
  · rintro ⟨hsendable, hle⟩
    have henc := eofEncoding_eq_some.mpr ⟨hsendable, Eq.refl
      (eofFixed eof largeFileFlag ++ faultLocationTail eof.faultLocation)⟩
    exact ⟨_, henc, by rwa [length_eofEncoding henc]⟩
  · intro hn
    obtain ⟨e, henc, hle, hsize, hm'⟩ := hencodes.of_run hext hrun hn
    have hlength : e.length = n.toNat := by
      rw [hsize, toNat_sz (Nat.lt_of_le_of_lt hle cap.isLt)]
    refine ⟨e, hlength, hm', fun p old hp => ?_⟩
    have hreceive := (eofDeserialize_decodes hp hlength largeFileFlag old).accepts_exact
      (eofDecode_encoding henc) hlength
    exact ⟨_, hreceive, eof_receivedAs hcondition (eofEncoding_eq_some.mp henc).1⟩

/-- An accepted end of file is sent again as what it consumed, with its spare bits cleared. -/
theorem eof_decode_encode {largeFileFlag : LargeFileFlag} {p : Ptr} {xs : List UInt8}
    {len n : Size T} {old eof : EofPdu} (hp : p.Holds xs) (hlen : xs.length = len.toNat)
    (hrun : eofDeserialize (some p) len largeFileFlag (some old) = .ok (n, some eof))
    (hn : n ≠ sz 0) (hagree : eof.faultLocationLen ≠ 0 ↔ eof.conditionCode ≠ CFDP_COND_NO_ERROR)
    {i : Nat} {cap : Size T} {m : Object} (hext : i + cap.toNat ≤ m.extent)
    (hle : n.toNat ≤ cap.toNat) :
    eofSerialize (some eof) largeFileFlag (some i) cap m =
      .ok (n, m.place i ((xs.take n.toNat).set 1 (xs.getD 1 0 &&& 0xF0))) := by
  obtain ⟨⟨k, eof'⟩, hdec, hsize, heq⟩ :=
    (eofDeserialize_decodes hp hlen largeFileFlag old).of_run hrun hn
  rw [Option.some.injEq] at heq
  subst heq
  obtain ⟨octet, checksum, size, id, hchecksum, hwidth, ⟨rest, hxs⟩, hk, rfl⟩ :=
    eofDecode_eq_some hdec
  dsimp only at hsize hagree
  have hfit : k ≤ xs.length := by
    rw [hk, ← hxs]
    exact (List.prefix_append _ rest).length_le
  have hn' : n.toNat = k := by
    rw [hsize, toNat_sz (Nat.lt_of_le_of_lt hfit (by rw [hlen]; exact len.isLt))]
  -- the spare bits of the condition octet are all that is cleared
  have hconsumed : (xs.take n.toNat).set 1 (xs.getD 1 0 &&& 0xF0) =
      eofFront (octet &&& 0xF0) checksum size ++ faultLocationTail id := by
    rw [hn', hk, ← hxs, List.take_left]
    rfl
  have hencodes := eofSerialize_encodes (T := T) (eofOf octet checksum size id) largeFileFlag
  rw [eofEncoding_eofOf hchecksum hwidth hagree, ← hconsumed] at hencodes
  have hlength : ((xs.take n.toNat).set 1 (xs.getD 1 0 &&& 0xF0)).length = n.toNat := by
    rw [List.length_set, List.length_take_of_le (by rw [hn']; exact hfit)]
  rw [hencodes.writes hext (by rw [hlength]; exact hle), hlength, sz_toNat]

/-- **Main result.** The EOF codec is an inverse pair.  A PDU is sent exactly when it fits
    and has a fault location of legal length where it needs one, and it is received as it was
    given.  A received PDU that has a fault location exactly where the condition code calls
    for one is sent again as it came, with its spare bits cleared. -/
theorem eof_codec (largeFileFlag : LargeFileFlag) :
    (∀ eof : EofPdu, eof.conditionCode ≤ 15 →
      ∀ (i : Nat) (cap : Size T) (m : Object), i + cap.toNat ≤ m.extent →
        ∃ n m', eofSerialize (some eof) largeFileFlag (some i) cap m = .ok (n, m') ∧
          (n ≠ sz 0 ↔ eof.Sendable ∧ eofSize eof largeFileFlag ≤ cap.toNat) ∧
          (n ≠ sz 0 → ∃ e : List UInt8, e.length = n.toNat ∧ m' = m.place i e ∧
            ∀ (p : Ptr) (old : EofPdu), p.Holds e →
              ∃ eof', eofDeserialize (some p) n largeFileFlag (some old) = .ok (n, some eof') ∧
                eof.ReceivedAs largeFileFlag eof')) ∧
    (∀ (p : Ptr) (xs : List UInt8) (len n : Size T) (old eof : EofPdu), p.Holds xs →
      xs.length = len.toNat →
      eofDeserialize (some p) len largeFileFlag (some old) = .ok (n, some eof) → n ≠ sz 0 →
      (eof.faultLocationLen ≠ 0 ↔ eof.conditionCode ≠ CFDP_COND_NO_ERROR) →
      ∀ (i : Nat) (cap : Size T) (m : Object), i + cap.toNat ≤ m.extent →
        n.toNat ≤ cap.toNat →
        eofSerialize (some eof) largeFileFlag (some i) cap m =
          .ok (n, m.place i ((xs.take n.toNat).set 1 (xs.getD 1 0 &&& 0xF0)))) := by
  constructor
  · intro eof hcondition i cap m hext
    exact eof_encode_decode largeFileFlag hcondition hext
  · intro p xs len n old eof hp hlen hrun hn hagree i cap m hext hle
    exact eof_decode_encode hp hlen hrun hn hagree hext hle

/-- A fault location of two octets, with a file size and an entity ID that do not fit. -/
def sampleEof : EofPdu :=
  { conditionCode := 4
    fileChecksum := 0xDEADBEEF
    fileSize := 0x0102030405
    faultLocationEntityId := 0x010203
    faultLocationLen := 2 }

/-- A fault location of one octet, spare bits set, and an octet behind. -/
def sampleEofOctets : List UInt8 :=
  [0x04, 0x4F, 1, 2, 3, 4, 5, 6, 7, 8, 0x06, 0x01, 0x07, 0xFF]

/-- It is sent, and a PDU with an octet behind its fault location is sent again without it. -/
theorem eof_codec_sample :
    (∃ n m', eofSerialize (some sampleEof) CFDP_FILE_SIZE_SMALL (some 0) (sz 14 : Size .checked32)
        (Object.full (List.replicate 14 0)) = .ok (n, m') ∧ n ≠ sz 0) ∧
    ∃ eof, eofDeserialize
          (some ⟨Object.full sampleEofOctets, 0⟩) (sz 14 : Size .checked32) CFDP_FILE_SIZE_SMALL
          (some default) = .ok (sz 13, some eof) ∧
        eofSerialize (some eof) CFDP_FILE_SIZE_SMALL (some 0) (sz 14 : Size .checked32)
            (Object.full (List.replicate 14 0)) =
          .ok (sz 13, (Object.full (List.replicate 14 0)).place 0
            [0x04, 0x40, 1, 2, 3, 4, 5, 6, 7, 8, 0x06, 0x01, 0x07]) := by
  constructor
  · obtain ⟨n, m', hrun, hiff, _⟩ := (eof_codec (T := .checked32) CFDP_FILE_SIZE_SMALL).1 sampleEof
      (by decide) 0 (sz 14) (Object.full (List.replicate 14 0)) (by decide)
    exact ⟨n, m', hrun, hiff.mpr ⟨Or.inr (by decide), by decide⟩⟩
  · have hholds := Object.holds_whole sampleEofOctets
    refine ⟨_, rfl, ?_⟩
    exact (eof_codec (T := .checked32) CFDP_FILE_SIZE_SMALL).2 _ sampleEofOctets (sz 14) (sz 13)
      default _ hholds rfl rfl (by decide) (by decide) 0 (sz 14) _ (by decide) (by decide)

end EmbeddedCfdp
