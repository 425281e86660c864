import EmbeddedCfdp.HeaderRoundTrip

/-!
# PDU CRC: appending and verifying

What `cfdp_pdu_crc_append` writes behind a PDU and which octet strings
`cfdp_pdu_crc_verify` accepts, and that a PDU built by the one is received by the
other with its payload, and nothing but its payload, delimited.
-/

namespace EmbeddedCfdp

open CMemory

variable {T : Target}

/-- What a successful decoding says about the header. -/
theorem headerDecode_spec {xs : List UInt8} {n : Nat} {hdr : PduHeader}
    (h : headerDecode xs = some (n, hdr)) :
    n = headerLength hdr ∧ hdr.version = CFDP_PROTOCOL_VERSION ∧
      idLenValid hdr.entityIdLength = true ∧ idLenValid hdr.transactionSeqLength = true := by
  obtain ⟨hat, heq⟩ := Option.ite_none_right_eq_some.mp h
  rw [Option.some.injEq, Prod.mk.injEq] at heq
  obtain ⟨rfl, rfl⟩ := heq
  obtain ⟨hid, hseq⟩ := headerFlags_valid xs default
  exact ⟨rfl, hat.version, hid, hseq⟩

theorem pduHeaderSize_of_decode {xs : List UInt8} {n : Nat} {hdr : PduHeader}
    (h : headerDecode xs = some (n, hdr)) : pduHeaderSize (some hdr) = (sz n : Size T) := by
  obtain ⟨rfl, _, hid, hseq⟩ := headerDecode_spec h
  exact pduHeaderSize_valid hid hseq

/-! ### Payload size -/

/-- The octets of the data field that are not the CRC. -/
def payloadLength (hdr : PduHeader) : Nat :=
  if hdr.crcFlag = CFDP_CRC_PRESENT then hdr.dataFieldLength.toNat - CFDP_PDU_CRC_LEN
  else hdr.dataFieldLength.toNat

theorem pduPayloadSize_eq (hdr : PduHeader) :
    pduPayloadSize (some hdr) = .ok (sz (payloadLength hdr) : Size T) := by
  have hlt := hdr.dataFieldLength.toNat_lt
  unfold pduPayloadSize payloadLength
  dsimp only
  by_cases hcrc : hdr.crcFlag = CFDP_CRC_PRESENT
  · rw [if_neg (not_not.mpr hcrc), if_pos hcrc]
    by_cases hshort : hdr.dataFieldLength.toNat < CFDP_PDU_CRC_LEN
    · rw [if_pos hshort, Nat.sub_eq_zero_of_le (Nat.le_of_lt hshort)]
      rfl
    · rw [if_neg hshort, sub_sz (size_lt T (by omega)) (by omega)]
  · rw [if_pos hcrc, if_neg hcrc]
    rfl

/-! ### Appending -/

/-- The CRC field for a string of octets. -/
def crcField (xs : List UInt8) : List UInt8 :=
  BigEndian.encode 2 (crcOctets CFDP_CRC_INIT xs).toNat

theorem length_crcField (xs : List UInt8) : (crcField xs).length = 2 := BigEndian.length_encode _ _

section Append

variable {m : Object} {i n : Nat} {pduLen cap : Size T} {xs : List UInt8} {hdr : PduHeader}

/-- Where there is no header, nothing is appended. -/
theorem pduCrcAppend_no_header (hp : (Ptr.mk m i).Holds xs) (hle : xs.length ≤ pduLen.toNat)
    (hmin : min pduLen.toNat 28 ≤ xs.length) (hdec : headerDecode xs = none) :
    pduCrcAppend (some i) pduLen cap m = .ok (sz 0, m) := by
  have hbuf : readBack i m = .ok (⟨m, i⟩, m) := rfl
  obtain ⟨s, hrun⟩ := (pduHeaderDeserialize_decodes hp hle hmin default).refuses
    (by rw [hdec, Option.map_none])
  unfold pduCrcAppend
  dsimp only
  rw [Writer.bind_ok hbuf, Writer.bind_ok (Writer.lift_ok hrun)]
  dsimp only
  rw [if_pos (Or.inl rfl)]
  rfl

/-- What is left to do behind the header. -/
theorem pduCrcAppend_of_decode (hp : (Ptr.mk m i).Holds xs) (hle : xs.length ≤ pduLen.toNat)
    (hmin : min pduLen.toNat 28 ≤ xs.length) (hdec : headerDecode xs = some (n, hdr)) :
    pduCrcAppend (some i) pduLen cap m =
      (if hdr.crcFlag ≠ CFDP_CRC_PRESENT ∨ cap < pduLen + sz CFDP_PDU_CRC_LEN ∨
          sz (n + hdr.dataFieldLength.toNat) ≠ pduLen + sz CFDP_PDU_CRC_LEN then pure (sz 0)
        else do
          let crc ← crcCompute (some ⟨m, i⟩) pduLen
          writeUint (i + pduLen.toNat) crc.toUInt64 2
          return pduLen + sz CFDP_PDU_CRC_LEN : Writer (Size T)) m := by
  obtain ⟨hseven, h28, _⟩ := length_of_headerDecode hdec
  have hbuf : readBack i m = .ok (⟨m, i⟩, m) := rfl
  have hdecode : pduHeaderDeserialize (some ⟨m, i⟩) pduLen (some default) =
      .ok ((sz n : Size T), some hdr) :=
    (pduHeaderDeserialize_decodes hp hle hmin default).accepts (by rw [hdec, Option.map_some])
  have hsome : (sz n : Size T) ≠ sz 0 := sz_ne_zero (by omega) (size_lt T (by omega))
  unfold pduCrcAppend
  dsimp only
  rw [Writer.bind_ok hbuf, Writer.bind_ok (Writer.lift_ok hdecode)]
  dsimp only [Option.getD_some]
  have hsize : (pduHeaderSize (some hdr) : Size T) + sz hdr.dataFieldLength.toNat =
      sz (n + hdr.dataFieldLength.toNat) := by rw [pduHeaderSize_of_decode hdec, sz_add]
  -- the source checks the flag and the room before the length, with one result
  by_cases hguard : hdr.crcFlag ≠ CFDP_CRC_PRESENT ∨ cap < pduLen + sz CFDP_PDU_CRC_LEN
  · rw [if_pos (Or.inr hguard), if_pos (or_assoc.mp (Or.inl hguard))]
  · rw [if_neg (not_or.mpr ⟨hsome, hguard⟩)]
    by_cases hdescribed : sz (n + hdr.dataFieldLength.toNat) = pduLen + sz CFDP_PDU_CRC_LEN
    · have hpass := not_or.mpr ⟨hguard, not_not.mpr hdescribed⟩
      rw [if_neg (not_not.mpr (hsize.trans hdescribed)), if_neg (fun h => hpass (or_assoc.mpr h)),
        Writer.bind_ok hbuf]
    · rw [if_pos (fun h => hdescribed (hsize.symm.trans h)), if_pos (Or.inr (Or.inr hdescribed))]

/-- A PDU with its header sized for the CRC gets the CRC. -/
theorem pduCrcAppend_run (hp : (Ptr.mk m i).Holds xs) (hdec : headerDecode xs = some (n, hdr))
    (hcrc : hdr.crcFlag = CFDP_CRC_PRESENT)
    (hdescribed : n + hdr.dataFieldLength.toNat = xs.length + 2)
    (hcap : xs.length + 2 ≤ cap.toNat) (hext : i + (xs.length + 2) ≤ m.extent) :
    pduCrcAppend (some i) (sz xs.length) cap m =
      .ok (sz (xs.length + 2), m.place (i + xs.length) (crcField xs)) := by
  have hlt := cap.isLt
  have hlen : (sz xs.length : Size T).toNat = xs.length := toNat_sz (by omega)
  have hcompute : crcCompute (some ⟨m, i⟩) (sz xs.length : Size T) =
      .ok (crcOctets CFDP_CRC_INIT xs) := crcCompute_eq hp hlen.symm
  have hpass : ¬ (hdr.crcFlag ≠ CFDP_CRC_PRESENT ∨ cap < sz (xs.length + CFDP_PDU_CRC_LEN) ∨
      (sz (n + hdr.dataFieldLength.toNat) : Size T) ≠ sz (xs.length + CFDP_PDU_CRC_LEN)) := by
    unfold CFDP_PDU_CRC_LEN
    -- none of the three checks fails
    rintro (habsent | hshort | hother)
    · exact habsent hcrc
    · rw [lt_sz_iff (by omega)] at hshort
      omega
    · rw [hdescribed] at hother
      exact hother rfl
  have hfield := writeUint_apply (i + xs.length) (crcOctets CFDP_CRC_INIT xs).toUInt64 2 m
    (by change i + xs.length + 2 ≤ _; omega)
  rw [UInt16.toNat_toUInt64] at hfield
  rw [pduCrcAppend_of_decode hp (Nat.le_of_eq hlen.symm) (by omega) hdec, sz_add, if_neg hpass,
    Writer.bind_ok (Writer.lift_ok hcompute), hlen, Writer.bind_ok hfield]
  rfl

end Append

/-! ### The residue -/

section Residue

variable {xs ys : List UInt8} {k : Nat}

/-- What the last two octets hold as a CRC. -/
theorem uintAt_two_eq_iff (hk : k + 2 ≤ xs.length) (crc : UInt16) :
    crc = (uintAt xs k 2).toUInt16 ↔ BigEndian.encode 2 crc.toNat = slice xs k 2 := by
  rw [← toUInt16_uintAt_two hk]
  constructor
  · intro h
    rw [h]
  · intro h
    rw [← toUInt16_ofNat_decode_encode crc, h, toUInt16_ofNat_decode_encode]

/-- The register ends at zero exactly when the last two octets are the CRC of the others. -/
theorem crcOctets_residue (hk : k + 2 ≤ xs.length) :
    crcOctets CFDP_CRC_INIT (xs.take (k + 2)) = 0 ↔
      crcOctets CFDP_CRC_INIT (xs.take k) = (uintAt xs k 2).toUInt16 := by
  have hparts : xs.take (k + 2) = xs.take k ++ slice xs k 2 := List.take_add
  rw [hparts, crcOctets_append, uintAt_two_eq_iff hk, slice_two hk, crcOctets_eq_zero_iff]
  generalize crcOctets CFDP_CRC_INIT (xs.take k) = crc
  generalize xs.getD k 0 = high, xs.getD (k + 1) 0 = low
  have hlt := crc.toNat_lt
  have hlow := low.toNat_lt
  have hpair : BigEndian.decode [high, low] = high.toNat * 256 + low.toNat := by
    simp [BigEndian.decode]
  constructor
  · intro h
    rw [h, ← hpair]
    exact BigEndian.encode_decode [high, low]
  · intro h
    rw [← hpair, ← h, BigEndian.decode_encode]
    exact (Nat.mod_eq_of_lt hlt).symm

theorem crcField_eq_iff (hk : k + 2 ≤ xs.length) :
    crcField (xs.take k) = slice xs k 2 ↔ crcOctets CFDP_CRC_INIT (xs.take (k + 2)) = 0 := by
  rw [crcOctets_residue hk, uintAt_two_eq_iff hk, crcField]

end Residue

/-! ### Verifying -/

/-- The octets `hsize + dfl` from the front are a PDU, with the header `hdr` of `hsize`
    octets and, where the header says so, a matching CRC at its end. -/
structure PduAt (xs : List UInt8) (hsize : Nat) (hdr : PduHeader) : Prop where
  header : headerDecode xs = some (hsize, hdr)
  complete : hsize + hdr.dataFieldLength.toNat ≤ xs.length
  crcLength : hdr.crcFlag = CFDP_CRC_PRESENT → CFDP_PDU_CRC_LEN ≤ hdr.dataFieldLength.toNat
  crc : hdr.crcFlag = CFDP_CRC_PRESENT →
    crcOctets CFDP_CRC_INIT (xs.take (hsize + hdr.dataFieldLength.toNat - 2)) =
      (uintAt xs (hsize + hdr.dataFieldLength.toNat - 2) 2).toUInt16

theorem PduAt.unique {xs : List UInt8} {n hsize : Nat} {hdr hdr' : PduHeader}
    (h : PduAt xs hsize hdr') (hdec : headerDecode xs = some (n, hdr)) :
    hsize = n ∧ hdr' = hdr := by
  have hsame := h.header
  rw [hdec, Option.some.injEq, Prod.mk.injEq] at hsame
  exact ⟨hsame.1.symm, hsame.2.symm⟩

section Verify

variable {p : Ptr} {xs : List UInt8} {len : Size T} {n : Nat} {hdr : PduHeader}

/-- Where there is no header, nothing is accepted. -/
theorem pduCrcVerify_no_header (h : p.Holds xs) (hlen : xs.length = len.toNat)
    (hdec : headerDecode xs = none) : pduCrcVerify (some p) len = .ok false := by
  obtain ⟨s, hrun⟩ := (pduHeaderDeserialize_decodes h (Nat.le_of_eq hlen) (by omega)
    default).refuses (by rw [hdec, Option.map_none])
  unfold pduCrcVerify
  rw [hrun, ok_bind]
  dsimp only
  rw [if_pos rfl]
  rfl

/-- What is left to check behind the header. -/
theorem pduCrcVerify_of_decode (h : p.Holds xs) (hlen : xs.length = len.toNat)
    (hdec : headerDecode xs = some (n, hdr)) :
    pduCrcVerify (some p) len =
      if len < sz n + sz hdr.dataFieldLength.toNat then .ok false
      else if hdr.crcFlag ≠ CFDP_CRC_PRESENT then .ok true
      else if hdr.dataFieldLength.toNat < CFDP_PDU_CRC_LEN then .ok false
      else do
        let protectedLen ← Size.sub (sz n + sz hdr.dataFieldLength.toNat : Size T)
          (sz CFDP_PDU_CRC_LEN)
        let expected ← crcCompute (some p) protectedLen
        let received ← readUint ((← deref (some p)).add protectedLen.toNat) 2
        return decide (expected = received.toUInt16) := by
  obtain ⟨hseven, h28, _⟩ := length_of_headerDecode hdec
  have hrun : pduHeaderDeserialize (some p) len (some default) = .ok ((sz n : Size T), some hdr) :=
    (pduHeaderDeserialize_decodes h (Nat.le_of_eq hlen) (by omega) default).accepts
      (by rw [hdec, Option.map_some])
  have hsome : (sz n : Size T) ≠ sz 0 := sz_ne_zero (by omega) (size_lt T (by omega))
  unfold pduCrcVerify
  rw [hrun, ok_bind]
  dsimp only [Option.getD_some]
  rw [if_neg hsome]
  rfl

end Verify

/-- `cfdp_pdu_crc_verify` returns, and accepts exactly the strings that start with a PDU, as long
    as the length that the header announces is a size. -/
theorem pduCrcVerify_spec_of_fits {p : Ptr} {xs : List UInt8} {len : Size T} (h : p.Holds xs)
    (hlen : xs.length = len.toNat) (hfits : ∀ n hdr, headerDecode xs = some (n, hdr) →
      n + hdr.dataFieldLength.toNat < 2 ^ T.sizeBits) :
    ∃ b, pduCrcVerify (some p) len = .ok b ∧
      (b = true ↔ ∃ hsize hdr, PduAt xs hsize hdr) := by
  cases hdec : headerDecode xs with
  | none =>
    refine ⟨false, pduCrcVerify_no_header h hlen hdec, iff_of_false (by rintro ⟨⟩) ?_⟩
    rintro ⟨hsize, hdr, hat⟩
    rw [hat.header] at hdec
    cases hdec
  | some r =>
    obtain ⟨n, hdr⟩ := r
    obtain ⟨hseven, h28, hroom⟩ := length_of_headerDecode hdec
    have hsum := hfits n hdr hdec
    have htotal : len < sz n + sz hdr.dataFieldLength.toNat ↔
        len.toNat < n + hdr.dataFieldLength.toNat := by
      rw [sz_add]
      exact lt_sz_iff (by omega)
    rw [pduCrcVerify_of_decode h hlen hdec]
    -- fewer octets than header and data field
    by_cases hshort : len < sz n + sz hdr.dataFieldLength.toNat
    · rw [if_pos hshort]
      rw [htotal] at hshort
      refine ⟨false, rfl, iff_of_false (by rintro ⟨⟩) ?_⟩
      rintro ⟨hsize, hdr', hat⟩
      obtain ⟨rfl, rfl⟩ := hat.unique hdec
      have := hat.complete
      omega
    · rw [if_neg hshort]
      rw [htotal] at hshort
      -- without a CRC there is nothing more to check
      by_cases hcrc : hdr.crcFlag = CFDP_CRC_PRESENT
      · rw [if_neg (not_not.mpr hcrc)]
        -- a data field without room for its CRC
        by_cases hsmall : hdr.dataFieldLength.toNat < CFDP_PDU_CRC_LEN
        · rw [if_pos hsmall]
          refine ⟨false, rfl, iff_of_false (by rintro ⟨⟩) ?_⟩
          rintro ⟨hsize, hdr', hat⟩
          obtain ⟨rfl, rfl⟩ := hat.unique hdec
          exact absurd hsmall (Nat.not_lt.mpr (hat.crcLength hcrc))
        · rw [if_neg hsmall]
          unfold CFDP_PDU_CRC_LEN at hsmall ⊢
          have hprotected : (sz (n + hdr.dataFieldLength.toNat - 2) : Size T).toNat =
              n + hdr.dataFieldLength.toNat - 2 := toNat_sz (by omega)
          have htake : (xs.take (n + hdr.dataFieldLength.toNat - 2)).length =
              (sz (n + hdr.dataFieldLength.toNat - 2) : Size T).toNat := by
            rw [List.length_take, hprotected]
            omega
          -- the CRC covers all of the PDU but its last two octets
          rw [sz_add, sub_sz (by omega) (by omega), ok_bind, crcCompute_eq (h.take _) htake,
            ok_bind, deref, ok_bind, hprotected, readUint_add h (by change _ + 2 ≤ _; omega),
            ok_bind]
          refine ⟨_, rfl, ?_⟩
          rw [decide_eq_true_eq]
          constructor
          · intro hmatch
            exact ⟨n, hdr, hdec, by omega, fun _ => by unfold CFDP_PDU_CRC_LEN; omega,
              fun _ => hmatch⟩
          · rintro ⟨hsize, hdr', hat⟩
            obtain ⟨rfl, rfl⟩ := hat.unique hdec
            exact hat.crc hcrc
      · rw [if_pos hcrc]
        refine ⟨true, rfl, iff_of_true rfl ?_⟩
        exact ⟨n, hdr, hdec, by omega, fun hp => (hcrc hp).elim, fun hp => (hcrc hp).elim⟩

/-- From 32 bits on it always is. -/
theorem pduCrcVerify_spec (h32 : 32 ≤ T.sizeBits) {p : Ptr} {xs : List UInt8} {len : Size T}
    (h : p.Holds xs) (hlen : xs.length = len.toNat) :
    ∃ b, pduCrcVerify (some p) len = .ok b ∧
      (b = true ↔ ∃ hsize hdr, PduAt xs hsize hdr) := by
  have hpow := T.two_pow_ge_of_le h32
  refine pduCrcVerify_spec_of_fits h hlen fun n hdr hdec => ?_
  obtain ⟨_, h28, _⟩ := length_of_headerDecode hdec
  have hdfl := hdr.dataFieldLength.toNat_lt
  omega

/-! ### A PDU from sender to receiver -/

/-- Header, payload and, where the header says so, CRC. -/
def pduOctets (hdr : PduHeader) (payload : List UInt8) : List UInt8 :=
  headerOctets hdr ++ (payload ++
    if hdr.crcFlag = CFDP_CRC_PRESENT then crcField (headerOctets hdr ++ payload) else [])

/-- The data field length counts the payload and the CRC. -/
def SizedFor (hdr : PduHeader) (payload : List UInt8) : Prop :=
  hdr.dataFieldLength.toNat =
    payload.length + if hdr.crcFlag = CFDP_CRC_PRESENT then CFDP_PDU_CRC_LEN else 0

section Exchange

variable {hdr : PduHeader} {payload : List UInt8}

theorem length_pduOctets (hsized : SizedFor hdr payload) :
    (pduOctets hdr payload).length = headerLength hdr + hdr.dataFieldLength.toNat := by
  unfold SizedFor at hsized
  unfold pduOctets
  by_cases hcrc : hdr.crcFlag = CFDP_CRC_PRESENT
  · rw [if_pos hcrc] at hsized ⊢
    rw [List.length_append, List.length_append, length_headerOctets, length_crcField, hsized]
    rfl
  · rw [if_neg hcrc] at hsized ⊢
    rw [List.length_append, List.length_append, length_headerOctets, List.length_nil, hsized]

theorem payloadLength_received (hsized : SizedFor hdr payload) :
    payloadLength hdr.received = payload.length := by
  unfold SizedFor at hsized
  change (if hdr.crcFlag = CFDP_CRC_PRESENT then hdr.dataFieldLength.toNat - CFDP_PDU_CRC_LEN
    else hdr.dataFieldLength.toNat) = payload.length
  by_cases hcrc : hdr.crcFlag = CFDP_CRC_PRESENT
  · rw [if_pos hcrc] at hsized ⊢
    omega
  · rw [if_neg hcrc] at hsized ⊢
    omega

theorem pduAt_pduOctets (h : hdr.InRange) (hsized : SizedFor hdr payload) (z : List UInt8) :
    PduAt (pduOctets hdr payload ++ z) (headerLength hdr) hdr.received := by
  have hlength := length_pduOctets hsized
  have hheader : headerDecode (pduOctets hdr payload ++ z) =
      some (headerLength hdr, hdr.received) := by
    unfold pduOctets
    rw [List.append_assoc]
    exact headerDecode_headerOctets h _
  have hcrcSized : hdr.crcFlag = CFDP_CRC_PRESENT →
      hdr.dataFieldLength.toNat = payload.length + 2 := by
    intro hcrc
    unfold SizedFor at hsized
    rw [if_pos hcrc] at hsized
    exact hsized
  refine ⟨hheader, ?_, ?_, ?_⟩
  · rw [List.length_append, hlength]
    exact Nat.le_add_right _ _
  · intro hcrc
    have hdfl := hcrcSized hcrc
    change 2 ≤ hdr.dataFieldLength.toNat
    omega
  · intro hcrc
    change hdr.crcFlag = CFDP_CRC_PRESENT at hcrc
    have hdfl := hcrcSized hcrc
    have hstart : headerLength hdr + hdr.received.dataFieldLength.toNat - 2 =
        (headerOctets hdr ++ payload).length := by
      change headerLength hdr + hdr.dataFieldLength.toNat - 2 = _
      rw [List.length_append, length_headerOctets]
      omega
    have hparts : pduOctets hdr payload ++ z = (headerOctets hdr ++ payload) ++
        (crcField (headerOctets hdr ++ payload) ++ z) := by
      unfold pduOctets
      rw [if_pos hcrc]
      simp only [List.append_assoc]
    -- the CRC stands right behind what it covers
    rw [hstart, hparts, List.take_left, uintAt_append rfl (length_crcField _).symm, crcField,
      toUInt16_ofNat_decode_encode]

/-- Writing the header, then the payload and then the CRC leaves the PDU in the buffer. -/
theorem pduOctets_sent (h : hdr.InRange) (hsized : SizedFor hdr payload) {i : Nat} {cap : Size T}
    {m : Object} (hext : i + cap.toNat ≤ m.extent)
    (hle : (pduOctets hdr payload).length ≤ cap.toNat) :
    ∃ m₁, pduHeaderSerialize (some hdr) (some i) cap m = .ok (sz (headerLength hdr), m₁) ∧
      (hdr.crcFlag = CFDP_CRC_PRESENT →
        pduCrcAppend (some i) (sz (headerLength hdr + payload.length)) cap
            (m₁.place (i + headerLength hdr) payload) =
          .ok (sz (headerLength hdr + payload.length + 2),
            m.place i (pduOctets hdr payload))) ∧
      (hdr.crcFlag = CFDP_CRC_ABSENT →
        m₁.place (i + headerLength hdr) payload = m.place i (pduOctets hdr payload)) := by
  have hlength := length_pduOctets hsized
  have hsize : headerLength hdr = (headerOctets hdr).length := (length_headerOctets hdr).symm
  have hplace : (m.place i (headerOctets hdr)).place (i + headerLength hdr) payload =
      m.place i (headerOctets hdr ++ payload) := Object.place_place_right (by rw [hsize])
  refine ⟨m.place i (headerOctets hdr), ?_, ?_, ?_⟩
  · exact pduHeaderSerialize_run h hext (by omega)
  · intro hcrc
    have hpdu : pduOctets hdr payload = (headerOctets hdr ++ payload) ++
        crcField (headerOctets hdr ++ payload) := by
      rw [pduOctets, if_pos hcrc, List.append_assoc]
    have htotal : headerLength hdr + payload.length = (headerOctets hdr ++ payload).length := by
      rw [List.length_append, hsize]
    rw [hpdu, List.length_append, length_crcField] at hle
    have hholds : (Ptr.mk (m.place i (headerOctets hdr ++ payload)) i).Holds
        (headerOctets hdr ++ payload) := Object.place_holds (by omega)
    have hdfl : headerLength hdr + hdr.received.dataFieldLength.toNat =
        (headerOctets hdr ++ payload).length + 2 := by
      rw [hpdu, List.length_append, length_crcField] at hlength
      exact hlength.symm
    -- the header that is read back from the buffer counts the CRC
    have hrun := pduCrcAppend_run hholds (headerDecode_headerOctets h payload) hcrc hdfl hle
      (by rw [Object.place_extent]; omega)
    rw [hplace, htotal, hrun, Object.place_place_right rfl, hpdu]
  · intro habsent
    have hcrc : hdr.crcFlag ≠ CFDP_CRC_PRESENT := by
      rw [habsent]
      decide
    rw [hplace, pduOctets, if_neg hcrc, List.append_nil]

/-- The PDU is accepted with its payload delimited, whatever follows it. -/
theorem pduOctets_received (h32 : 32 ≤ T.sizeBits) (h : hdr.InRange)
    (hsized : SizedFor hdr payload) {p : Ptr} {z : List UInt8} {len : Size T}
    (hp : p.Holds (pduOctets hdr payload ++ z))
    (hlen : (pduOctets hdr payload ++ z).length = len.toNat) (old : PduHeader) :
    pduCrcVerify (some p) len = .ok true ∧
      pduHeaderDeserialize (some p) len (some old) =
        .ok (sz (headerLength hdr), some hdr.received) ∧
      pduPayloadSize (some hdr.received) = .ok (sz payload.length : Size T) ∧
      slice (pduOctets hdr payload ++ z) (headerLength hdr) payload.length = payload := by
  have hat := pduAt_pduOctets h hsized z
  obtain ⟨b, hverify, haccept⟩ := pduCrcVerify_spec h32 hp hlen
  have htrue : b = true := haccept.mpr ⟨_, _, hat⟩
  subst htrue
  refine ⟨hverify, pduHeaderDeserialize_run hp hlen hat.header old, ?_, ?_⟩
  · rw [pduPayloadSize_eq, payloadLength_received hsized]
  · unfold pduOctets
    rw [List.append_assoc, List.append_assoc]
    exact slice_append (length_headerOctets hdr).symm rfl

/-- **Main result.** A PDU whose header is sized for its payload and CRC is accepted by
    every receiver, whatever padding follows it, with exactly the payload delimited. -/
theorem pdu_exchange (h32 : 32 ≤ T.sizeBits) (h : hdr.InRange)
    (hsized : SizedFor hdr payload) :
    let hsize := 4 + 2 * hdr.entityIdLength.toNat + hdr.transactionSeqLength.toNat
    ∃ pdu : List UInt8, pdu.length = hsize + hdr.dataFieldLength.toNat ∧
      (∀ (i : Nat) (cap : Size T) (m : Object), i + cap.toNat ≤ m.extent →
        pdu.length ≤ cap.toNat →
        ∃ m₁, pduHeaderSerialize (some hdr) (some i) cap m = .ok (sz hsize, m₁) ∧
          (hdr.crcFlag = CFDP_CRC_PRESENT →
            pduCrcAppend (some i) (sz (hsize + payload.length)) cap
                (m₁.place (i + hsize) payload) =
              .ok (sz (hsize + payload.length + 2), m.place i pdu)) ∧
          (hdr.crcFlag = CFDP_CRC_ABSENT → m₁.place (i + hsize) payload = m.place i pdu)) ∧
      (∀ (p : Ptr) (z : List UInt8) (len : Size T) (old : PduHeader), p.Holds (pdu ++ z) →
        (pdu ++ z).length = len.toNat →
        pduCrcVerify (some p) len = .ok true ∧
        ∃ hdr', pduHeaderDeserialize (some p) len (some old) = .ok (sz hsize, some hdr') ∧
          hdr'.pduType = hdr.pduType ∧ hdr'.crcFlag = hdr.crcFlag ∧
          hdr'.largeFileFlag = hdr.largeFileFlag ∧
          hdr'.dataFieldLength = hdr.dataFieldLength ∧
          pduPayloadSize (some hdr') = .ok (sz payload.length : Size T) ∧
          slice (pdu ++ z) hsize payload.length = payload) := by
  intro hsize
  refine ⟨pduOctets hdr payload, length_pduOctets hsized, ?_, ?_⟩
  · intro i cap m hext hle
    exact pduOctets_sent h hsized hext hle
  · intro p z len old hp hlen
    obtain ⟨hverify, hread, hpayload, hslice⟩ := pduOctets_received h32 h hsized hp hlen old
    exact ⟨hverify, hdr.received, hread, rfl, rfl, rfl, rfl, hpayload, hslice⟩

end Exchange

/-- A directive with a CRC and a payload of one octet. -/
def sampleCrcHeader : PduHeader :=
  { sampleDirectiveHeader with dataFieldLength := 3 }

theorem pdu_exchange_sample :
    ∃ pdu : List UInt8, pdu.length = 7 + 3 ∧
      ∀ (p : Ptr) (z : List UInt8) (len : Size .checked32) (old : PduHeader),
        p.Holds (pdu ++ z) → (pdu ++ z).length = len.toNat →
        pduCrcVerify (some p) len = .ok true ∧
        ∃ hdr', pduHeaderDeserialize (some p) len (some old) = .ok (sz 7, some hdr') ∧
          pduPayloadSize (some hdr') = .ok (sz 1 : Size .checked32) ∧
          slice (pdu ++ z) 7 1 = [0x0C] := by
  have hrange : sampleCrcHeader.InRange := by
    constructor <;> decide
  have hsized : SizedFor sampleCrcHeader [0x0C] := rfl
  obtain ⟨pdu, hlength, _, hreceive⟩ :=
    pdu_exchange (T := .checked32) (Nat.le_refl 32) hrange hsized
  refine ⟨pdu, hlength, fun p z len old hp hlen => ?_⟩
  obtain ⟨hverify, hdr', hrun, _, _, _, _, hsize, hslice⟩ := hreceive p z len old hp hlen
  exact ⟨hverify, hdr', hrun, hsize, hslice⟩

end EmbeddedCfdp
