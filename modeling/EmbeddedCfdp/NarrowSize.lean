import EmbeddedCfdp.CrcAppend

/-!
# PDU lengths on a narrow `size_t`

A header of up to 28 octets and a data field of up to 65535 do not add up in the sixteen bits
that C grants a `size_t`.  `cfdp_pdu_crc_verify` then compares the buffer with what is left
of the sum, and accepts PDUs that are not there; `cfdp_pdu_crc_append` goes wrong at one
length only, which no object of such a target has.  From 17 bits on both are sound.
-/

namespace EmbeddedCfdp

open CMemory

variable {T : Target} {p : Ptr} {xs : List UInt8} {len hsize : Size T} {hdr : PduHeader}

theorem HeaderRead.unique {hsize' : Size T} {hdr' : PduHeader}
    (h : HeaderRead p len hsize hdr) (h' : HeaderRead p len hsize' hdr') :
    hsize' = hsize ∧ hdr' = hdr := by
  have hsame := (h'.run default).symm.trans (h.run default)
  simp only [Except.ok.injEq, Prod.mk.injEq, Option.some.injEq] at hsame
  exact hsame

theorem HeaderRead.bounds (h : HeaderRead p len hsize hdr)
    (hreadable : min len.toNat 28 ≤ p.readable.length) :
    7 ≤ hsize.toNat ∧ hsize.toNat ≤ 28 ∧ hsize.toNat ≤ len.toNat := by
  have hle := length_octetsAt_le (some p) len.toNat
  have hmin := min_le_length_octetsAt hreadable
  have hdec := (headerRead_iff holds_octetsAt hle hmin).mp h
  have hlength := length_of_headerDecode hdec
  omega

/-! ### Verifying -/

/-- The two octets that end `total` octets behind `p`, in the arithmetic of `size_t`, may be read
    and are the CRC of what precedes them. -/
def CrcEndsAt (p : Ptr) (total : Size T) : Prop :=
  ∃ start, Size.sub total (sz CFDP_PDU_CRC_LEN) = .ok start ∧
    start.toNat + 2 ≤ p.readable.length ∧
    crcOctets CFDP_CRC_INIT (octetsAt (some p) start.toNat) =
      (uintAt p.readable start.toNat 2).toUInt16

theorem crcCheck_iff (total : Size T) :
    (do
        let protectedLen ← Size.sub total (sz CFDP_PDU_CRC_LEN)
        let expected ← crcCompute (some p) protectedLen
        let received ← readUint ((← deref (some p)).add protectedLen.toNat) 2
        return decide (expected = received.toUInt16) : Except Fault Bool) = .ok true ↔
      CrcEndsAt p total := by
  have hall : p.Holds p.readable := List.prefix_rfl
  have hcompute : ∀ start : Size T, start.toNat ≤ p.readable.length →
      crcCompute (some p) start = .ok (crcOctets CFDP_CRC_INIT (octetsAt (some p) start.toNat)) :=
    fun start hstart => crcCompute_eq holds_octetsAt (List.length_take_of_le hstart)
  have hread : ∀ start : Size T, start.toNat + 2 ≤ p.readable.length →
      readUint (p.add start.toNat) 2 = .ok (uintAt p.readable start.toNat 2) :=
    fun start hstart => readUint_add hall hstart
  constructor
  -- a run that ends read both octets, which is where the bound comes from
  · intro h
    obtain ⟨start, hsub, h⟩ := bind_eq_ok.mp h
    obtain ⟨expected, hexpected, h⟩ := bind_eq_ok.mp h
    rw [deref, ok_bind] at h
    obtain ⟨received, hreceived, h⟩ := bind_eq_ok.mp h
    have hstay := readUintLoop_eq_ok hreceived (by decide)
    rw [Ptr.readable_add, List.length_drop] at hstay
    change 0 + 2 ≤ _ at hstay
    have hfits : start.toNat + 2 ≤ p.readable.length := by omega
    have hsame := (hcompute start (by omega)).symm.trans hexpected
    have hsame' := (hread start hfits).symm.trans hreceived
    rw [Except.ok.injEq] at hsame hsame'
    have hmatch : expected = received.toUInt16 := of_decide_eq_true (Except.ok.inj h)
    exact ⟨start, hsub, hfits, by rw [hsame, hsame', hmatch]⟩
  · rintro ⟨start, hsub, hfits, hmatch⟩
    rw [hsub, ok_bind, hcompute start (by omega), ok_bind, deref, ok_bind, hread start hfits,
      ok_bind, decide_eq_true hmatch]
    rfl

/-- What `cfdp_pdu_crc_verify` accepts, with the sum of the lengths as `size_t` has it. -/
theorem pduCrcVerify_eq_true_iff (hp : p.Holds xs) (hlen : xs.length = len.toNat) :
    pduCrcVerify (some p) len = .ok true ↔
      ∃ (hsize : Size T) (hdr : PduHeader), HeaderRead p len hsize hdr ∧
        (hsize + sz hdr.dataFieldLength.toNat).toNat ≤ len.toNat ∧
        (hdr.crcFlag = CFDP_CRC_PRESENT → CFDP_PDU_CRC_LEN ≤ hdr.dataFieldLength.toNat ∧
          CrcEndsAt p (hsize + sz hdr.dataFieldLength.toNat)) := by
  have hread := fun hsize hdr => @headerRead_iff T p xs len hsize hdr hp (Nat.le_of_eq hlen)
    (by omega)
  cases hdec : headerDecode xs with
  | none =>
    rw [pduCrcVerify_no_header hp hlen hdec]
    refine iff_of_false (by rintro ⟨⟩) ?_
    rintro ⟨hsize, hdr, hheader, _⟩
    rw [(hread _ _).mp hheader] at hdec
    cases hdec
  | some r =>
    obtain ⟨n, hdr⟩ := r
    obtain ⟨hseven, h28, _⟩ := length_of_headerDecode hdec
    have hsize : (sz n : Size T).toNat = n := toNat_sz_small (by omega)
    have hheader : HeaderRead p len (sz n) hdr := (hread _ _).mpr (by rw [hsize, hdec])
    rw [pduCrcVerify_of_decode hp hlen hdec]
    constructor
    -- from here on the three checks of the source, in its order
    · intro h
      refine ⟨sz n, hdr, hheader, ?_⟩
      by_cases hshort : len < sz n + sz hdr.dataFieldLength.toNat
      · rw [if_pos hshort] at h
        cases h
      · rw [if_neg hshort] at h
        refine ⟨Nat.le_of_not_lt hshort, fun hcrc => ?_⟩
        rw [if_neg (not_not.mpr hcrc)] at h
        by_cases hsmall : hdr.dataFieldLength.toNat < CFDP_PDU_CRC_LEN
        · rw [if_pos hsmall] at h
          cases h
        · rw [if_neg hsmall] at h
          exact ⟨Nat.le_of_not_lt hsmall, (crcCheck_iff _).mp h⟩
    · rintro ⟨hsize', hdr', hheader', hroom, hchecked⟩
      obtain ⟨rfl, rfl⟩ := hheader.unique hheader'
      have hfits : ¬ len < sz n + sz hdr'.dataFieldLength.toNat := Nat.not_lt.mpr hroom
      rw [if_neg hfits]
      by_cases hcrc : hdr'.crcFlag = CFDP_CRC_PRESENT
      · obtain ⟨hcounted, hends⟩ := hchecked hcrc
        rw [if_neg (not_not.mpr hcrc), if_neg (Nat.not_lt.mpr hcounted)]
        exact (crcCheck_iff _).mpr hends
      · rw [if_pos hcrc]

/-- The sum of the lengths wraps, what is left of it fits the buffer, and the CRC that is then
    looked for, if there is to be one, is there. -/
structure TotalWraps (p : Ptr) (len hsize : Size T) (hdr : PduHeader) : Prop where
  header : HeaderRead p len hsize hdr
  wraps : 2 ^ T.sizeBits ≤ hsize.toNat + hdr.dataFieldLength.toNat
  room : hsize.toNat + hdr.dataFieldLength.toNat - 2 ^ T.sizeBits ≤ len.toNat
  crc : hdr.crcFlag = CFDP_CRC_PRESENT → CrcEndsAt p (hsize + sz hdr.dataFieldLength.toNat)

theorem pduCrcVerify_sound_iff (hp : p.Holds xs) (hlen : xs.length = len.toNat) :
    (pduCrcVerify (some p) len = .ok true → ∃ (hsize : Size T) (hdr : PduHeader),
      HeaderRead p len hsize hdr ∧ hsize.toNat + hdr.dataFieldLength.toNat ≤ len.toNat) ↔
    ¬ ∃ hsize hdr, TotalWraps p len hsize hdr := by
  have hpow := T.two_pow_ge
  have hlt := len.isLt
  rw [pduCrcVerify_eq_true_iff hp hlen]
  constructor
  -- where the total wraps, the PDU is accepted all the same: the run contradicts soundness
  · rintro hsound ⟨hsize, hdr, hheader, hwraps, hroom, hcrc⟩
    have hdfl := hdr.dataFieldLength.toNat_lt
    have hreadable := hp.length_le
    have hbounds := hheader.bounds (by omega)
    have hsum := toNat_add_sz hsize (size_lt T hdfl)
    have htotal := (hsize + sz hdr.dataFieldLength.toNat).isLt
    have hcounted : CFDP_PDU_CRC_LEN ≤ hdr.dataFieldLength.toNat := by
      unfold CFDP_PDU_CRC_LEN
      omega
    obtain ⟨hsize', hdr', hheader', hthere⟩ :=
      hsound ⟨hsize, hdr, hheader, by omega, fun hp => ⟨hcounted, hcrc hp⟩⟩
    obtain ⟨rfl, rfl⟩ := hheader.unique hheader'
    omega
  · rintro hnot ⟨hsize, hdr, hheader, hroom, hchecked⟩
    refine ⟨hsize, hdr, hheader, ?_⟩
    have hdfl := hdr.dataFieldLength.toNat_lt
    have hsum := toNat_add_sz hsize (size_lt T hdfl)
    -- accepted and yet not complete can only mean that the total wrapped
    by_contra hout
    refine hnot ⟨hsize, hdr, hheader, by omega, by omega, fun hcrc => (hchecked hcrc).2⟩

/-! ### Appending -/

section Append

variable {m : Object} {i : Nat} {pduLen cap : Size T}

/-- `pduLen + 2` wraps to 1, which the header describes modulo `2 ^ sizeBits`, and the object goes
    on far enough for the CRC to be written. -/
structure AppendWraps (m : Object) (i : Nat) (pduLen cap hsize : Size T) (hdr : PduHeader) :
    Prop where
  header : HeaderRead ⟨m, i⟩ pduLen hsize hdr
  crc : hdr.crcFlag = CFDP_CRC_PRESENT
  last : pduLen.toNat + 1 = 2 ^ T.sizeBits
  described : hsize.toNat + hdr.dataFieldLength.toNat = 2 ^ T.sizeBits + 1
  capacity : 1 ≤ cap.toNat
  extent : i + (pduLen.toNat + 2) ≤ m.extent

/-- What a call that appends a CRC has checked, with the sums as `size_t` has them. -/
theorem pduCrcAppend_checked (hheader : min pduLen.toNat 28 ≤ (Ptr.mk m i).readable.length)
    {n : Size T} {m' : Object} (hrun : pduCrcAppend (some i) pduLen cap m = .ok (n, m'))
    (hn : n ≠ sz 0) :
    ∃ (hsize : Size T) (hdr : PduHeader), HeaderRead ⟨m, i⟩ pduLen hsize hdr ∧
      hdr.crcFlag = CFDP_CRC_PRESENT ∧ ¬ cap < pduLen + sz CFDP_PDU_CRC_LEN ∧
      hsize + sz hdr.dataFieldLength.toNat = pduLen + sz CFDP_PDU_CRC_LEN ∧
      n = pduLen + sz CFDP_PDU_CRC_LEN ∧ i + (pduLen.toNat + 2) ≤ m.extent := by
  have hp : (Ptr.mk m i).Holds (octetsAt (some ⟨m, i⟩) pduLen.toNat) := holds_octetsAt
  have hle := length_octetsAt_le (some ⟨m, i⟩) pduLen.toNat
  have hmin := min_le_length_octetsAt hheader
  cases hdec : headerDecode (octetsAt (some ⟨m, i⟩) pduLen.toNat) with
  | none =>
    rw [pduCrcAppend_no_header hp hle hmin hdec, Except.ok.injEq, Prod.mk.injEq] at hrun
    exact (hn hrun.1.symm).elim
  | some r =>
    obtain ⟨k, hdr⟩ := r
    obtain ⟨_, h28, _⟩ := length_of_headerDecode hdec
    have hsize : (sz k : Size T).toNat = k := toNat_sz_small (by omega)
    rw [pduCrcAppend_of_decode hp hle hmin hdec] at hrun
    obtain ⟨hpass, hrun⟩ := Writer.guard_eq_ok hrun hn
    rw [not_or, not_or, not_not, not_not] at hpass
    obtain ⟨hcrc, hroom, hdescribed⟩ := hpass
    -- the CRC field was written, so it lies inside the object
    obtain ⟨crc, m₁, hcompute, hrun⟩ := Writer.bind_eq_ok.mp hrun
    obtain ⟨_, m₂, hwrite, hdone⟩ := Writer.bind_eq_ok.mp hrun
    rw [Writer.lift_eq_ok hcompute] at hwrite
    have hextent := writeUintLoop_eq_ok hwrite (by decide)
    rw [Writer.pure_apply, Except.ok.injEq, Prod.mk.injEq] at hdone
    refine ⟨sz k, hdr, (headerRead_iff hp hle hmin).mpr (by rw [hsize, hdec]), hcrc, hroom, ?_,
      hdone.1.symm, ?_⟩
    · rw [sz_add, hdescribed]
    · change i + pduLen.toNat + 2 ≤ m.extent at hextent
      omega

/-- Where the sum wraps, a CRC is written behind the capacity. -/
theorem AppendWraps.run {hsize : Size T} (h : AppendWraps m i pduLen cap hsize hdr) :
    ∃ m', pduCrcAppend (some i) pduLen cap m = .ok (sz 1, m') := by
  obtain ⟨hread, hcrc, hlast, hdescribed, hcap, hext⟩ := h
  have hpow := T.two_pow_ge
  have hreadable : Readable (some ⟨m, i⟩) pduLen.toNat :=
    Ptr.readable_of_extent (by dsimp only; omega)
  have hlen := hreadable.length
  have hdec := (headerRead_iff holds_octetsAt (Nat.le_of_eq hlen) (by omega)).mp hread
  -- both totals wrap to 1, so they agree and one octet of room seems enough
  have hone : (pduLen + sz CFDP_PDU_CRC_LEN : Size T) = sz 1 := by
    have hsum := toNat_add_sz pduLen (size_lt T (by decide : CFDP_PDU_CRC_LEN < 65536))
    have hlt := (pduLen + sz CFDP_PDU_CRC_LEN).isLt
    unfold CFDP_PDU_CRC_LEN at hsum hlt ⊢
    rw [eq_sz_iff (size_lt T (by decide))]
    omega
  have hdescribed' : (sz (hsize.toNat + hdr.dataFieldLength.toNat) : Size T) = sz 1 := by
    apply BitVec.eq_of_toNat_eq
    rw [hdescribed, sz, sz, BitVec.toNat_ofNat, BitVec.toNat_ofNat, Nat.add_mod_left]
  have hpass : ¬ (hdr.crcFlag ≠ CFDP_CRC_PRESENT ∨ cap < pduLen + sz CFDP_PDU_CRC_LEN ∨
      (sz (hsize.toNat + hdr.dataFieldLength.toNat) : Size T) ≠
        pduLen + sz CFDP_PDU_CRC_LEN) := by
    rw [hone, hdescribed', lt_sz_iff (size_lt T (by decide))]
    rintro (habsent | hshort | hother)
    · exact habsent hcrc
    · omega
    · exact hother rfl
  have hcompute : crcCompute (some ⟨m, i⟩) pduLen =
      .ok (crcOctets CFDP_CRC_INIT (octetsAt (some ⟨m, i⟩) pduLen.toNat)) :=
    crcCompute_eq holds_octetsAt hlen
  have hfield := writeUint_apply (i + pduLen.toNat)
    (crcOctets CFDP_CRC_INIT (octetsAt (some ⟨m, i⟩) pduLen.toNat)).toUInt64 2 m
    (by change i + pduLen.toNat + 2 ≤ _; omega)
  rw [pduCrcAppend_of_decode holds_octetsAt (Nat.le_of_eq hlen) (by omega) hdec, if_neg hpass,
    Writer.bind_ok (Writer.lift_ok hcompute), Writer.bind_ok hfield, hone]
  exact ⟨_, rfl⟩

theorem pduCrcAppend_sound_iff (hheader : min pduLen.toNat 28 ≤ (Ptr.mk m i).readable.length) :
    (∀ n m', pduCrcAppend (some i) pduLen cap m = .ok (n, m') → n ≠ sz 0 →
      pduLen.toNat + 2 ≤ cap.toNat ∧ ∃ (hsize : Size T) (hdr : PduHeader),
        HeaderRead ⟨m, i⟩ pduLen hsize hdr ∧
        hsize.toNat + hdr.dataFieldLength.toNat = pduLen.toNat + 2) ↔
    ¬ ∃ hsize hdr, AppendWraps m i pduLen cap hsize hdr := by
  have hpow := T.two_pow_ge
  have hlt := pduLen.isLt
  have hcap := cap.isLt
  constructor
  · rintro hsound ⟨hsize, hdr, h⟩
    obtain ⟨m', hrun⟩ := h.run
    obtain ⟨hroom, -⟩ := hsound _ _ hrun (sz_ne_zero (by decide) (by omega))
    have hlast := h.last
    omega
  · intro hnot n m' hrun hn
    obtain ⟨hsize, hdr, hread, hcrc, hroom, hdescribed, rfl, hext⟩ :=
      pduCrcAppend_checked hheader hrun hn
    have hbounds := hread.bounds hheader
    have hdfl := hdr.dataFieldLength.toNat_lt
    have hleft := toNat_add_sz hsize (size_lt T hdfl)
    have hright := toNat_add_sz pduLen (size_lt T (by decide : CFDP_PDU_CRC_LEN < 65536))
    -- a total that wraps to 0 would be returned as an error
    have hsome : 0 < (pduLen + sz CFDP_PDU_CRC_LEN).toNat := by
      by_contra hzero
      apply hn
      rw [eq_sz_iff (size_lt T (by decide))]
      omega
    rw [BitVec.lt_def, Nat.not_lt] at hroom
    rw [hdescribed] at hleft
    unfold CFDP_PDU_CRC_LEN at hleft hright hroom hsome
    -- when `pduLen + 2` does not wrap the checks mean what they say
    by_cases hexact : pduLen.toNat + 2 < 2 ^ T.sizeBits
    · exact ⟨by omega, hsize, hdr, hread, by omega⟩
    · exact (hnot ⟨hsize, hdr, hread, hcrc, by omega, by omega, by omega, hext⟩).elim

end Append

/-! ### Both functions -/

/-- **Main result.** On a `size_t` of any width, what `cfdp_pdu_crc_verify` accepts is there, and
    what `cfdp_pdu_crc_append` completes was sized for it, exactly where no sum has wrapped as
    described.  From 17 bits on none does.  A run that leaves its object returns nothing and so
    accepts nothing; appending at the very end of the address range takes an object larger than
    the address space of a 16-bit machine. -/
theorem pdu_lengths_sound_iff (T : Target) :
    (∀ (p : Ptr) (xs : List UInt8) (len : Size T), p.Holds xs → xs.length = len.toNat →
      ((pduCrcVerify (some p) len = .ok true → ∃ (hsize : Size T) (hdr : PduHeader),
          HeaderRead p len hsize hdr ∧ hsize.toNat + hdr.dataFieldLength.toNat ≤ len.toNat) ↔
        ¬ ∃ hsize hdr, TotalWraps p len hsize hdr) ∧
      (17 ≤ T.sizeBits → ¬ ∃ hsize hdr, TotalWraps p len hsize hdr)) ∧
    (∀ (m : Object) (i : Nat) (pduLen cap : Size T),
      min pduLen.toNat 28 ≤ (Ptr.mk m i).readable.length →
      ((∀ n m', pduCrcAppend (some i) pduLen cap m = .ok (n, m') → n ≠ sz 0 →
          pduLen.toNat + 2 ≤ cap.toNat ∧ ∃ (hsize : Size T) (hdr : PduHeader),
            HeaderRead ⟨m, i⟩ pduLen hsize hdr ∧
            hsize.toNat + hdr.dataFieldLength.toNat = pduLen.toNat + 2) ↔
        ¬ ∃ hsize hdr, AppendWraps m i pduLen cap hsize hdr) ∧
      (17 ≤ T.sizeBits → ¬ ∃ hsize hdr, AppendWraps m i pduLen cap hsize hdr)) := by
  -- 28 octets of header and 65535 of data field stay below two to the 17
  have hwide : 17 ≤ T.sizeBits → 131072 ≤ 2 ^ T.sizeBits := by
    intro h17
    calc 131072 = 2 ^ 17 := by norm_num
      _ ≤ 2 ^ T.sizeBits := Nat.pow_le_pow_right (by norm_num) h17
  constructor
  · intro p xs len hp hlen
    refine ⟨pduCrcVerify_sound_iff hp hlen, ?_⟩
    rintro h17 ⟨hsize, hdr, h⟩
    have hpow := hwide h17
    have hreadable := hp.length_le
    have hbounds := h.header.bounds (by omega)
    have hdfl := hdr.dataFieldLength.toNat_lt
    have hwraps := h.wraps
    omega
  · intro m i pduLen cap hheader
    refine ⟨pduCrcAppend_sound_iff hheader, ?_⟩
    rintro h17 ⟨hsize, hdr, h⟩
    have hpow := hwide h17
    have hbounds := h.header.bounds hheader
    have hdfl := hdr.dataFieldLength.toNat_lt
    have hdescribed := h.described
    omega

/-- On a machine of 16 bits a short PDU is accepted for what is there. -/
theorem pdu_lengths_sound_iff_sample :
    ∃ (hsize : Size Target.plain16) (hdr : PduHeader),
      HeaderRead ⟨Object.full [0x20, 0x00, 0x02, 0x00, 1, 2, 3, 0x0C, 0x01], 0⟩ (sz 9) hsize hdr ∧
        hsize.toNat + hdr.dataFieldLength.toNat ≤ (sz 9 : Size Target.plain16).toNat := by
  have hp := Object.holds_whole [0x20, 0x00, 0x02, 0x00, 1, 2, 3, 0x0C, 0x01]
  have hsound := ((pdu_lengths_sound_iff Target.plain16).1 _ _ (sz 9) hp rfl).1
  refine hsound.mpr ?_ rfl
  rintro ⟨hsize, hdr, h⟩
  have hheader : HeaderRead (T := Target.plain16)
      ⟨Object.full [0x20, 0x00, 0x02, 0x00, 1, 2, 3, 0x0C, 0x01], 0⟩ (sz 9) (sz 7)
      (headerIds [0x20, 0x00, 0x02, 0x00, 1, 2, 3, 0x0C, 0x01]
        (headerFlags [0x20, 0x00, 0x02, 0x00, 1, 2, 3, 0x0C, 0x01] default)) :=
    ⟨by decide, fun old => rfl⟩
  obtain ⟨rfl, rfl⟩ := hheader.unique h.header
  exact absurd h.wraps (by decide)

/-- Seven octets of header announce 65535 octets of data field; the sum is 6, and the seven octets
    are accepted as the whole PDU. -/
theorem header_alone_accepted :
    pduCrcVerify (some ⟨Object.full [0x20, 0xFF, 0xFF, 0x00, 1, 2, 3], 0⟩)
      (sz 7 : Size Target.plain16) = .ok true ∧
    ¬ (pduCrcVerify (some ⟨Object.full [0x20, 0xFF, 0xFF, 0x00, 1, 2, 3], 0⟩)
        (sz 7 : Size Target.plain16) = .ok true →
      ∃ (hsize : Size Target.plain16) (hdr : PduHeader),
        HeaderRead ⟨Object.full [0x20, 0xFF, 0xFF, 0x00, 1, 2, 3], 0⟩ (sz 7) hsize hdr ∧
        hsize.toNat + hdr.dataFieldLength.toNat ≤ (sz 7 : Size Target.plain16).toNat) := by
  have hrun : pduCrcVerify (some ⟨Object.full [0x20, 0xFF, 0xFF, 0x00, 1, 2, 3], 0⟩)
      (sz 7 : Size Target.plain16) = .ok true := rfl
  refine ⟨hrun, fun hsound => ?_⟩
  obtain ⟨hsize, hdr, h, hthere⟩ := hsound hrun
  have hheader : HeaderRead (T := Target.plain16)
      ⟨Object.full [0x20, 0xFF, 0xFF, 0x00, 1, 2, 3], 0⟩ (sz 7) (sz 7)
      (headerIds [0x20, 0xFF, 0xFF, 0x00, 1, 2, 3]
        (headerFlags [0x20, 0xFF, 0xFF, 0x00, 1, 2, 3] default)) :=
    ⟨by decide, fun old => rfl⟩
  obtain ⟨rfl, rfl⟩ := hheader.unique h
  exact absurd hthere (by decide)

end EmbeddedCfdp
