import EmbeddedCfdp.CrcOrder
import EmbeddedCfdp.PduCrc

/-!
# Errors that the PDU CRC detects

The register of the CRC is a remainder, so the difference of two PDUs that both check
is a multiple of the generator.  Bursts of at most sixteen bits and errors of odd
weight are not; as long as the corrupted header selects the same octets, the receiver
rejects them.
-/

namespace EmbeddedCfdp

open CMemory

variable {T : Target}

/-! ### Error patterns -/

/-- The error pattern `e` on the first octets of `xs`. -/
def corrupt (xs e : List UInt8) : List UInt8 :=
  List.zipWith (· ^^^ ·) xs e ++ xs.drop e.length

/-- The bits of a string in wire order, the most significant bit of an octet first. -/
def wireBits (xs : List UInt8) : List Bool := CrcRegister.messageBits (xs.map UInt8.toBitVec)

/-- All set bits of `e` lie within `width` consecutive bits. -/
def IsBurst (width : Nat) (e : List UInt8) : Prop :=
  ∃ start, ∀ i, (wireBits e)[i]? = some true → start ≤ i ∧ i < start + width

def IsOddWeight (e : List UInt8) : Prop := (wireBits e).count true % 2 = 1

/-- The error leaves alone the CRC flag, the data field length and the identifier
    lengths, the fields that say which octets the CRC covers. -/
structure SparesLayout (e : List UInt8) : Prop where
  crcFlag : e.getD 0 0 &&& 0x02 = 0
  lengthHigh : e.getD 1 0 = 0
  lengthLow : e.getD 2 0 = 0
  idLengths : e.getD 3 0 &&& 0x77 = 0

section Corrupt

variable {xs e : List UInt8}

theorem length_corrupt (h : e.length ≤ xs.length) : (corrupt xs e).length = xs.length := by
  rw [corrupt, List.length_append, List.length_zipWith, List.length_drop]
  omega

theorem take_corrupt (h : e.length ≤ xs.length) :
    (corrupt xs e).take e.length = List.zipWith (· ^^^ ·) xs e := by
  have hlength : (List.zipWith (· ^^^ ·) xs e).length = e.length := by
    rw [List.length_zipWith]
    omega
  rw [corrupt, List.take_append_of_le_length (by omega), List.take_of_length_le (by omega)]

theorem getD_corrupt (h : e.length ≤ xs.length) (k : Nat) :
    (corrupt xs e).getD k 0 = xs.getD k 0 ^^^ e.getD k 0 := by
  have hlength : (List.zipWith (· ^^^ ·) xs e).length = e.length := by
    rw [List.length_zipWith]
    omega
  simp only [corrupt, List.getD_eq_getElem?_getD]
  by_cases hk : k < e.length
  · have hk' : k < xs.length := by omega
    rw [List.getElem?_append_left (by omega), List.getElem?_zipWith,
      List.getElem?_eq_getElem hk, List.getElem?_eq_getElem hk']
    rfl
  · rw [List.getElem?_append_right (by omega), hlength, List.getElem?_drop,
      Nat.add_sub_cancel' (by omega), List.getElem?_eq_none (Nat.le_of_not_lt hk)]
    exact UInt8.xor_zero.symm

/-- The clean string and its corruption differ by the error. -/
theorem zipWith_xor_corrupt (h : e.length ≤ xs.length) :
    List.zipWith (· ^^^ ·) ((xs.take e.length).map UInt8.toBitVec)
      (((corrupt xs e).take e.length).map UInt8.toBitVec) = e.map UInt8.toBitVec := by
  rw [take_corrupt h]
  induction e generalizing xs with
  | nil => rfl
  | cons b e ih =>
    cases xs with
    | nil => simp at h
    | cons a xs =>
      have htail := ih (Nat.le_of_succ_le_succ h)
      have hhead : a.toBitVec ^^^ (a ^^^ b).toBitVec = b.toBitVec := by
        rw [UInt8.toBitVec_xor, ← BitVec.xor_assoc, BitVec.xor_self, BitVec.zero_xor]
      rw [List.length_cons, List.take_succ_cons, List.zipWith_cons_cons, List.map_cons,
        List.map_cons, List.zipWith_cons_cons, htail, hhead, List.map_cons]

end Corrupt

/-! ### The header still selects the same octets -/

theorem xor_and_of_spared {o e mask : UInt8} (he : e &&& mask = 0) :
    (o ^^^ e) &&& mask = o &&& mask := by
  have hdist : (o ^^^ e) &&& mask = (o &&& mask) ^^^ (e &&& mask) := by
    apply UInt8.toBitVec_inj.mp
    apply BitVec.eq_of_getLsbD_eq
    intro i _
    simp [Bool.and_xor_distrib_right]
  rw [hdist, he, UInt8.xor_zero]

theorem crcFlag_eq_masked (o : UInt8) :
    ((o >>> 1) &&& 0x1 : UInt8) = (((o &&& 0x02) >>> 1) &&& 0x1 : UInt8) := by
  refine BitFields.forall_octet
    (P := fun o => ((o >>> 1) &&& 0x1 : UInt8) = (((o &&& 0x02) >>> 1) &&& 0x1 : UInt8)) ?_ o
  decide +kernel

theorem idLengths_eq_masked (o : UInt8) :
    ((o >>> 4) &&& 0x7 : UInt8) = (((o &&& 0x77) >>> 4) &&& 0x7 : UInt8) ∧
      o &&& 0x7 = (o &&& 0x77) &&& 0x7 := by
  refine BitFields.forall_octet (P := fun o =>
    ((o >>> 4) &&& 0x7 : UInt8) = (((o &&& 0x77) >>> 4) &&& 0x7 : UInt8) ∧
      o &&& 0x7 = (o &&& 0x77) &&& 0x7) ?_ o
  decide +kernel

section Layout

variable {xs e : List UInt8}

theorem headerFlags_corrupt (hspares : SparesLayout e) (h : e.length ≤ xs.length)
    (hfour : 4 ≤ xs.length) (hdr : PduHeader) :
    (headerFlags (corrupt xs e) hdr).crcFlag = (headerFlags xs hdr).crcFlag ∧
      (headerFlags (corrupt xs e) hdr).dataFieldLength = (headerFlags xs hdr).dataFieldLength ∧
      (headerFlags (corrupt xs e) hdr).entityIdLength = (headerFlags xs hdr).entityIdLength ∧
      (headerFlags (corrupt xs e) hdr).transactionSeqLength =
        (headerFlags xs hdr).transactionSeqLength := by
  have hlength := length_corrupt h
  -- every one of the four is made of bits that the error spares
  refine ⟨?_, ?_, ?_, ?_⟩
  · change (((corrupt xs e).getD 0 0 >>> 1) &&& 0x1).toUInt32 =
      ((xs.getD 0 0 >>> 1) &&& 0x1).toUInt32
    rw [crcFlag_eq_masked, getD_corrupt h, xor_and_of_spared hspares.crcFlag, ← crcFlag_eq_masked]
  · change (uintAt (corrupt xs e) 1 2).toUInt16 = (uintAt xs 1 2).toUInt16
    rw [uintAt, uintAt, slice_two (by omega), slice_two (by omega), getD_corrupt h, getD_corrupt h,
      hspares.lengthHigh, hspares.lengthLow, UInt8.xor_zero, UInt8.xor_zero]
  · change ((((corrupt xs e).getD 3 0 >>> 4) &&& 0x7) + 1 : UInt8) =
      ((xs.getD 3 0 >>> 4) &&& 0x7) + 1
    rw [(idLengths_eq_masked _).1, getD_corrupt h, xor_and_of_spared hspares.idLengths,
      ← (idLengths_eq_masked _).1]
  · change ((corrupt xs e).getD 3 0 &&& 0x7) + 1 = (xs.getD 3 0 &&& 0x7) + 1
    rw [(idLengths_eq_masked _).2, getD_corrupt h, xor_and_of_spared hspares.idLengths,
      ← (idLengths_eq_masked _).2]

/-- If the corrupted header is accepted at all, it has the size and the fields that
    decide which octets the CRC covers. -/
theorem headerDecode_corrupt (hspares : SparesLayout e) (h : e.length ≤ xs.length)
    {n n' : Nat} {hdr hdr' : PduHeader} (hdec : headerDecode xs = some (n, hdr))
    (hdec' : headerDecode (corrupt xs e) = some (n', hdr')) :
    n' = n ∧ hdr'.crcFlag = hdr.crcFlag ∧ hdr'.dataFieldLength = hdr.dataFieldLength := by
  obtain ⟨hat, hval⟩ := Option.ite_none_right_eq_some.mp hdec
  obtain ⟨_, hval'⟩ := Option.ite_none_right_eq_some.mp hdec'
  obtain ⟨hcrc, hdfl, hid, hseq⟩ := headerFlags_corrupt hspares h hat.fixed default
  rw [Option.some.injEq, Prod.mk.injEq] at hval hval'
  obtain ⟨rfl, rfl⟩ := hval
  obtain ⟨rfl, rfl⟩ := hval'
  refine ⟨?_, hcrc, hdfl⟩
  rw [headerLength, headerLength, hid, hseq]

end Layout

/-! ### The residue -/

/-- Over a whole PDU, its CRC included, the register ends at zero. -/
theorem PduAt.residue {xs : List UInt8} {hsize : Nat} {hdr : PduHeader} (h : PduAt xs hsize hdr)
    (hcrc : hdr.crcFlag = CFDP_CRC_PRESENT) :
    crcOctets CFDP_CRC_INIT (xs.take (hsize + hdr.dataFieldLength.toNat)) = 0 := by
  have hcomplete := h.complete
  have hlength := h.crcLength hcrc
  have hmatch := h.crc hcrc
  unfold CFDP_PDU_CRC_LEN at hlength
  generalize htotal : hsize + hdr.dataFieldLength.toNat = total at hcomplete hmatch ⊢
  have htwo : total - 2 + 2 = total := Nat.sub_add_cancel (by omega)
  have hresidue := @crcOctets_residue xs (total - 2) (by omega)
  rw [htwo] at hresidue
  exact hresidue.mpr hmatch

/-- `x^16 + x^12 + x^5 + 1` has an even number of terms. -/
theorem eval_one_crcGenerator : (CrcRegister.generator crcGenerator).eval 1 = 0 := by
  have hones : (CrcRegister.symbolBits crcGenerator).count true = 3 := by decide
  rw [CrcRegister.generator, ← CrcRegister.bitsPoly_symbolBits, Polynomial.eval_add,
    CrcRegister.eval_one_bitsPoly, hones, Polynomial.eval_pow, Polynomial.eval_X]
  decide

theorem true_mem_wireBits {e : List UInt8} (h : ∃ b ∈ e, b ≠ 0) : true ∈ wireBits e := by
  obtain ⟨b, hb, hne⟩ := h
  have hbit : ∃ i < 8, b.toBitVec.getMsbD i = true := by
    by_contra hnone
    apply hne
    apply UInt8.toBitVec_inj.mp
    apply BitVec.eq_of_getMsbD_eq
    intro i hi
    have hclear : ¬ b.toBitVec.getMsbD i = true := fun hset => hnone ⟨i, hi, hset⟩
    have hzero : (UInt8.toBitVec 0).getMsbD i = false := BitVec.getMsbD_zero
    rw [hzero, Bool.eq_false_iff.mpr hclear]
  obtain ⟨i, hi, hset⟩ := hbit
  refine List.mem_flatMap.mpr ⟨b.toBitVec, List.mem_map_of_mem hb, ?_⟩
  exact List.mem_map.mpr ⟨i, List.mem_range.mpr hi, hset⟩

/-- No error that the CRC misses is a burst within its width or of odd weight. -/
theorem not_generator_dvd_wireBits {e : List UInt8} (hne : ∃ b ∈ e, b ≠ 0)
    (herr : IsBurst 16 e ∨ IsOddWeight e) :
    ¬ CrcRegister.generator crcGenerator ∣ CrcRegister.bitsPoly (wireBits e) := by
  rcases herr with ⟨start, hburst⟩ | hodd
  · exact CrcRegister.not_generator_dvd_burst (by decide) hburst (true_mem_wireBits hne)
  · exact CrcRegister.not_generator_dvd_odd eval_one_crcGenerator hodd

/-- The error is a multiple of the generator. -/
def IsMultiple (e : List UInt8) : Prop :=
  CrcRegister.generator crcGenerator ∣ CrcRegister.bitsPoly (wireBits e)

/-- The error also leaves alone the version, which is checked on its own. -/
structure SparesSelection (e : List UInt8) : Prop extends SparesLayout e where
  version : e.getD 0 0 &&& 0xE0 = 0

section Corrupted

variable {xs e : List UInt8}

theorem crcOctets_corrupt_iff (h : e.length ≤ xs.length) :
    crcOctets CFDP_CRC_INIT ((corrupt xs e).take e.length) =
      crcOctets CFDP_CRC_INIT (xs.take e.length) ↔ IsMultiple e := by
  have hlengths : ((xs.take e.length).map UInt8.toBitVec).length =
      (((corrupt xs e).take e.length).map UInt8.toBitVec).length := by
    rw [List.length_map, List.length_map, List.length_take, List.length_take, length_corrupt h]
  rw [← UInt16.toBitVec_inj, crcOctets_toBitVec, crcOctets_toBitVec, eq_comm,
    CrcRegister.run_eq_run_iff (by decide) (by norm_num) (by norm_num) hlengths,
    zipWith_xor_corrupt h]
  rfl

theorem version_eq_masked (o : UInt8) :
    ((o >>> 5) &&& 0x7 : UInt8) = (((o &&& 0xE0) >>> 5) &&& 0x7 : UInt8) := by
  refine BitFields.forall_octet
    (P := fun o => ((o >>> 5) &&& 0x7 : UInt8) = (((o &&& 0xE0) >>> 5) &&& 0x7 : UInt8)) ?_ o
  decide +kernel

theorem headerFlags_corrupt_version (hspares : SparesSelection e) (h : e.length ≤ xs.length)
    (hdr : PduHeader) :
    (headerFlags (corrupt xs e) hdr).version = (headerFlags xs hdr).version := by
  change ((((corrupt xs e).getD 0 0 >>> 5) &&& 0x7 : UInt8)) =
    (((xs.getD 0 0 >>> 5) &&& 0x7 : UInt8))
  rw [version_eq_masked, getD_corrupt h, xor_and_of_spared hspares.version, ← version_eq_masked]

/-- A header whose version and layout are spared is still accepted. -/
theorem exists_headerDecode_corrupt (hspares : SparesSelection e) (h : e.length ≤ xs.length)
    {n : Nat} {hdr : PduHeader} (hdec : headerDecode xs = some (n, hdr)) :
    ∃ hdr', headerDecode (corrupt xs e) = some (n, hdr') ∧ hdr'.crcFlag = hdr.crcFlag ∧
      hdr'.dataFieldLength = hdr.dataFieldLength := by
  obtain ⟨hat, hval⟩ := Option.ite_none_right_eq_some.mp hdec
  obtain ⟨_, _, hid, hseq⟩ :=
    headerFlags_corrupt hspares.toSparesLayout h hat.fixed default
  have hsize : headerLength (headerFlags (corrupt xs e) default) =
      headerLength (headerFlags xs default) := by
    rw [headerLength, headerLength, hid, hseq]
  -- the version is spared too, so the header is still one
  have hat' : HeaderAt (corrupt xs e) := by
    refine ⟨?_, ?_, ?_⟩
    · rw [length_corrupt h]
      exact hat.fixed
    · rw [headerFlags_corrupt_version hspares h]
      exact hat.version
    · rw [length_corrupt h, hsize]
      exact hat.complete
  have hdec' : headerDecode (corrupt xs e) =
      some (headerLength (headerFlags (corrupt xs e) default),
        headerIds (corrupt xs e) (headerFlags (corrupt xs e) default)) := if_pos hat'
  obtain ⟨hn, hcrc, hdfl⟩ := headerDecode_corrupt hspares.toSparesLayout h hdec hdec'
  rw [hn] at hdec'
  exact ⟨_, hdec', hcrc, hdfl⟩

end Corrupted

/-- What `cfdp_pdu_crc_verify` makes of a corrupted PDU. -/
theorem pduCrcVerify_corrupt_cases {q : Ptr} {xs e : List UInt8} {len : Size T} {n : Nat}
    {hdr : PduHeader} (hlen : xs.length = len.toNat) (hat : PduAt xs n hdr)
    (hcrc : hdr.crcFlag = CFDP_CRC_PRESENT)
    (htotal : e.length = n + hdr.dataFieldLength.toNat) (hspares : SparesLayout e)
    (hq : q.Holds (corrupt xs e)) :
    ∃ b, pduCrcVerify (some q) len = .ok b ∧ (b = true → IsMultiple e) ∧
      (e.getD 0 0 &&& 0xE0 = 0 → IsMultiple e → b = true) := by
  have hle : e.length ≤ xs.length := by
    rw [htotal]
    exact hat.complete
  have hclean := hat.residue hcrc
  rw [← htotal] at hclean
  have hlt := len.isLt
  have hlength := (length_corrupt hle).trans hlen
  obtain ⟨b, hrun, haccept⟩ := pduCrcVerify_spec_of_fits hq hlength fun n' hdr' hdec' => by
    obtain ⟨rfl, _, hdfl'⟩ := headerDecode_corrupt hspares hle hat.header hdec'
    rw [hdfl']
    omega
  refine ⟨b, hrun, ?_, ?_⟩
  -- both residues are zero, so the error has a zero residue
  · intro hb
    obtain ⟨n', hdr', hat'⟩ := haccept.mp hb
    obtain ⟨rfl, hcrc', hdfl'⟩ := headerDecode_corrupt hspares hle hat.header hat'.header
    have hcorrupt := hat'.residue (hcrc'.trans hcrc)
    rw [hdfl', ← htotal] at hcorrupt
    exact (crcOctets_corrupt_iff hle).mp (hcorrupt.trans hclean.symm)
  -- a multiple does not change the residue, and the header still decodes
  · intro hversion hmultiple
    have hselection : SparesSelection e := ⟨hspares, hversion⟩
    obtain ⟨hdr', hdec', hcrc', hdfl'⟩ := exists_headerDecode_corrupt hselection hle hat.header
    have hlong := hat.crcLength hcrc
    have hresidue := ((crcOctets_corrupt_iff hle).mpr hmultiple).trans hclean
    unfold CFDP_PDU_CRC_LEN at hlong
    refine haccept.mpr ⟨n, hdr', hdec', ?_, ?_, ?_⟩
    · rw [length_corrupt hle, hdfl']
      exact hat.complete
    · rintro -
      rw [hdfl']
      exact hlong
    · rintro -
      have htwo : e.length - 2 + 2 = e.length := Nat.sub_add_cancel (by omega)
      rw [hdfl', ← htotal]
      refine (crcOctets_residue (by rw [length_corrupt hle]; omega)).mp ?_
      rwa [htwo]

/-- The PDU that the receiver has accepted and the header that it has decoded. -/
theorem pduAt_of_run {p : Ptr} {xs : List UInt8} {len hsize : Size T} {old hdr : PduHeader}
    (hwhole : 32 ≤ T.sizeBits ∨ hsize.toNat + hdr.dataFieldLength.toNat ≤ xs.length)
    (hp : p.Holds xs) (hlen : xs.length = len.toNat)
    (haccepted : pduCrcVerify (some p) len = .ok true)
    (hheader : pduHeaderDeserialize (some p) len (some old) = .ok (hsize, some hdr)) :
    PduAt xs hsize.toNat hdr := by
  cases hdec : headerDecode xs with
  | none =>
    rw [pduCrcVerify_no_header hp hlen hdec] at haccepted
    cases haccepted
  | some r =>
    obtain ⟨n, hdr'⟩ := r
    have hread := pduHeaderDeserialize_run hp hlen hdec old
    rw [hheader, Except.ok.injEq, Prod.mk.injEq, Option.some.injEq] at hread
    obtain ⟨rfl, rfl⟩ := hread
    obtain ⟨_, h28, _⟩ := length_of_headerDecode hdec
    have hn : (sz n : Size T).toNat = n := toNat_sz_small (by omega)
    rw [hn] at hwhole ⊢
    have hfits : n + hdr.dataFieldLength.toNat < 2 ^ T.sizeBits := by
      -- the sum of the lengths does not wrap
      rcases hwhole with h32 | hwhole
      · have hpow := T.two_pow_ge_of_le h32
        have hdfl := hdr.dataFieldLength.toNat_lt
        omega
      · exact Nat.lt_of_le_of_lt hwhole (hlen ▸ len.isLt)
    obtain ⟨b, hrun, haccept⟩ := pduCrcVerify_spec_of_fits hp hlen fun n' hdr' hdec' => by
      rw [hdec, Option.some.injEq, Prod.mk.injEq] at hdec'
      obtain ⟨rfl, rfl⟩ := hdec'
      exact hfits
    rw [haccepted, Except.ok.injEq] at hrun
    obtain ⟨n', hdr', hat⟩ := haccept.mp hrun.symm
    obtain ⟨rfl, rfl⟩ := hat.unique hdec
    exact hat

/-- **Main result.** A PDU with a CRC is rejected after every burst of at most sixteen
    bits and every error of odd weight that spares the fields selecting its octets, given that
    the buffer holds all of it, which a `size_t` of 32 bits ensures. -/
theorem pduCrcVerify_corrupt {p q : Ptr} {xs e : List UInt8} {len hsize : Size T}
    {old hdr : PduHeader} (hwhole : 32 ≤ T.sizeBits ∨ e.length ≤ xs.length) (hp : p.Holds xs)
    (hlen : xs.length = len.toNat) (haccepted : pduCrcVerify (some p) len = .ok true)
    (hheader : pduHeaderDeserialize (some p) len (some old) = .ok (hsize, some hdr))
    (hcrc : hdr.crcFlag = CFDP_CRC_PRESENT)
    (htotal : e.length = hsize.toNat + hdr.dataFieldLength.toNat) (hne : ∃ b ∈ e, b ≠ 0)
    (hspares : SparesLayout e) (herr : IsBurst 16 e ∨ IsOddWeight e)
    (hq : q.Holds (corrupt xs e)) :
    pduCrcVerify (some q) len = .ok false := by
  have hat := pduAt_of_run (by rwa [← htotal]) hp hlen haccepted hheader
  obtain ⟨b, hrun, hmultiple, _⟩ :=
    pduCrcVerify_corrupt_cases hlen hat hcrc htotal hspares hq
  cases b with
  | false => exact hrun
  | true =>
    -- what passes is a multiple of the generator
    exact absurd (hmultiple rfl) (not_generator_dvd_wireBits hne herr)

/-- A directive PDU of one octet with its CRC, and a burst across payload and CRC. -/
def sampleCrcPdu : List UInt8 := pduOctets sampleCrcHeader [0x0C]

def sampleBurst : List UInt8 := [0, 0, 0, 0, 0, 0, 0, 0x01, 0x80, 0]

theorem pduCrcVerify_corrupt_sample :
    pduCrcVerify (some ⟨Object.full (corrupt sampleCrcPdu sampleBurst), 0⟩)
      (sz 10 : Size .checked32) = .ok false := by
  have hp := Object.holds_whole sampleCrcPdu
  have hq := Object.holds_whole (corrupt sampleCrcPdu sampleBurst)
  have haccepted : pduCrcVerify (some ⟨Object.full sampleCrcPdu, 0⟩)
      (sz 10 : Size .checked32) = .ok true := by decide +kernel
  have hheader : pduHeaderDeserialize (some ⟨Object.full sampleCrcPdu, 0⟩)
      (sz 10 : Size .checked32) (some default) = .ok (sz 7, some sampleCrcHeader) := by
    decide +kernel
  have hburst : IsBurst 16 sampleBurst := by
    refine ⟨63, fun i hi => ?_⟩
    have hlt : i < 80 := (List.getElem?_eq_some_iff.mp hi).1
    have hall : ∀ i < 80, (wireBits sampleBurst)[i]? = some true → 63 ≤ i ∧ i < 63 + 16 := by
      decide +kernel
    exact hall i hlt hi
  exact pduCrcVerify_corrupt (Or.inl (Nat.le_refl 32)) hp rfl haccepted hheader rfl rfl (by decide)
    ⟨rfl, rfl, rfl, rfl⟩ (Or.inl hburst) hq

end EmbeddedCfdp
