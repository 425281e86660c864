import EmbeddedCfdp.PduCrc

/-!
# Which PDUs get a CRC

`cfdp_pdu_crc_append` compares the capacity with `pdu_len + 2`, added up in `size_t`, where
the sum may wrap.  A `size_t` of 32 bits is wide enough for the second comparison, with the
length that the header describes, to catch that: a CRC is appended to correctly sized PDUs
only, and otherwise nothing is written.
-/

namespace EmbeddedCfdp

open CMemory

variable {T : Target} {p : Ptr} {xs : List UInt8} {len hsize : Size T} {hdr : PduHeader}

/-- The first `len` octets behind `p` start with the header `hdr`, of `hsize` octets. -/
structure HeaderRead (p : Ptr) (len hsize : Size T) (hdr : PduHeader) : Prop where
  decoded : hsize ≠ sz 0
  run : ∀ old, pduHeaderDeserialize (some p) len (some old) = .ok (hsize, some hdr)

theorem headerRead_iff (h : p.Holds xs) (hle : xs.length ≤ len.toNat)
    (hmin : min len.toNat 28 ≤ xs.length) :
    HeaderRead p len hsize hdr ↔ headerDecode xs = some (hsize.toNat, hdr) := by
  constructor
  · rintro ⟨hdecoded, hrun⟩
    have hdecodes := pduHeaderDeserialize_decodes h hle hmin default
    obtain ⟨⟨n, hdr'⟩, hdec, rfl, heq⟩ := hdecodes.of_run (hrun default) hdecoded
    obtain ⟨_, h28, _⟩ := length_of_headerDecode hdec
    rw [Option.some.injEq] at heq
    rw [toNat_sz_small (by dsimp only; omega), hdec, heq]
  · intro hdec
    obtain ⟨hseven, _, _⟩ := length_of_headerDecode hdec
    constructor
    · exact Size.ne_zero (by omega)
    · intro old
      have hrun := (pduHeaderDeserialize_decodes h hle hmin old).accepts
        (by rw [hdec, Option.map_some])
      rwa [sz_toNat] at hrun

section Append

variable {m : Object} {i n : Nat} {pduLen cap : Size T}

/-- The PDU of `pduLen` octets is ready for its CRC: its header asks for one and counts it, and
    the capacity has room for it. -/
structure Appendable (p : Ptr) (pduLen cap hsize : Size T) (hdr : PduHeader) : Prop where
  header : HeaderRead p pduLen hsize hdr
  crc : hdr.crcFlag = CFDP_CRC_PRESENT
  room : pduLen.toNat + 2 ≤ cap.toNat
  described : hsize.toNat + hdr.dataFieldLength.toNat = pduLen.toNat + 2

/-- The two comparisons together are exact. -/
theorem described_of_wrapping (h32 : 32 ≤ T.sizeBits) {described : Nat} (hmin : 2 ≤ described)
    (hmax : described < 4294967296) (hroom : ¬ cap < pduLen + sz CFDP_PDU_CRC_LEN)
    (hsize : sz described = pduLen + sz CFDP_PDU_CRC_LEN) :
    described = pduLen.toNat + 2 ∧ pduLen.toNat + 2 ≤ cap.toNat := by
  have hpow := T.two_pow_ge_of_le h32
  have hlt := pduLen.isLt
  have hexact : (pduLen + sz CFDP_PDU_CRC_LEN).toNat = described := by
    rw [← hsize, toNat_sz (by omega)]
  rw [BitVec.lt_def, hexact] at hroom
  have hsum := toNat_add_sz pduLen (size_lt T (by decide : CFDP_PDU_CRC_LEN < 65536))
  rw [hexact] at hsum
  unfold CFDP_PDU_CRC_LEN at hsum
  omega

/-- A PDU that is not sized for its CRC, or has no room for it, is left as it is. -/
theorem pduCrcAppend_refuses (h32 : 32 ≤ T.sizeBits) (hp : (Ptr.mk m i).Holds xs)
    (hle : xs.length ≤ pduLen.toNat) (hmin : min pduLen.toNat 28 ≤ xs.length)
    (hdec : headerDecode xs = some (n, hdr))
    (h : ¬ (hdr.crcFlag = CFDP_CRC_PRESENT ∧ pduLen.toNat + 2 ≤ cap.toNat ∧
      n + hdr.dataFieldLength.toNat = pduLen.toNat + 2)) :
    pduCrcAppend (some i) pduLen cap m = .ok (sz 0, m) := by
  obtain ⟨hseven, h28, _⟩ := length_of_headerDecode hdec
  have hdfl := hdr.dataFieldLength.toNat_lt
  rw [pduCrcAppend_of_decode hp hle hmin hdec, if_pos]
  · rfl
  · by_contra hpass
    rw [not_or, not_or, not_not, not_not] at hpass
    obtain ⟨hcrc, hroom, hsize⟩ := hpass
    obtain ⟨hdescribed, hcap⟩ := described_of_wrapping h32 (by omega) (by omega) hroom hsize
    exact h ⟨hcrc, hcap, hdescribed⟩

/-- A PDU that is ready for its CRC gets it. -/
theorem Appendable.run {hsize : Size T} (h : Appendable ⟨m, i⟩ pduLen cap hsize hdr)
    (hext : i + (pduLen.toNat + 2) ≤ m.extent) :
    ∃ n m', pduCrcAppend (some i) pduLen cap m = .ok (n, m') ∧ n.toNat = pduLen.toNat + 2 ∧
      m.SameOutside m' (i + pduLen.toNat) 2 := by
  have hlt := cap.isLt
  have hroom := h.room
  have hreadable : Readable (some ⟨m, i⟩) pduLen.toNat :=
    Ptr.readable_of_extent (by dsimp only; omega)
  have hlen := hreadable.length
  have hdec := (headerRead_iff holds_octetsAt (Nat.le_of_eq hlen) (by omega)).mp h.header
  have hrun := @pduCrcAppend_run T m i _ cap _ _ holds_octetsAt hdec h.crc
    (by rw [hlen]; exact h.described) (by rw [hlen]; exact h.room) (by rw [hlen]; exact hext)
  rw [hlen, sz_toNat] at hrun
  refine ⟨_, _, hrun, toNat_sz (by omega), Object.sameOutside_place ?_⟩
  rw [length_crcField]

/-- **Main result.** A CRC is appended exactly to the PDUs that are ready for it, behind them;
    otherwise nothing is written.  A data field length that was reduced modulo 65536 makes no
    PDU ready. -/
theorem pduCrcAppend_atomic (h32 : 32 ≤ T.sizeBits)
    (hheader : min pduLen.toNat 28 ≤ (Ptr.mk m i).readable.length)
    (hext : pduLen.toNat + 2 ≤ cap.toNat → i + (pduLen.toNat + 2) ≤ m.extent) :
    (∃ n m', pduCrcAppend (some i) pduLen cap m = .ok (n, m') ∧
      (n ≠ sz 0 ↔ ∃ hsize hdr, Appendable ⟨m, i⟩ pduLen cap hsize hdr) ∧
      (n ≠ sz 0 → n.toNat = pduLen.toNat + 2 ∧ m.SameOutside m' (i + pduLen.toNat) 2) ∧
      (n = sz 0 → m' = m)) ∧
    (∀ (hsize : Size T) (hdr : PduHeader) (payload : Nat),
      HeaderRead ⟨m, i⟩ pduLen hsize hdr → pduLen.toNat = hsize.toNat + payload →
      65534 ≤ payload → hdr.dataFieldLength.toNat = (payload + 2) % 65536 →
      pduCrcAppend (some i) pduLen cap m = .ok (sz 0, m)) := by
  have hp : (Ptr.mk m i).Holds (octetsAt (some ⟨m, i⟩) pduLen.toNat) := holds_octetsAt
  have hle := length_octetsAt_le (some ⟨m, i⟩) pduLen.toNat
  have hmin := min_le_length_octetsAt hheader
  constructor
  -- appendable, or else refused: no header, or one of the three conditions fails
  · by_cases hready : ∃ hsize hdr, Appendable ⟨m, i⟩ pduLen cap hsize hdr
    · obtain ⟨hsize, hdr, h⟩ := hready
      obtain ⟨n, m', hrun, hn, hsame⟩ := h.run (hext h.room)
      have hne : n ≠ sz 0 := Size.ne_zero (by omega)
      exact ⟨n, m', hrun, iff_of_true hne ⟨hsize, hdr, h⟩, fun _ => ⟨hn, hsame⟩,
        fun hzero => (hne hzero).elim⟩
    · refine ⟨sz 0, m, ?_, iff_of_false (fun hne => hne rfl) hready, fun hne => (hne rfl).elim,
        fun _ => rfl⟩
      cases hdec : headerDecode (octetsAt (some ⟨m, i⟩) pduLen.toNat) with
      | none => exact pduCrcAppend_no_header hp hle hmin hdec
      | some r =>
        obtain ⟨n, hdr⟩ := r
        obtain ⟨_, h28, _⟩ := length_of_headerDecode hdec
        have hsize : (sz n : Size T).toNat = n := toNat_sz_small (by omega)
        refine pduCrcAppend_refuses h32 hp hle hmin hdec ?_
        rintro ⟨hcrc, hroom, hdescribed⟩
        refine hready ⟨sz n, hdr, ?_, hcrc, hroom, by rw [hsize]; exact hdescribed⟩
        exact (headerRead_iff hp hle hmin).mpr (by rw [hsize]; exact hdec)
  -- 65534 octets and their CRC pass the sixteen bits of the length field, so the header
  -- cannot describe them
  · intro hsize hdr payload hread hlength hlong hdfl
    have hdec := (headerRead_iff hp hle hmin).mp hread
    refine pduCrcAppend_refuses h32 hp hle hmin hdec ?_
    rintro ⟨-, -, hdescribed⟩
    omega

/-- A header of seven octets and a payload of one, in a buffer with room for the CRC. -/
theorem pduCrcAppend_atomic_sample :
    ∃ n m', pduCrcAppend (some 0) (sz 8 : Size .checked32) (sz 10)
        (Object.full [0x22, 0x00, 0x03, 0x00, 0x01, 0x02, 0x03, 0x0C, 0x00, 0x00]) =
          .ok (n, m') ∧ n.toNat = 10 := by
  obtain ⟨n, m', hrun, hready, hwritten, -⟩ := (@pduCrcAppend_atomic .checked32
    (Object.full [0x22, 0x00, 0x03, 0x00, 0x01, 0x02, 0x03, 0x0C, 0x00, 0x00]) 0 (sz 8) (sz 10)
    (Nat.le_refl 32) (by decide) (by decide)).1
  have hheader : HeaderRead (T := .checked32)
      ⟨Object.full [0x22, 0x00, 0x03, 0x00, 0x01, 0x02, 0x03, 0x0C, 0x00, 0x00], 0⟩ (sz 8) (sz 7)
      (headerIds [0x22, 0x00, 0x03, 0x00, 0x01, 0x02, 0x03, 0x0C, 0x00, 0x00]
        (headerFlags [0x22, 0x00, 0x03, 0x00, 0x01, 0x02, 0x03, 0x0C, 0x00, 0x00] default)) :=
    ⟨by decide, fun old => rfl⟩
  have hne : n ≠ sz 0 := hready.mpr ⟨_, _, hheader, by decide, by decide, by decide⟩
  exact ⟨n, m', hrun, (hwritten hne).1⟩

end Append

end EmbeddedCfdp
