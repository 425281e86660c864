import EmbeddedCfdp.Delivery

/-!
# A file from the sender's buffers to the receiver's file

Both ends of a transfer as the quick start in `README.md` has them: the sender puts each data
field into a buffer of its own, the link loses, repeats, reorders, pads and corrupts what it
finds in these buffers, and the receiver writes the file.  As soon as every PDU has come
through once, the file is there and passes the check against the EOF.
-/

namespace EmbeddedCfdp

open CMemory Reassembly

variable {T : Target} {N : NakCapacity T}

/-! ### The sender's side -/

/-- A run of the sender. -/
structure Transmission (N : NakCapacity T) where
  hdr : PduHeader
  field : DataField N
  buf : Nat
  cap : Size T
  before : Object
  total : Size T
  after : Object

/-- The octets to transmit. -/
def Transmission.octets (t : Transmission N) : List UInt8 :=
  octetsAt (some ⟨t.after, t.buf⟩) t.total.toNat

/-- The sender was given a part of the transfer of `file`, with a buffer that has room for it,
    and did not return 0. -/
structure Transmission.Ran (file : List UInt8) (t : Transmission N) : Prop where
  header : t.hdr.InRange
  field : t.field.InRange
  type : t.hdr.pduType = t.field.pduType
  sourced : (t.field.serialiser t.hdr).Sourced
  belongs : t.field.BelongsTo file t.hdr.largeFileFlag
  fits : ∃ e, (t.field.serialiser t.hdr).encoding = some e ∧
    headerLength t.hdr + e.length ≤ t.cap.toNat ∧
    (t.hdr.crcFlag ≠ CFDP_CRC_PRESENT → e.length < 65536)
  room : t.buf + t.cap.toNat ≤ t.before.extent
  run : sendPdu t.hdr t.field t.buf t.cap t.before = .ok (t.total, t.after)
  sends : t.total ≠ sz 0

/-- What the sender leaves in its buffer is a PDU of the transfer. -/
theorem Transmission.Ran.sent {file : List UInt8} {t : Transmission N} (h : t.Ran file)
    (h32 : 32 ≤ T.sizeBits) :
    ∃ hdr e, Sent file hdr t.field e ∧ hdr.crcFlag = t.hdr.crcFlag ∧
      t.octets = pduOctets hdr e := by
  obtain ⟨e, he, hle, hshort⟩ := h.fits
  have hsent : e = t.field.sentIn t.hdr (t.cap.toNat - headerLength t.hdr) :=
    (sentIn_of_fits he (by omega)).symm
  obtain ⟨total, after, hrun, _, _, hpdu⟩ :=
    sendPdu_run h32 h.header h.sourced (by omega) h.room hsent
  rw [h.run, Except.ok.injEq, Prod.mk.injEq] at hrun
  obtain ⟨htotal, hafter⟩ := hrun
  rw [← htotal, ← hafter] at hpdu
  obtain ⟨k, hsized, hlength, hholds⟩ := hpdu h.sends hshort
  refine ⟨t.hdr.sized k, e, ?_, rfl, ?_⟩
  · exact ⟨h.header.sized k, h.field, h.type, h.sourced, he, hsized, h.belongs⟩
  · rw [octets, ← hlength, hholds.octetsAt]

/-- Every PDU of a transfer can be sent, given room for it. -/
theorem Sent.transmission {file : List UInt8} {hdr : PduHeader} {x : DataField N}
    {e : List UInt8} (h : Sent file hdr x e) (h32 : 32 ≤ T.sizeBits) {i : Nat} {cap : Size T}
    {m : Object} (hroom : (pduOctets hdr e).length ≤ cap.toNat)
    (hext : i + cap.toNat ≤ m.extent) :
    ∃ t : Transmission N, t.hdr = hdr ∧ t.field = x ∧ t.Ran file := by
  have hsized := h.sized
  have hdfl := hdr.dataFieldLength.toNat_lt
  rw [length_pduOctets hsized] at hroom
  unfold SizedFor CFDP_PDU_CRC_LEN at hsized
  have hsent : e = x.sentIn hdr (cap.toNat - headerLength hdr) :=
    (sentIn_of_fits h.encoding (by omega)).symm
  obtain ⟨total, after, hrun, _, htotal, _⟩ :=
    sendPdu_run h32 h.header h.sourced (by omega) hext hsent
  refine ⟨⟨hdr, x, i, cap, m, total, after⟩, rfl, rfl, h.header, h.field, h.type, h.sourced,
    h.belongs, ⟨e, h.encoding, by dsimp only; omega, fun _ => by omega⟩, hext, hrun, ?_⟩
  apply htotal.mpr
  intro hcrc
  rw [if_pos hcrc] at hsized
  exact ⟨by omega, by omega⟩

/-! ### The link -/

/-- What a frame brings of what was sent: a PDU with any padding behind it, or nothing, where
    one was corrupted in a way that its CRC reveals or where there is no PDU at all. -/
inductive Frame.Brings (ts : List (Transmission N)) (fr : Frame T) :
    Option (DataField N) → Prop where
  | intact {t : Transmission N} {z : List UInt8} : t ∈ ts → fr.Carries (t.octets ++ z) →
      Brings ts fr (some t.field)
  | corrupted {t : Transmission N} {z err : List UInt8} : t ∈ ts →
      t.hdr.crcFlag = CFDP_CRC_PRESENT → err.length = t.octets.length → SparesLayout err →
      ¬ IsMultiple err → fr.Carries (corrupt (t.octets ++ z) err) → Brings ts fr none
  | noise {xs : List UInt8} : fr.Carries xs → (¬ ∃ hsize hdr, PduAt xs hsize hdr) →
      Brings ts fr none

section Link

variable {file : List UInt8} {ts : List (Transmission N)} {xs : List (Option (DataField N))}

theorem Frame.Brings.arrives (h32 : 32 ≤ T.sizeBits) (hran : ∀ t ∈ ts, t.Ran file)
    {fr : Frame T} {x : Option (DataField N)} (h : fr.Brings ts x) : fr.Arrives N file x := by
  cases h with
  | intact ht hcarries =>
    obtain ⟨hdr, e, hsent, _, hoctets⟩ := (hran _ ht).sent h32
    rw [hoctets] at hcarries
    exact .intact hsent hcarries
  | corrupted ht hcrc hlength hspares hmultiple hcarries =>
    obtain ⟨hdr, e, hsent, hflag, hoctets⟩ := (hran _ ht).sent h32
    rw [hoctets] at hlength hcarries
    exact .corrupted hsent (hflag.trans hcrc) hlength hspares hmultiple hcarries
  | noise hcarries hnot => exact .noise hcarries hnot

theorem mem_pieces {s : Piece UInt8} :
    s ∈ pieces xs ↔ ∃ x, some x ∈ xs ∧ x.piece? = some s := by
  unfold pieces
  rw [List.mem_filterMap]
  constructor
  · rintro ⟨x, hx, hpiece⟩
    obtain ⟨y, rfl, hpiece⟩ := Option.bind_eq_some_iff.mp hpiece
    exact ⟨y, hx, hpiece⟩
  · rintro ⟨x, hx, hpiece⟩
    exact ⟨some x, hx, hpiece⟩

/-- **Main result.** A sender has put segments that together make up a file, and an EOF for it,
    each into a buffer, with whatever else belongs to the transfer.  A receiver to which each
    of these has come through at least once, in whatever order and with whatever else the link
    brought in between, has the whole file, and its size and its checksum are those of the EOF. -/
theorem transfer (h32 : 32 ≤ T.sizeBits) (hran : ∀ t ∈ ts, t.Ran file)
    (hcut : ∀ j < file.length, ∃ t ∈ ts, ∃ s, t.field.piece? = some s ∧ j ∈ s.span)
    (heof : ∃ t ∈ ts, ∃ pdu, t.field = .eof pdu) {m : Object} (hroom : file.length ≤ m.extent)
    {frames : List (Frame T)} (hlink : List.Forall₂ (Frame.Brings ts) frames xs)
    (hthrough : ∀ t ∈ ts, some t.field ∈ xs) :
    ∃ pdu m', receiveFrames N frames none m = .ok (some pdu, m') ∧ (Ptr.mk m' 0).Holds file ∧
      pdu.fileSize.toNat = file.length ∧ ∀ len : Size T, file.length = len.toNat →
        checksumCompute (some ⟨m', 0⟩) len = .ok pdu.fileChecksum := by
  have harrives : List.Forall₂ (Frame.Arrives N file) frames xs :=
    hlink.imp fun _ _ hbrings => hbrings.arrives h32 hran
  -- every octet was cut into some segment, and every segment came through at least once
  have hall : ∀ j < file.length, j ∈ covered (pieces xs) := by
    intro j hj
    obtain ⟨t, ht, s, hpiece, hspan⟩ := hcut j hj
    exact mem_covered.mpr ⟨s, mem_pieces.mpr ⟨t.field, hthrough t ht, hpiece⟩, hspan⟩
  obtain ⟨eof, m', hrun, hholds, hdone⟩ := receiveFrames_complete h32 harrives hroom hall
  obtain ⟨eof', _, hrun', _, _, _, hkept⟩ := receiveFrames_run h32 harrives hroom none
  rw [hrun, Except.ok.injEq, Prod.mk.injEq] at hrun'
  obtain ⟨rfl, _⟩ := hrun'
  obtain ⟨t, ht, pdu, hpdu⟩ := heof
  -- an EOF was among what came through, so the receiver holds one at the end
  have hsome : eof.isSome := hkept.mpr (Or.inr ⟨pdu, hpdu ▸ hthrough t ht⟩)
  obtain ⟨pdu', rfl⟩ := Option.isSome_iff_exists.mp hsome
  obtain ⟨hsize, hchecks⟩ := hdone pdu' rfl
  exact ⟨pdu', m', hrun, hholds, hsize, fun len hlen => (hchecks len (hsize.trans hlen)).2⟩

end Link

/-- The whole file in one segment, which comes in twice, and the EOF, which comes in first. -/
theorem transfer_sample :
    ∃ t₁ t₂ : Transmission defaultNakCapacity,
      t₁.field = .fileData (sampleSegment 0 sampleDeliveredFile) ∧
      t₂.field = .eof sampleDeliveredEof ∧
      ∃ pdu m', receiveFrames defaultNakCapacity
          [sampleFrame t₂.octets, sampleFrame t₁.octets, sampleFrame t₁.octets] none
          (Object.full [1, 2, 3, 4]) = .ok (some pdu, m') ∧
        (Ptr.mk m' 0).Holds sampleDeliveredFile := by
  have hwhole : Sent sampleDeliveredFile (sampleSegmentHeader 9)
      (.fileData (sampleSegment 0 sampleDeliveredFile) : DataField defaultNakCapacity)
      [0, 0, 0, 0, 0xAA, 0xBB, 0xCC] :=
    sampleSegment_sent (by decide) (by decide) (by decide +kernel) rfl ⟨[], rfl⟩
  obtain ⟨t₁, _, hfield₁, hran₁⟩ := @Sent.transmission _ _ _ _ _ _ hwhole (Nat.le_refl 32) 0
    (sz 64) (Object.full (List.replicate 64 0)) (by decide) (by decide)
  obtain ⟨t₂, _, hfield₂, hran₂⟩ := @Sent.transmission _ _ _ _ _ _ sampleDeliveredEof_sent
    (Nat.le_refl 32) 0 (sz 64) (Object.full (List.replicate 64 0)) (by decide) (by decide)
  refine ⟨t₁, t₂, hfield₁, hfield₂, ?_⟩
  have hcarries : ∀ t : Transmission defaultNakCapacity,
      (sampleFrame t.octets).Carries (t.octets ++ []) := by
    intro t
    rw [List.append_nil]
    exact sampleFrame_carries (Nat.lt_of_le_of_lt (List.length_take_le _ _) t.total.isLt)
  have hfirst : (sampleFrame t₁.octets).Brings [t₁, t₂] (some t₁.field) :=
    .intact List.mem_cons_self (hcarries t₁)
  have hsecond : (sampleFrame t₂.octets).Brings [t₁, t₂] (some t₂.field) :=
    .intact (List.mem_cons_of_mem _ List.mem_cons_self) (hcarries t₂)
  have hran : ∀ t ∈ [t₁, t₂], t.Ran sampleDeliveredFile := by
    intro t ht
    rcases List.mem_cons.mp ht with rfl | ht
    · exact hran₁
    · rw [List.mem_singleton.mp ht]
      exact hran₂
  have hthrough : ∀ t ∈ [t₁, t₂], some t.field ∈ [some t₂.field, some t₁.field,
      some t₁.field] := by
    intro t ht
    rcases List.mem_cons.mp ht with rfl | ht
    · exact List.mem_cons_of_mem _ List.mem_cons_self
    · rw [List.mem_singleton.mp ht]
      exact List.mem_cons_self
  have hcut : ∀ j < sampleDeliveredFile.length, ∃ t ∈ [t₁, t₂], ∃ s,
      t.field.piece? = some s ∧ j ∈ s.span := by
    intro j hj
    refine ⟨t₁, List.mem_cons_self, (sampleSegment 0 sampleDeliveredFile).piece, ?_, ?_⟩
    · rw [hfield₁]
      rfl
    · exact ⟨Nat.zero_le j, hj⟩
  have heof : ∃ t ∈ [t₁, t₂], ∃ pdu, t.field = .eof pdu :=
    ⟨t₂, List.mem_cons_of_mem _ List.mem_cons_self, sampleDeliveredEof, hfield₂⟩
  have hroom : sampleDeliveredFile.length ≤ (Object.full [1, 2, 3, 4]).extent := by decide
  obtain ⟨pdu, m', hrun, hholds, _⟩ := transfer (Nat.le_refl 32) hran hcut heof hroom
    (.cons hsecond (.cons hfirst (.cons hfirst .nil))) hthrough
  exact ⟨pdu, m', hrun, hholds⟩

end EmbeddedCfdp
