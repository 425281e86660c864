import EmbeddedCfdp.DirectiveDispatch
import EmbeddedCfdp.EofRoundTrip
import EmbeddedCfdp.FinishedRoundTrip
import EmbeddedCfdp.MetadataRoundTrip
import EmbeddedCfdp.NakRoundTrip
import EmbeddedCfdp.Receiver

/-!
# Receiving a PDU

The receiver of the quick start in `README.md`: verify the CRC, decode the header, delimit
the payload, and hand it to the deserialiser that the PDU type and the directive code select.
Whatever was sent arrives as it was given, and what arrives depends on the PDU alone.
-/

namespace EmbeddedCfdp

open CMemory

variable {T : Target} {N : NakCapacity T}

/-! ### The receiver -/

/-- The payload of a PDU, dispatched on the type and the directive code. -/
def payloadDeserialize (N : NakCapacity T) (payload : Option Ptr) (payloadLen : Size T)
    (hdr : PduHeader) : Except Fault (Size T × Option (DataField N)) :=
  if hdr.pduType = CFDP_PDU_TYPE_DIRECTIVE then do
    let (peeked, code) ← pduDirectiveCode payload payloadLen (some default)
    if ¬ peeked then return (sz 0, none)
    match Directive.ofCode (code.getD default) with
    | none => return (sz 0, none)
    | some d => d.deserialize N payload payloadLen hdr.largeFileFlag
  else
    (fileDataDeserialize payload payloadLen hdr.largeFileFlag hdr.segmentMetadataFlag
      (some default)).map fun out => (out.1, out.2.map .fileData)

/-- Nothing is delivered where the PDU is discarded or its payload refused. -/
def receivePdu (N : NakCapacity T) (rx : Option Ptr) (rxLen : Size T) :
    Except Fault (Option (PduHeader × DataField N)) := do
  if ¬ (← pduCrcVerify rx rxLen) then return none
  let (hlen, hdr) ← pduHeaderDeserialize rx rxLen (some default)
  let hdr := hdr.getD default
  let payload := (← deref rx).add hlen.toNat
  let payloadLen ← pduPayloadSize (some hdr)
  let (n, field) ← payloadDeserialize N (some payload) payloadLen hdr
  if n = sz 0 then return none
  return field.map fun x => (hdr, x)

/-- What the receiver makes of the payload `xs` at `p`. -/
def DataField.decode (N : NakCapacity T) (p : Ptr) (xs : List UInt8) (hdr : PduHeader) :
    Option (Nat × DataField N) :=
  if hdr.pduType = CFDP_PDU_TYPE_DIRECTIVE then
    (Directive.ofCode (xs.getD 0 0).toUInt32).bind fun d => d.decode N p xs hdr.largeFileFlag
  else
    (@FileDataItem.decode hdr.largeFileFlag hdr.segmentMetadataFlag xs).map fun x =>
      (xs.length, .fileData (x.view p))

section Receive

variable {p : Ptr} {xs : List UInt8} {len : Size T} {hdr : PduHeader}

theorem payloadDeserialize_decodes (h : p.Holds xs) (hlen : xs.length = len.toNat)
    (hdr : PduHeader) :
    Decodes (payloadDeserialize N (some p) len hdr)
      ((DataField.decode N p xs hdr).map fun r => (r.1, some r.2)) := by
  unfold payloadDeserialize DataField.decode
  by_cases htype : hdr.pduType = CFDP_PDU_TYPE_DIRECTIVE
  · rw [if_pos htype, if_pos htype, pduDirectiveCode_eq h hlen]
    by_cases hnil : xs = []
    · subst hnil
      exact Decodes.refuse rfl
    · rw [if_neg hnil, ok_bind]
      dsimp only
      rw [if_neg (not_not.mpr rfl), Option.getD_some]
      cases hd : Directive.ofCode (xs.getD 0 0).toUInt32 with
      | none => exact Decodes.refuse rfl
      | some d => exact d.deserialize_decodes h hlen
  · rw [if_neg htype, if_neg htype]
    exact (fileDataDeserialize_decodes h hlen default).wrap DataField.fileData

/-- What is accepted is a directive under its code, or file data. -/
theorem DataField.decode_cases {r : Nat × DataField N}
    (h : DataField.decode N p xs hdr = some r) :
    (∃ d : Directive, hdr.pduType = CFDP_PDU_TYPE_DIRECTIVE ∧
        d.decode N p xs hdr.largeFileFlag = some r) ∨
      ∃ x, hdr.pduType ≠ CFDP_PDU_TYPE_DIRECTIVE ∧
        @FileDataItem.decode hdr.largeFileFlag hdr.segmentMetadataFlag xs = some x ∧
        r = (xs.length, .fileData (x.view p)) := by
  unfold DataField.decode at h
  by_cases htype : hdr.pduType = CFDP_PDU_TYPE_DIRECTIVE
  · rw [if_pos htype] at h
    obtain ⟨d, _, hdec⟩ := Option.bind_eq_some_iff.mp h
    exact Or.inl ⟨d, htype, hdec⟩
  · rw [if_neg htype] at h
    obtain ⟨x, hx, rfl⟩ := Option.map_eq_some_iff.mp h
    exact Or.inr ⟨x, htype, hx, rfl⟩

/-- A payload that is accepted is not empty. -/
theorem DataField.decode_pos {r : Nat × DataField N} (h : DataField.decode N p xs hdr = some r) :
    0 < r.1 ∧ r.1 ≤ xs.length := by
  rcases DataField.decode_cases h with ⟨d, _, hdec⟩ | ⟨x, _, hx, rfl⟩
  · obtain ⟨_, hpos, hle, _⟩ := Directive.decode_spec hdec
    exact ⟨hpos, hle⟩
  · have hlength := x.length_encode
    have hwidth := (length_fileSizeOctets hdr.largeFileFlag).2
    rw [FileDataItem.encode_of_decode hx] at hlength
    exact ⟨by dsimp only; omega, Nat.le_refl _⟩

/-- A directive is decoded under the code that it starts with. -/
theorem DataField.decode_of_code {d : Directive} (htype : hdr.pduType = CFDP_PDU_TYPE_DIRECTIVE)
    (hcode : xs.getD 0 0 = d.code.toUInt8) (p : Ptr) :
    DataField.decode N p xs hdr = d.decode N p xs hdr.largeFileFlag := by
  rw [DataField.decode, if_pos htype, hcode, d.toUInt32_code, Directive.ofCode_eq_some.mpr rfl,
    Option.bind_some]

theorem payloadLength_le (hdr : PduHeader) : payloadLength hdr ≤ hdr.dataFieldLength.toNat := by
  unfold payloadLength
  by_cases hcrc : hdr.crcFlag = CFDP_CRC_PRESENT
  · rw [if_pos hcrc]
    exact Nat.sub_le _ _
  · rw [if_neg hcrc]

/-- Behind a PDU that is accepted, the payload decides. -/
theorem receivePdu_of_pduAt (h32 : 32 ≤ T.sizeBits) (h : p.Holds xs)
    (hlen : xs.length = len.toNat) {hsize : Nat} (hat : PduAt xs hsize hdr) :
    receivePdu N (some p) len = .ok ((DataField.decode N (p.add hsize)
      (slice xs hsize (payloadLength hdr)) hdr).map fun r => (hdr, r.2)) := by
  obtain ⟨b, hverify, haccept⟩ := pduCrcVerify_spec h32 h hlen
  have htrue : b = true := haccept.mpr ⟨hsize, hdr, hat⟩
  subst htrue
  obtain ⟨hseven, h28, _⟩ := length_of_headerDecode hat.header
  have hcomplete := hat.complete
  have hpayload := payloadLength_le hdr
  have hdfl := hdr.dataFieldLength.toNat_lt
  have hpow := T.two_pow_ge_of_le h32
  have hhsize : (sz hsize : Size T).toNat = hsize := toNat_sz_small (by omega)
  have hplen : (sz (payloadLength hdr) : Size T).toNat = payloadLength hdr :=
    toNat_sz (by omega)
  have hholds : (p.add hsize).Holds (slice xs hsize (payloadLength hdr)) := h.slice (by omega)
  have hslice : (slice xs hsize (payloadLength hdr)).length =
      (sz (payloadLength hdr) : Size T).toNat := by
    rw [length_slice (by omega), hplen]
  unfold receivePdu
  rw [hverify, ok_bind, if_neg (not_not.mpr rfl), pduHeaderDeserialize_run h hlen hat.header,
    ok_bind]
  dsimp only [Option.getD_some]
  rw [deref, ok_bind, hhsize, pduPayloadSize_eq, ok_bind]
  -- the CRC holds; what is left can only be refused by the decoder of the data field
  rcases (payloadDeserialize_decodes hholds hslice hdr).run with
    ⟨n, out, hsome, hrun⟩ | ⟨hnone, out, hrun⟩
  · obtain ⟨r, hr, heq⟩ := Option.map_eq_some_iff.mp hsome
    rw [Prod.mk.injEq] at heq
    obtain ⟨rfl, rfl⟩ := heq
    obtain ⟨hpos, hle⟩ := DataField.decode_pos hr
    rw [hrun, ok_bind, hr]
    dsimp only
    rw [if_neg (sz_ne_zero hpos (by omega))]
    rfl
  · rw [hrun, ok_bind, Option.map_eq_none_iff.mp hnone]
    dsimp only
    rw [if_pos rfl]
    rfl

theorem receivePdu_of_not_pduAt (h32 : 32 ≤ T.sizeBits) (h : p.Holds xs)
    (hlen : xs.length = len.toNat) (hnot : ¬ ∃ hsize hdr, PduAt xs hsize hdr) :
    receivePdu N (some p) len = .ok none := by
  obtain ⟨b, hverify, haccept⟩ := pduCrcVerify_spec h32 h hlen
  have hfalse : b = false := Bool.eq_false_iff.mpr fun htrue => hnot (haccept.mp htrue)
  subst hfalse
  unfold receivePdu
  rw [hverify, ok_bind, if_pos (by decide)]
  rfl

/-- Of a PDU that was built for its payload, the payload is handed on, whatever follows it. -/
theorem receivePdu_pduOctets (h32 : 32 ≤ T.sizeBits) (hrange : hdr.InRange) {payload : List UInt8}
    (hsized : SizedFor hdr payload) {z : List UInt8} (h : p.Holds (pduOctets hdr payload ++ z))
    (hlen : (pduOctets hdr payload ++ z).length = len.toNat) :
    (p.add (headerLength hdr)).Holds payload ∧ receivePdu N (some p) len =
      .ok ((DataField.decode N (p.add (headerLength hdr)) payload hdr.received).map fun r =>
        (hdr.received, r.2)) := by
  have hslice : slice (pduOctets hdr payload ++ z) (headerLength hdr) payload.length = payload :=
    (pduOctets_received h32 hrange hsized h hlen default).2.2.2
  have hfits : headerLength hdr + payload.length ≤ (pduOctets hdr payload ++ z).length := by
    unfold SizedFor at hsized
    rw [List.length_append, length_pduOctets hsized]
    omega
  constructor
  · rw [← hslice]
    exact h.slice hfits
  · rw [receivePdu_of_pduAt h32 h hlen (pduAt_pduOctets hrange hsized z),
      payloadLength_received hsized, hslice]

end Receive

end EmbeddedCfdp
