import EmbeddedCfdp.ErrorPatterns
import EmbeddedCfdp.Resending

/-!
# The CRC flag

The CRC covers the whole PDU, and the bit that says so is one of the bits it covers.  An error
that clears this bit switches the check off: whatever else is wrong with the PDU it is then
accepted, and its two CRC octets are taken for the end of the payload.
-/

namespace EmbeddedCfdp

open CMemory

variable {T : Target} {N : NakCapacity T}

/-- The PDU with the CRC flag inverted. -/
def flipCrcFlag (xs : List UInt8) : List UInt8 := xs.set 0 (xs.getD 0 0 ^^^ 0x02)

section Flip

variable {xs ys : List UInt8} {n : Nat} {hdr : PduHeader}

theorem getD_flipCrcFlag (h : 0 < xs.length) :
    (flipCrcFlag xs).getD 0 0 = xs.getD 0 0 ^^^ 0x02 := by
  rw [flipCrcFlag, List.getD_eq_getElem?_getD, List.getElem?_set_self h, Option.getD_some]

/-- Inverting the flag leaves the other fields of the first octet alone. -/
theorem firstOctet_flipped (o : UInt8) :
    (((o ^^^ 0x02) >>> 5) &&& 0x7 : UInt8) = (o >>> 5) &&& 0x7 ∧
      (((o ^^^ 0x02) >>> 4) &&& 0x1 : UInt8) = (o >>> 4) &&& 0x1 ∧
      (((o ^^^ 0x02) >>> 3) &&& 0x1 : UInt8) = (o >>> 3) &&& 0x1 ∧
      (((o ^^^ 0x02) >>> 2) &&& 0x1 : UInt8) = (o >>> 2) &&& 0x1 ∧
      ((o ^^^ 0x02) &&& 0x1 : UInt8) = o &&& 0x1 ∧
      ((((o >>> 1) &&& 0x1).toUInt32 = CFDP_CRC_PRESENT) →
        (((o ^^^ 0x02) >>> 1) &&& 0x1 : UInt8).toUInt32 = CFDP_CRC_ABSENT) := by
  refine BitFields.forall_octet (P := fun o =>
    (((o ^^^ 0x02) >>> 5) &&& 0x7 : UInt8) = (o >>> 5) &&& 0x7 ∧
      (((o ^^^ 0x02) >>> 4) &&& 0x1 : UInt8) = (o >>> 4) &&& 0x1 ∧
      (((o ^^^ 0x02) >>> 3) &&& 0x1 : UInt8) = (o >>> 3) &&& 0x1 ∧
      (((o ^^^ 0x02) >>> 2) &&& 0x1 : UInt8) = (o >>> 2) &&& 0x1 ∧
      ((o ^^^ 0x02) &&& 0x1 : UInt8) = o &&& 0x1 ∧
      ((((o >>> 1) &&& 0x1).toUInt32 = CFDP_CRC_PRESENT) →
        (((o ^^^ 0x02) >>> 1) &&& 0x1 : UInt8).toUInt32 = CFDP_CRC_ABSENT)) ?_ o
  decide +kernel

theorem headerFlags_flipped (h : 0 < xs.length)
    (hcrc : (headerFlags xs default).crcFlag = CFDP_CRC_PRESENT) :
    headerFlags (flipCrcFlag xs) default =
      { headerFlags xs default with crcFlag := CFDP_CRC_ABSENT } := by
  obtain ⟨hversion, htype, hdirection, hmode, hlarge, hflag⟩ := firstOctet_flipped (xs.getD 0 0)
  have hthird : (flipCrcFlag xs).getD 3 0 = xs.getD 3 0 := getD_set_ne (by decide)
  have hlength : uintAt (flipCrcFlag xs) 1 2 = uintAt xs 1 2 := uintAt_set (by decide)
  unfold headerFlags
  dsimp only
  rw [getD_flipCrcFlag h, hthird, hlength, hversion, htype, hdirection, hmode, hlarge, hflag hcrc]

theorem headerIds_flipped (hdr : PduHeader) :
    headerIds (flipCrcFlag xs) hdr = headerIds xs hdr := by
  unfold headerIds flipCrcFlag
  dsimp only
  rw [uintAt_set (by omega), uintAt_set (by omega), uintAt_set (by omega)]

/-- The header with the flag inverted is a header without a CRC. -/
theorem headerDecode_flipped (hdec : headerDecode xs = some (n, hdr))
    (hcrc : hdr.crcFlag = CFDP_CRC_PRESENT) :
    headerDecode (flipCrcFlag xs) = some (n, { hdr with crcFlag := CFDP_CRC_ABSENT }) := by
  obtain ⟨hat, hval⟩ := Option.ite_none_right_eq_some.mp hdec
  rw [Option.some.injEq, Prod.mk.injEq] at hval
  obtain ⟨rfl, rfl⟩ := hval
  have hfixed := hat.fixed
  have hflags := headerFlags_flipped (by omega) hcrc
  have hlength : (flipCrcFlag xs).length = xs.length := List.length_set
  have hat' : HeaderAt (flipCrcFlag xs) := by
    refine ⟨by omega, ?_, ?_⟩
    · rw [hflags]
      exact hat.version
    · rw [hflags, hlength]
      exact hat.complete
  rw [headerDecode, if_pos hat', hflags, headerIds_flipped]
  rfl

/-- Octets that start with the flipped header are accepted wherever they are long enough. -/
theorem pduAt_flipped (hat : PduAt xs n hdr) (hcrc : hdr.crcFlag = CFDP_CRC_PRESENT)
    (hflip : ys.take n = flipCrcFlag (xs.take n))
    (hfits : n + hdr.dataFieldLength.toNat ≤ ys.length) :
    PduAt ys n { hdr with crcFlag := CFDP_CRC_ABSENT } := by
  obtain ⟨_, _, hroom⟩ := length_of_headerDecode hat.header
  have hself : headerDecode (xs.take n) = some (n, hdr) := by
    apply headerDecode_of_agree hat.header
    rw [List.take_take, Nat.min_self]
  have hlength : (flipCrcFlag (xs.take n)).length = n := by
    rw [flipCrcFlag, List.length_set, List.length_take_of_le hroom]
  have hheader : headerDecode ys = some (n, { hdr with crcFlag := CFDP_CRC_ABSENT }) := by
    apply headerDecode_of_agree (headerDecode_flipped hself hcrc)
    rw [hflip, List.take_of_length_le (Nat.le_of_eq hlength)]
  have habsent : ¬ CFDP_CRC_ABSENT = CFDP_CRC_PRESENT := by decide
  exact ⟨hheader, hfits, fun h => (habsent h).elim, fun h => (habsent h).elim⟩

end Flip

/-! ### File data -/

/-- More octets at the end of a File Data payload are more file data. -/
def FileDataItem.extended {largeFileFlag : LargeFileFlag} {segmentMetadataFlag : SegMetadataFlag}
    (x : FileDataItem largeFileFlag segmentMetadataFlag) (z : List UInt8) :
    FileDataItem largeFileFlag segmentMetadataFlag :=
  { x with fileData := x.fileData ++ z }

theorem FileDataItem.decode_append {largeFileFlag : LargeFileFlag}
    {segmentMetadataFlag : SegMetadataFlag} {xs : List UInt8}
    {x : FileDataItem largeFileFlag segmentMetadataFlag} (h : decode xs = some x)
    (z : List UInt8) : decode (xs ++ z) = some (x.extended z) := by
  have hencode : (x.extended z).encode = xs ++ z := by
    rw [← encode_of_decode h, encode, encode, List.append_assoc, List.append_assoc]
    rfl
  rw [← hencode]
  exact (x.extended z).decode_encode

/-- What the receiver reports of File Data that was delivered with `z` behind its payload. -/
theorem FileDataItem.view_extended {largeFileFlag : LargeFileFlag}
    {segmentMetadataFlag : SegMetadataFlag} {p q : Ptr} {xs z : List UInt8}
    {x : FileDataItem largeFileFlag segmentMetadataFlag} (hx : decode xs = some x)
    (hp : p.Holds xs) (hq : q.Holds (xs ++ z)) (hsmall : (xs ++ z).length < 2 ^ T.sizeBits) :
    ((x.extended z).view q : FileDataPdu T).offset = (x.view p : FileDataPdu T).offset ∧
      octetsAt ((x.extended z).view q : FileDataPdu T).fileData
          ((x.extended z).view q : FileDataPdu T).fileDataLen.toNat =
        octetsAt (x.view p : FileDataPdu T).fileData
          (x.view p : FileDataPdu T).fileDataLen.toNat ++ z := by
  -- file data is the last field, so what follows is read as more of it
  have hlong := encode_of_decode (decode_append hx z)
  have hshort := encode_of_decode hx
  rw [← hlong] at hq hsmall
  rw [← hshort] at hp
  have hfits : x.encode.length < 2 ^ T.sizeBits := by
    rw [hlong, List.length_append] at hsmall
    rw [hshort]
    omega
  rw [octetsAt_view_fileData hq hsmall, octetsAt_view_fileData hp hfits]
  exact ⟨rfl, rfl⟩

/-- **Main result.** An accepted PDU with a CRC whose CRC flag is inverted is accepted whatever
    has become of the octets behind its header, and its payload is two octets longer.  Where
    nothing else is wrong, file data is delivered with the two CRC octets behind it. -/
theorem crc_flag_error (h32 : 32 ≤ T.sizeBits) {p q : Ptr} {xs ys : List UInt8}
    {len len' hsize : Size T} {old hdr : PduHeader} (hp : p.Holds xs)
    (hlen : xs.length = len.toNat) (haccepted : pduCrcVerify (some p) len = .ok true)
    (hheader : pduHeaderDeserialize (some p) len (some old) = .ok (hsize, some hdr))
    (hcrc : hdr.crcFlag = CFDP_CRC_PRESENT) (hq : q.Holds ys) (hlen' : ys.length = len'.toNat)
    (hfits : hsize.toNat + hdr.dataFieldLength.toNat ≤ ys.length)
    (hflip : ys.take hsize.toNat = flipCrcFlag (xs.take hsize.toNat)) :
    let hdr' := { hdr with crcFlag := CFDP_CRC_ABSENT }
    pduCrcVerify (some q) len' = .ok true ∧
      pduHeaderDeserialize (some q) len' (some old) = .ok (hsize, some hdr') ∧
      (∃ n n' : Size T, pduPayloadSize (some hdr) = .ok n ∧ pduPayloadSize (some hdr') = .ok n' ∧
        n'.toNat = n.toNat + 2) ∧
      ∀ fd : FileDataPdu T, receivePdu N (some p) len = .ok (some (hdr, .fileData fd)) →
        slice ys hsize.toNat (hdr.dataFieldLength.toNat - 2) =
          slice xs hsize.toNat (hdr.dataFieldLength.toNat - 2) →
        ∃ fd' : FileDataPdu T, receivePdu N (some q) len' = .ok (some (hdr', .fileData fd')) ∧
          fd'.offset = fd.offset ∧
          octetsAt fd'.fileData fd'.fileDataLen.toNat =
            octetsAt fd.fileData fd.fileDataLen.toNat ++
              slice ys (hsize.toNat + (hdr.dataFieldLength.toNat - 2)) 2 := by
  intro hdr'
  have hpow := T.two_pow_ge_of_le h32
  have hdfl := hdr.dataFieldLength.toNat_lt
  have hat := pduAt_of_run (Or.inl h32) hp hlen haccepted hheader
  have hat' : PduAt ys hsize.toNat hdr' := pduAt_flipped hat hcrc hflip hfits
  have htwo : 2 ≤ hdr.dataFieldLength.toNat := hat.crcLength hcrc
  -- with the flag cleared the last two octets, once the CRC, count as payload
  have hpayload : payloadLength hdr = hdr.dataFieldLength.toNat - 2 := if_pos hcrc
  have hpayload' : payloadLength hdr' = hdr.dataFieldLength.toNat :=
    if_neg (by decide : ¬ CFDP_CRC_ABSENT = CFDP_CRC_PRESENT)
  obtain ⟨b, hverify, haccept⟩ := pduCrcVerify_spec h32 hq hlen'
  have hrun := pduHeaderDeserialize_run hq hlen' hat'.header old
  rw [sz_toNat] at hrun
  refine ⟨?_, hrun, ⟨_, _, pduPayloadSize_eq hdr, pduPayloadSize_eq hdr', ?_⟩, ?_⟩
  · rw [hverify, haccept.mpr ⟨_, _, hat'⟩]
  · rw [toNat_sz (by omega), toNat_sz (by omega), hpayload, hpayload', Nat.sub_add_cancel htwo]
  · intro fd hdelivered hintact
    obtain ⟨hat₀, n, hdec⟩ := receivePdu_eq_some h32 hp hlen hdelivered
    obtain ⟨hsame, _⟩ := hat₀.unique hat.header
    rw [hsame, hpayload] at hdec
    -- the data field is no directive, as file data was delivered from it
    rcases DataField.decode_cases hdec with ⟨d, _, hdirective⟩ | ⟨x, htype, hx, heq⟩
    · obtain ⟨_, _, _, hcode⟩ := Directive.decode_spec hdirective
      cases hcode
    · obtain ⟨_, heq⟩ := Prod.mk.inj heq
      cases heq
      have hcomplete := hat.complete
      have hwhole : slice ys hsize.toNat hdr.dataFieldLength.toNat =
          slice xs hsize.toNat (hdr.dataFieldLength.toNat - 2) ++
            slice ys (hsize.toNat + (hdr.dataFieldLength.toNat - 2)) 2 := by
        rw [← hintact, slice_append_slice, Nat.sub_add_cancel htwo]
      have hholds : (p.add hsize.toNat).Holds
          (slice xs hsize.toNat (hdr.dataFieldLength.toNat - 2)) := hp.slice (by omega)
      have hholds' : (q.add hsize.toNat).Holds
          (slice ys hsize.toNat hdr.dataFieldLength.toNat) := hq.slice hfits
      have hlength := length_slice hfits
      have hlonger := FileDataItem.decode_append hx
        (slice ys (hsize.toNat + (hdr.dataFieldLength.toNat - 2)) 2)
      rw [hwhole] at hholds' hlength
      obtain ⟨hoffset, hoctets⟩ := FileDataItem.view_extended (T := T) hx hholds hholds' (by omega)
      refine ⟨_, ?_, hoffset, hoctets⟩
      rw [receivePdu_of_pduAt h32 hq hlen' hat', hpayload', hwhole, DataField.decode,
        if_neg htype, hlonger]
      rfl

/-- One octet of a file, with a CRC. -/
def sampleDataHeader : PduHeader :=
  { sampleCrcHeader with pduType := CFDP_PDU_TYPE_FILE_DATA, dataFieldLength := 7 }

def sampleDataPdu : List UInt8 := pduOctets sampleDataHeader [0, 0, 0, 0, 0x2A]

/-- With the flag inverted it is accepted and delivered with its CRC behind the octet, and with
    another octet besides it is accepted still. -/
theorem crc_flag_error_sample :
    pduCrcVerify (some ⟨Object.full ((flipCrcFlag sampleDataPdu).set 11 0xFF), 0⟩)
        (sz 14 : Size .checked32) = .ok true ∧
      ∃ hdr' fd', receivePdu defaultNakCapacity
          (some ⟨Object.full (flipCrcFlag sampleDataPdu), 0⟩) (sz 14) =
            .ok (some (hdr', .fileData fd')) ∧
        octetsAt fd'.fileData fd'.fileDataLen.toNat = 0x2A :: sampleDataPdu.drop 12 := by
  have hp := Object.holds_whole sampleDataPdu
  have haccepted : pduCrcVerify (some ⟨Object.full sampleDataPdu, 0⟩)
      (sz 14 : Size .checked32) = .ok true := by decide +kernel
  have hheader : pduHeaderDeserialize (some ⟨Object.full sampleDataPdu, 0⟩)
      (sz 14 : Size .checked32) (some default) = .ok (sz 7, some sampleDataHeader) := by
    decide +kernel
  have hflip := fun (ys : List UInt8) hlength hys =>
    @crc_flag_error _ defaultNakCapacity (Nat.le_refl 32) _ _ _ ys _ (sz 14) _ _ _ hp rfl haccepted
      hheader rfl (Object.holds_whole ys) hlength (Nat.le_of_eq hlength.symm) hys
  refine ⟨(hflip _ (by decide +kernel) (by decide +kernel)).1, ?_⟩
  obtain ⟨_, _, _, hdelivers⟩ :=
    hflip (flipCrcFlag sampleDataPdu) (by decide +kernel) (by decide +kernel)
  have hat := pduAt_of_run (Or.inl (Nat.le_refl 32)) hp rfl haccepted hheader
  have hdelivered := @receivePdu_of_pduAt _ defaultNakCapacity _ _ (sz 14) _ (Nat.le_refl 32) hp
    rfl _ hat
  have hpayload : slice sampleDataPdu (sz 7 : Size .checked32).toNat
      (payloadLength sampleDataHeader) = [0, 0, 0, 0, 0x2A] := by decide +kernel
  rw [hpayload] at hdelivered
  obtain ⟨fd', hreceive, _, hoctets⟩ := hdelivers _ hdelivered (by decide +kernel)
  refine ⟨_, fd', hreceive, hoctets.trans ?_⟩
  decide +kernel

end EmbeddedCfdp
