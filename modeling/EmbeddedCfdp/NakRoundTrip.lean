import EmbeddedCfdp.DirectiveDeserialise

/-!
# A NAK from receiver to sender

A NAK is the scope and as many segment requests as fill the data field.  The decoder finds
their number by a division; it accepts exactly the lengths the encoder produces, and each
undoes the other.
-/

namespace EmbeddedCfdp

open CMemory

variable {T : Target} {N : NakCapacity T} {p : Ptr} {largeFileFlag : LargeFileFlag}

/-! ### Segment requests -/

/-- What fields of `width` octets carry of the two offsets. -/
def SegmentRequest.carried (width : Nat) (request : SegmentRequest) : SegmentRequest :=
  ⟨UInt64.ofNat (request.startOffset.toNat % 256 ^ width),
    UInt64.ofNat (request.endOffset.toNat % 256 ^ width)⟩

theorem uintAt_requestOctets (fs : UInt8) (pre post : List UInt8) (request : SegmentRequest) :
    uintAt (pre ++ (requestOctets fs request ++ post)) pre.length fs.toNat =
        (request.carried fs.toNat).startOffset ∧
      uintAt (pre ++ (requestOctets fs request ++ post)) (pre.length + fs.toNat) fs.toNat =
        (request.carried fs.toNat).endOffset := by
  rw [requestOctets, List.append_assoc]
  constructor
  · rw [uintAt_append rfl (by simp), ofNat_decode_encode]
    rfl
  · rw [← List.append_assoc pre, uintAt_append (by simp) (by simp), ofNat_decode_encode]
    rfl

theorem parseRequests_append {fs : UInt8} {requests : List SegmentRequest}
    (pre : List UInt8) :
    parseRequests (pre ++ requests.flatMap (requestOctets fs)) fs requests.length pre.length =
      requests.map (SegmentRequest.carried fs.toNat) := by
  induction requests generalizing pre with
  | nil => rfl
  | cons request requests ih =>
    have hrest := ih (pre ++ requestOctets fs request)
    rw [List.length_append, length_requestOctets, List.append_assoc] at hrest
    obtain ⟨hstart, hend⟩ := uintAt_requestOctets fs pre
      (requests.flatMap (requestOctets fs)) request
    rw [List.flatMap_cons, List.length_cons, parseRequests, hstart, hend, hrest]
    rfl

theorem flatMap_parseRequests {xs : List UInt8} {fs : UInt8} (hfs : fs.toNat ≤ 8) {count k : Nat}
    (hroom : k + count * (2 * fs.toNat) ≤ xs.length) :
    (parseRequests xs fs count k).flatMap (requestOctets fs) =
      slice xs k (count * (2 * fs.toNat)) := by
  induction count generalizing k with
  | zero => simp [parseRequests, slice]
  | succ count ih =>
    have hstep : (count + 1) * (2 * fs.toNat) = 2 * fs.toNat + count * (2 * fs.toNat) := by ring
    rw [hstep] at hroom ⊢
    have hpair : requestOctets fs ⟨uintAt xs k fs.toNat, uintAt xs (k + fs.toNat) fs.toNat⟩ =
        slice xs k (2 * fs.toNat) := by
      rw [requestOctets, encode_uintAt (by omega) hfs, encode_uintAt (by omega) hfs,
        slice_append_slice, Nat.two_mul]
    rw [parseRequests, List.flatMap_cons, hpair, ih (by omega), slice_append_slice]

theorem set_eq_overwrite {α : Type} {l : List α} {i : Nat} (h : i < l.length) (x : α) :
    l.set i x = overwrite l i [x] := by
  rw [overwrite_eq_append (by simpa using h), List.set_eq_take_append_cons_drop, if_pos h]
  simp

theorem toList_setRequests {n i : Nat} {requests : Vector SegmentRequest n}
    {rs : List SegmentRequest} (h : i + rs.length ≤ n) :
    (setRequests requests i rs).toList = overwrite requests.toList i rs := by
  induction rs generalizing i requests with
  | nil => simp [setRequests]
  | cons r rs ih =>
    rw [List.length_cons] at h
    have hi : i < n := by omega
    have hset : (requests.set i r).toList = overwrite requests.toList i [r] := by
      rw [Vector.toList_set]
      exact set_eq_overwrite (by simpa using hi) r
    rw [setRequests, dif_pos hi, ih (by omega), hset]
    exact overwrite_overwrite_right requests.toList i [r] rs

/-- The requests reported are those decoded. -/
theorem NakFields.requests_view {f : NakFields} (nak : NakPdu N) (h : f.requests.length ≤ N.max) :
    (f.view nak).segmentRequestCount.toNat = f.requests.length ∧
      (f.view nak).requests = f.requests := by
  have hfits := N.fits
  have hcount : (f.view nak).segmentRequestCount.toNat = f.requests.length :=
    toNat_sz (by omega)
  refine ⟨hcount, ?_⟩
  rw [NakPdu.requests, hcount]
  change (setRequests nak.segmentRequests 0 f.requests).toList.take f.requests.length = f.requests
  rw [toList_setRequests (by omega), overwrite_eq_append (by simpa using h)]
  simp

/-! ### Accepted NAKs -/

/-- The scope, and the `k` requests behind it. -/
def nakFields (xs : List UInt8) (fs : UInt8) (k : Nat) : NakFields :=
  ⟨uintAt xs 1 fs.toNat, uintAt xs (1 + fs.toNat) fs.toNat,
    parseRequests xs fs k (1 + 2 * fs.toNat)⟩

/-- The division of the decoder finds the number of requests. -/
theorem nakDecode_eq_some {xs : List UInt8} {max : Nat} {f : NakFields} :
    nakDecode xs largeFileFlag max = some f ↔
      xs.getD 0 0 = CFDP_DIRECTIVE_NAK.toUInt8 ∧ ∃ k, k ≤ max ∧
        xs.length = 1 + 2 * (fileSizeOctets largeFileFlag).toNat * (k + 1) ∧
        f = nakFields xs (fileSizeOctets largeFileFlag) k := by
  obtain ⟨_, hfour⟩ := length_fileSizeOctets largeFileFlag
  unfold nakDecode
  dsimp only
  generalize fileSizeOctets largeFileFlag = fs at hfour ⊢
  generalize hpair : 2 * fs.toNat = pair
  have hpos : 0 < pair := by omega
  constructor
  · intro h
    obtain ⟨⟨hroom, hcode, hexact, hmany⟩, h⟩ := Option.ite_none_right_eq_some.mp h
    -- what stands behind the scope is whole pairs: their number is the quotient the decoder takes
    refine ⟨hcode, _, hmany, ?_, ?_⟩
    · have hdiv := Nat.div_mul_cancel (Nat.dvd_of_mod_eq_zero hexact)
      rw [Nat.mul_add, Nat.mul_one, Nat.mul_comm pair]
      omega
    · rw [nakFields, hpair]
      exact (Option.some.inj h).symm
  · rintro ⟨hcode, k, hmany, hlength, rfl⟩
    have hrest : xs.length - (1 + pair) = pair * k := by
      rw [hlength, Nat.mul_add]
      omega
    have hroom : 1 + pair ≤ xs.length := by
      rw [hlength, Nat.mul_add]
      omega
    have hcount : pair * k / pair = k := Nat.mul_div_cancel_left k hpos
    rw [hrest, hcount, if_pos ⟨hroom, hcode, Nat.mul_mod_right pair k, hmany⟩, nakFields, hpair]

theorem length_nakFields (xs : List UInt8) (fs : UInt8) (k : Nat) :
    (nakFields xs fs k).requests.length = k := length_parseRequests xs fs k _

/-- What is reported for an accepted NAK is encoded as that NAK. -/
theorem nakOctets_view {xs : List UInt8} {k : Nat} (nak : NakPdu N) (hmany : k ≤ N.max)
    (hcode : xs.getD 0 0 = CFDP_DIRECTIVE_NAK.toUInt8)
    (hlength : xs.length = 1 + 2 * (fileSizeOctets largeFileFlag).toNat * (k + 1)) :
    nakOctets ((nakFields xs (fileSizeOctets largeFileFlag) k).view nak) largeFileFlag = xs := by
  obtain ⟨height, _⟩ := length_fileSizeOctets largeFileFlag
  have hrequests := (NakFields.requests_view (f := nakFields xs (fileSizeOctets largeFileFlag) k)
    nak (by rw [length_nakFields]; exact hmany)).2
  unfold nakOctets
  rw [hrequests]
  generalize fileSizeOctets largeFileFlag = fs at height hlength ⊢
  have hlength' : xs.length = 1 + (2 * fs.toNat + k * (2 * fs.toNat)) := by
    rw [hlength]
    ring
  have hscope : requestOctets fs ⟨uintAt xs 1 fs.toNat, uintAt xs (1 + fs.toNat) fs.toNat⟩ =
      slice xs 1 (2 * fs.toNat) := by
    rw [requestOctets, encode_uintAt (by omega) height, encode_uintAt (by omega) height,
      slice_append_slice, Nat.two_mul]
  -- the scope and the pairs are adjacent slices of `xs`, so they join to all but its first octet
  have hbehind := @flatMap_parseRequests xs fs height k (1 + 2 * fs.toNat) (by omega)
  change _ :: (requestOctets fs ⟨uintAt xs 1 fs.toNat, uintAt xs (1 + fs.toNat) fs.toNat⟩ ++
    (parseRequests xs fs k (1 + 2 * fs.toNat)).flatMap (requestOctets fs)) = xs
  rw [hscope, hbehind, slice_append_slice]
  -- the first octet is the directive code, which the serialiser writes as a constant
  cases xs with
  | nil =>
    rw [List.length_nil] at hlength'
    omega
  | cons x xs =>
    have hx : x = CFDP_DIRECTIVE_NAK.toUInt8 := hcode
    rw [List.length_cons] at hlength'
    rw [slice, List.drop_succ_cons, List.drop_zero, List.take_of_length_le (by omega), hx]

/-! ### Sent NAKs -/

/-- What the peer reports of the NAK that was sent. -/
structure NakPdu.ReceivedAs (largeFileFlag : LargeFileFlag) (nak nak' : NakPdu N) : Prop where
  startOfScope : nak'.startOfScope.toNat =
    nak.startOfScope.toNat % 256 ^ fileSizeWidth largeFileFlag
  endOfScope : nak'.endOfScope.toNat =
    nak.endOfScope.toNat % 256 ^ fileSizeWidth largeFileFlag
  count : nak'.segmentRequestCount = nak.segmentRequestCount
  requests : nak'.requests =
    nak.requests.map (SegmentRequest.carried (fileSizeWidth largeFileFlag))

theorem toNat_carried (value : UInt64) (n : Nat) :
    (UInt64.ofNat (value.toNat % 256 ^ n)).toNat = value.toNat % 256 ^ n := by
  have hlt := value.toNat_lt
  rw [UInt64.toNat_ofNat']
  exact Nat.mod_eq_of_lt (Nat.lt_of_le_of_lt (Nat.mod_le _ _) hlt)

theorem length_requests {nak : NakPdu N} (h : nak.segmentRequestCount.toNat ≤ N.max) :
    nak.requests.length = nak.segmentRequestCount.toNat := by
  rw [NakPdu.requests, List.length_take, Vector.length_toList]
  omega

theorem nakEncoding_few {nak : NakPdu N} (h : nak.segmentRequestCount.toNat ≤ N.max) :
    nakEncoding nak largeFileFlag = some (nakOctets nak largeFileFlag) := by
  have hfits := N.fits
  have hfew : ¬ nak.segmentRequestCount > sz N.max := by
    rw [gt_iff_lt, sz_lt_iff (by omega)]
    omega
  exact if_neg hfew

/-- What the decoder finds in the encoding of a NAK. -/
theorem nak_receivedAs (largeFileFlag : LargeFileFlag) (old : NakPdu N) {nak : NakPdu N}
    (h : nak.segmentRequestCount.toNat ≤ N.max) :
    nak.ReceivedAs largeFileFlag
      ((nakFields (nakOctets nak largeFileFlag) (fileSizeOctets largeFileFlag)
        nak.segmentRequestCount.toNat).view old) := by
  have hlength := length_requests h
  obtain ⟨hcount, hrequests⟩ := NakFields.requests_view
    (f := nakFields (nakOctets nak largeFileFlag) (fileSizeOctets largeFileFlag)
      nak.segmentRequestCount.toNat) old (by rw [length_nakFields]; exact h)
  rw [length_nakFields] at hcount
  have hoctets : nakOctets nak largeFileFlag = [CFDP_DIRECTIVE_NAK.toUInt8] ++
      (requestOctets (fileSizeOctets largeFileFlag) ⟨nak.startOfScope, nak.endOfScope⟩ ++
        nak.requests.flatMap (requestOctets (fileSizeOctets largeFileFlag))) := rfl
  obtain ⟨hstart, hend⟩ := uintAt_requestOctets (fileSizeOctets largeFileFlag)
    [CFDP_DIRECTIVE_NAK.toUInt8] (nak.requests.flatMap (requestOctets
      (fileSizeOctets largeFileFlag))) ⟨nak.startOfScope, nak.endOfScope⟩
  rw [← hoctets] at hstart hend
  constructor
  · rw [← toNat_fileSizeOctets]
    exact (congrArg UInt64.toNat hstart).trans (toNat_carried _ _)
  · rw [← toNat_fileSizeOctets]
    exact (congrArg UInt64.toNat hend).trans (toNat_carried _ _)
  · exact BitVec.toNat_inj.mp hcount
  -- the request pairs start where directive code and scope end
  · have hpre : ([CFDP_DIRECTIVE_NAK.toUInt8] ++ requestOctets (fileSizeOctets largeFileFlag)
        ⟨nak.startOfScope, nak.endOfScope⟩).length =
        1 + 2 * (fileSizeOctets largeFileFlag).toNat := by
      rw [List.length_append, length_requestOctets]
      rfl
    rw [← toNat_fileSizeOctets, hrequests, nakFields, hoctets, ← List.append_assoc, ← hpre,
      ← hlength]
    exact parseRequests_append _

/-- Exactly the lengths of the encoder are accepted, and what is reported is sent again as it
    came. -/
theorem nak_encode_decode {xs : List UInt8} {len : Size T} {old : NakPdu N} (hp : p.Holds xs)
    (hlen : xs.length = len.toNat) :
    ∃ n out, nakDeserialize (some p) len largeFileFlag (some old) = .ok (n, out) ∧
      (n ≠ sz 0 ↔ xs.getD 0 0 = CFDP_DIRECTIVE_NAK.toUInt8 ∧
        ∃ k, k ≤ N.max ∧ xs.length = 1 + 2 * fileSizeWidth largeFileFlag * (k + 1)) ∧
      (n ≠ sz 0 → n = len ∧ ∃ nak, out = some nak ∧
        (∀ k, xs.length = 1 + 2 * fileSizeWidth largeFileFlag * (k + 1) →
          nak.segmentRequestCount.toNat = k) ∧
        ∀ (i : Nat) (cap : Size T) (m : Object), i + cap.toNat ≤ m.extent →
          xs.length ≤ cap.toNat →
          nakSerialize (some nak) largeFileFlag (some i) cap m = .ok (len, m.place i xs)) := by
  rw [← toNat_fileSizeOctets]
  obtain ⟨_, hfour⟩ := length_fileSizeOctets largeFileFlag
  rcases (nakDeserialize_decodes hp hlen largeFileFlag old).run with
    ⟨n, out, hd, hrun⟩ | ⟨hd, out, hrun⟩
  · obtain ⟨f, hdec, heq⟩ := Option.map_eq_some_iff.mp hd
    rw [Prod.mk.injEq] at heq
    obtain ⟨rfl, rfl⟩ := heq
    obtain ⟨hcode, k, hmany, hlength, rfl⟩ := nakDecode_eq_some.mp hdec
    have hself : (sz xs.length : Size T) = len := by rw [hlen, sz_toNat]
    have hne : (sz xs.length : Size T) ≠ sz 0 :=
      sz_ne_zero (by omega) (by rw [hlen]; exact len.isLt)
    have hcount := (NakFields.requests_view
      (f := nakFields xs (fileSizeOctets largeFileFlag) k) old
      (by rw [length_nakFields]; exact hmany)).1
    rw [length_nakFields] at hcount
    refine ⟨_, _, hrun, iff_of_true hne ⟨hcode, k, hmany, hlength⟩,
      fun _ => ⟨hself, _, rfl, ?_, ?_⟩⟩
    -- only one count fits a length, as a pair is at least eight octets
    · intro k' hlength'
      have hpos : 0 < 2 * (fileSizeOctets largeFileFlag).toNat := by omega
      have hsame : 2 * (fileSizeOctets largeFileFlag).toNat * (k + 1) =
          2 * (fileSizeOctets largeFileFlag).toNat * (k' + 1) := by omega
      rw [hcount]
      exact Nat.succ.inj (Nat.eq_of_mul_eq_mul_left hpos hsame)
    · intro i cap m hext hle
      have hencodes := nakSerialize_encodes
        ((nakFields xs (fileSizeOctets largeFileFlag) k).view old) largeFileFlag
      rw [nakEncoding_few (by rw [hcount]; exact hmany),
        nakOctets_view old hmany hcode hlength] at hencodes
      rw [hencodes.writes hext hle, hself]
  -- refused: the length or the directive code is wrong, or there are too many pairs
  · refine ⟨sz 0, out, hrun, iff_of_false (fun hne => hne rfl) ?_, fun hne => (hne rfl).elim⟩
    rintro ⟨hcode, k, hmany, hlength⟩
    rw [nakDecode_eq_some.mpr ⟨hcode, k, hmany, hlength, rfl⟩] at hd
    cases hd

/-- A NAK that fits the array is sent, and received with its offsets modulo the field width. -/
theorem nak_decode_encode {nak : NakPdu N} (hcount : nak.segmentRequestCount.toNat ≤ N.max) :
    ∃ e : List UInt8, e.length = 1 + 2 * fileSizeWidth largeFileFlag *
        (nak.segmentRequestCount.toNat + 1) ∧
      (∀ (i : Nat) (cap : Size T) (m : Object), i + cap.toNat ≤ m.extent →
        e.length ≤ cap.toNat →
        nakSerialize (some nak) largeFileFlag (some i) cap m = .ok (sz e.length, m.place i e)) ∧
      ∀ (p : Ptr) (len : Size T) (old : NakPdu N), p.Holds e → e.length = len.toNat →
        ∃ nak', nakDeserialize (some p) len largeFileFlag (some old) = .ok (len, some nak') ∧
          nak.ReceivedAs largeFileFlag nak' := by
  rw [← toNat_fileSizeOctets]
  have hlength := @length_nakOctets T N nak largeFileFlag hcount
  have hsize : (nakOctets nak largeFileFlag).length =
      1 + 2 * (fileSizeOctets largeFileFlag).toNat * (nak.segmentRequestCount.toNat + 1) := by
    rw [hlength]
    ring
  refine ⟨nakOctets nak largeFileFlag, hsize, ?_, ?_⟩
  · intro i cap m hext hle
    have hencodes := nakSerialize_encodes nak largeFileFlag
    rw [nakEncoding_few hcount] at hencodes
    exact hencodes.writes hext hle
  · intro p len old hp hlen
    have hdec := nakDecode_eq_some.mpr
      ⟨(rfl : (nakOctets nak largeFileFlag).getD 0 0 = _), _, hcount, hsize, rfl⟩
    have hrun := (nakDeserialize_decodes hp hlen largeFileFlag old).accepts_exact hdec hlen
    exact ⟨_, hrun, nak_receivedAs largeFileFlag old hcount⟩

theorem nakSerialize_refuses {nak : NakPdu N} (hcount : N.max < nak.segmentRequestCount.toNat)
    (buf : Option Nat) (cap : Size T) (m : Object) :
    nakSerialize (some nak) largeFileFlag buf cap m = .ok (sz 0, m) := by
  have hmaxFits := N.fits
  have hmany : nak.segmentRequestCount > sz N.max := by
    rw [gt_iff_lt, sz_lt_iff (by omega)]
    exact hcount
  cases buf with
  | none => rfl
  | some buf =>
    unfold nakSerialize
    dsimp only
    rw [if_pos hmany]
    rfl

/-- **Main result.** The NAK decoder accepts exactly the lengths the encoder produces.  What
    it reports is encoded as what was accepted; what was sent is received, offsets modulo
    their field width; and a NAK with more requests than the array holds is not sent. -/
theorem nak_codec (largeFileFlag : LargeFileFlag) :
    (∀ (p : Ptr) (xs : List UInt8) (len : Size T) (old : NakPdu N), p.Holds xs →
      xs.length = len.toNat →
      ∃ n out, nakDeserialize (some p) len largeFileFlag (some old) = .ok (n, out) ∧
        (n ≠ sz 0 ↔ xs.getD 0 0 = 0x08 ∧
          ∃ k, k ≤ N.max ∧ xs.length = 1 + 2 * fileSizeWidth largeFileFlag * (k + 1)) ∧
        (n ≠ sz 0 → n = len ∧ ∃ nak, out = some nak ∧
          (∀ k, xs.length = 1 + 2 * fileSizeWidth largeFileFlag * (k + 1) →
            nak.segmentRequestCount.toNat = k) ∧
          ∀ (i : Nat) (cap : Size T) (m : Object), i + cap.toNat ≤ m.extent →
            xs.length ≤ cap.toNat →
            nakSerialize (some nak) largeFileFlag (some i) cap m = .ok (len, m.place i xs))) ∧
    (∀ nak : NakPdu N, nak.segmentRequestCount.toNat ≤ N.max →
      ∃ e : List UInt8, e.length = 1 + 2 * fileSizeWidth largeFileFlag *
          (nak.segmentRequestCount.toNat + 1) ∧
        (∀ (i : Nat) (cap : Size T) (m : Object), i + cap.toNat ≤ m.extent →
          e.length ≤ cap.toNat →
          nakSerialize (some nak) largeFileFlag (some i) cap m = .ok (sz e.length, m.place i e)) ∧
        ∀ (p : Ptr) (len : Size T) (old : NakPdu N), p.Holds e → e.length = len.toNat →
          ∃ nak', nakDeserialize (some p) len largeFileFlag (some old) = .ok (len, some nak') ∧
            nak.ReceivedAs largeFileFlag nak') ∧
    (∀ nak : NakPdu N, N.max < nak.segmentRequestCount.toNat →
      ∀ (buf : Option Nat) (cap : Size T) (m : Object),
        nakSerialize (some nak) largeFileFlag buf cap m = .ok (sz 0, m)) := by
  refine ⟨?_, ?_, ?_⟩
  · intro p xs len old hp hlen
    exact nak_encode_decode hp hlen
  · intro nak hcount
    exact nak_decode_encode hcount
  · intro nak hcount buf cap m
    exact nakSerialize_refuses hcount buf cap m

/-- Room for two segment requests. -/
def twoRequests : NakCapacity .checked32 := ⟨2, by decide⟩

/-- One request, with an offset that does not fit four octets. -/
def sampleNak : NakPdu twoRequests :=
  ⟨1, 9, #v[⟨0x0102030405, 6⟩, ⟨7, 8⟩], sz 1⟩

theorem nak_codec_sample :
    (∃ e : List UInt8, e.length = 17 ∧ ∀ p : Ptr, p.Holds e →
      ∃ nak', nakDeserialize (some p) (sz 17) CFDP_FILE_SIZE_SMALL (some sampleNak) =
          .ok (sz 17, some nak') ∧ sampleNak.ReceivedAs CFDP_FILE_SIZE_SMALL nak') ∧
      ∃ n out, nakDeserialize (some ⟨Object.full (0x08 :: List.replicate 15 0), 0⟩) (sz 16)
          CFDP_FILE_SIZE_SMALL (some sampleNak) = .ok (n, out) ∧ n = sz 0 := by
  constructor
  · obtain ⟨e, hsize, _, hreceive⟩ := (nak_codec CFDP_FILE_SIZE_SMALL).2.1 sampleNak (by decide)
    have hlength : e.length = 17 := hsize
    exact ⟨e, hlength, fun p hp => hreceive p (sz 17) sampleNak hp hlength⟩
  · obtain ⟨n, out, hrun, haccepted, _⟩ := (nak_codec CFDP_FILE_SIZE_SMALL).1
      ⟨Object.full (0x08 :: List.replicate 15 0), 0⟩ (0x08 :: List.replicate 15 0) (sz 16) sampleNak
      (Object.holds_whole _) rfl
    refine ⟨n, out, hrun, ?_⟩
    by_contra hne
    obtain ⟨_, k, _, hlength⟩ := haccepted.mp hne
    change 16 = 1 + 8 * (k + 1) at hlength
    omega

end EmbeddedCfdp
