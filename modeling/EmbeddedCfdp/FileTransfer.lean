import EmbeddedCfdp.Checksum
import EmbeddedCfdp.FileDataRoundTrip

/-!
# A file in segments

A sender cuts a file into segments and sends each as File Data; a receiver folds the
decoded segments into its running checksum in the order in which they arrive.  Whatever
the cut, the layouts and the order, the result is the checksum of the file.
-/

namespace EmbeddedCfdp

open CMemory

variable {T : Target}

/-! ### The sender -/

/-- A segment as handed to the File Data serialiser. -/
structure Segment (T : Target) where
  fd : FileDataPdu T
  largeFileFlag : LargeFileFlag
  segmentMetadataFlag : SegMetadataFlag

namespace Segment

variable (s : Segment T)

/-- The octets of the file that the segment carries. -/
def octets : List UInt8 := octetsAt s.fd.fileData s.fd.fileDataLen.toNat

def size : Nat := fileDataSize s.largeFileFlag s.segmentMetadataFlag s.fd

/-- The segment is well formed: its pointers are good, its metadata fits the layout, and
    its offset fits the offset field. -/
structure WellFormed : Prop where
  fileDataGiven : ¬ (s.fd.fileData.isNone ∧ s.fd.fileDataLen.toNat > 0)
  fileDataReadable : Readable s.fd.fileData s.fd.fileDataLen.toNat
  metadataReadable : Readable s.fd.segmentMetadata s.fd.segmentMetadataLen.toNat
  present : s.segmentMetadataFlag = CFDP_SEG_METADATA_PRESENT →
    s.fd.segmentMetadataLen.toNat ≤ 63 ∧
      (s.fd.segmentMetadata = none → s.fd.segmentMetadataLen = 0)
  absent : s.segmentMetadataFlag ≠ CFDP_SEG_METADATA_PRESENT →
    s.fd.segmentMetadata = none ∧ s.fd.segmentMetadataLen = 0
  offsetFits : s.fd.offset.toNat < 256 ^ fileSizeWidth s.largeFileFlag

/-- The segments are contiguous, the first at `pos`, and together make up the file. -/
def Divide : Nat → List (Segment T) → List UInt8 → Prop
  | _, [], file => file = []
  | pos, s :: segments, file =>
      s.fd.offset.toNat = pos ∧ ∃ rest, file = s.octets ++ rest ∧
        Divide (pos + s.octets.length) segments rest

variable {s}

theorem WellFormed.consistent (h : s.WellFormed) :
    segmentMetadataConsistent s.fd s.segmentMetadataFlag = true := by
  by_cases hpresent : s.segmentMetadataFlag = CFDP_SEG_METADATA_PRESENT
  · obtain ⟨hmax, hnull⟩ := h.present hpresent
    rw [segmentMetadataConsistent, if_neg (not_not.mpr hpresent), Bool.and_eq_true,
      decide_eq_true_eq, Bool.or_eq_true, decide_eq_true_eq, UInt8.le_iff_toNat_le]
    refine ⟨hmax, ?_⟩
    cases hmeta : s.fd.segmentMetadata with
    | none => exact Or.inr (hnull hmeta)
    | some _ => exact Or.inl rfl
  · obtain ⟨hnone, hzero⟩ := h.absent hpresent
    rw [segmentMetadataConsistent, if_pos hpresent, hnone, hzero]
    rfl

theorem WellFormed.item (h : s.WellFormed) :
    ∃ x, fileDataOf s.largeFileFlag s.segmentMetadataFlag s.fd = some x := by
  have hpass : ¬ ((s.fd.fileData.isNone ∧ s.fd.fileDataLen > sz 0) ∨
      ¬ segmentMetadataConsistent s.fd s.segmentMetadataFlag) := by
    rw [not_or, not_not, gt_iff_lt, sz_lt_iff (size_lt T (by decide))]
    exact ⟨h.fileDataGiven, h.consistent⟩
  exact ⟨_, dif_neg hpass⟩

/-- A well-formed segment is encoded wherever there is room for it. -/
theorem WellFormed.sends (h : s.WellFormed) {i : Nat} {cap : Size T} {m : Object}
    (hext : i + cap.toNat ≤ m.extent) (hcap : s.size ≤ cap.toNat) :
    ∃ x, fileDataOf s.largeFileFlag s.segmentMetadataFlag s.fd = some x ∧
      x.encode.length = s.size ∧
      fileDataSerialize (some s.fd) s.largeFileFlag s.segmentMetadataFlag (some i) cap m =
        .ok (sz s.size, m.place i x.encode) := by
  have hfits : s.size < 2 ^ T.sizeBits := Nat.lt_of_le_of_lt hcap cap.isLt
  obtain ⟨x, hx⟩ := h.item
  have hlength := length_encode_fileDataOf h.fileDataReadable h.metadataReadable hx
  have hencodes := fileDataSerialize_encodes hfits h.fileDataReadable h.metadataReadable
  rw [hx, Option.map_some] at hencodes
  have hwrites := hencodes.writes hext (by rw [hlength]; exact hcap)
  rw [hlength] at hwrites
  exact ⟨x, hx, hlength, hwrites⟩

end Segment

/-! ### The receiver -/

/-- A segment and where the receiver gets its octets. -/
structure Reception (T : Target) where
  segment : Segment T
  buf : Ptr
  len : Size T

/-- The octets received are those the serialiser wrote for the segment, into some buffer
    with room for them. -/
def Reception.Faithful (r : Reception T) : Prop :=
  ∃ i cap m m', i + cap.toNat ≤ m.extent ∧ r.segment.size ≤ cap.toNat ∧
    fileDataSerialize (some r.segment.fd) r.segment.largeFileFlag r.segment.segmentMetadataFlag
      (some i) cap m = .ok (r.len, m') ∧
    r.buf.Holds (octetsAt (some ⟨m', i⟩) r.len.toNat)

/-- Decode each segment and fold its offset and file data into the checksum with
    `update`; `none` if a segment is refused. -/
def receiveSegments
    (update : UInt32 → UInt64 → Option Ptr → Size T → Except Fault (Option UInt32)) :
    List (Reception T) → UInt32 → Except Fault (Option UInt32)
  | [], checksum => return some checksum
  | r :: rs, checksum => do
      let (n, fd) ← fileDataDeserialize (some r.buf) r.len r.segment.largeFileFlag
        r.segment.segmentMetadataFlag (some default)
      let fd := fd.getD default
      if n = sz 0 then return none
      match ← update checksum fd.offset fd.fileData fd.fileDataLen with
      | some checksum => receiveSegments update rs checksum
      | none => return none

/-- Folding with `cfdp_checksum_update`. -/
def updateModular (checksum : UInt32) (offset : UInt64) (data : Option Ptr) (len : Size T) :
    Except Fault (Option UInt32) :=
  (checksumUpdate checksum offset data len).map some

/-- Folding with `cfdp_checksum_update_by_type`, refused when it returns false. -/
def updateByType (type : ChecksumType) (checksum : UInt32) (offset : UInt64)
    (data : Option Ptr) (len : Size T) : Except Fault (Option UInt32) :=
  (checksumUpdateByType type (some checksum) offset data len).map fun r =>
    if r.1 then r.2 else none

theorem updateByType_modular :
    updateByType (T := T) CFDP_CHECKSUM_MODULAR = updateModular := by
  funext checksum offset data len
  rw [updateByType, updateModular, checksumUpdateByType_modular]
  cases checksumUpdate checksum offset data len <;> rfl

/-- What a segment adds to the checksum. -/
def Segment.sum (s : Segment T) : UInt32 := checksumSum s.fd.offset s.octets

/-- One reception adds its segment's share. -/
theorem receive_step {r : Reception T} (hwf : r.segment.WellFormed) (hr : r.Faithful)
    (rs : List (Reception T)) (checksum : UInt32) :
    receiveSegments updateModular (r :: rs) checksum =
      receiveSegments updateModular rs (checksum + r.segment.sum) := by
  obtain ⟨i, cap, m, m', hext, hcap, hrun, hholds⟩ := hr
  have hfits : r.segment.size < 2 ^ T.sizeBits := Nat.lt_of_le_of_lt hcap cap.isLt
  obtain ⟨x, hx, hlength, hsends⟩ := hwf.sends hext hcap
  rw [hrun, Except.ok.injEq, Prod.mk.injEq] at hsends
  obtain ⟨hlen, rfl⟩ := hsends
  have hsize : r.len.toNat = x.encode.length := by rw [hlen, toNat_sz hfits, hlength]
  have hplaced : (Ptr.mk (m.place i x.encode) i).Holds x.encode :=
    Object.place_holds (by omega)
  rw [hsize, hplaced.octetsAt] at hholds
  -- what arrives is what the serialiser wrote, so it decodes to the segment
  have hreceived := fileDataReceived_view hfits hwf.fileDataReadable hwf.metadataReadable
    hx hholds
  have hdecode : fileDataDeserialize (some r.buf) r.len r.segment.largeFileFlag
      r.segment.segmentMetadataFlag (some default) =
        .ok (sz x.encode.length, some (x.view r.buf)) := by
    refine (fileDataDeserialize_decodes hholds hsize.symm default).accepts ?_
    rw [FileDataItem.decode_encode, Option.map_some]
  have hoffset : (x.view (T := T) r.buf).offset = r.segment.fd.offset := by
    rw [← UInt64.toNat_inj, hreceived.offset, Nat.mod_eq_of_lt hwf.offsetFits]
  have hreadable : Readable (x.view (T := T) r.buf).fileData
      (x.view (T := T) r.buf).fileDataLen.toNat := by
    rw [toNat_view_fileDataLen (by rwa [hlength])]
    exact readable_spanAt (holds_fileData hholds)
  have hupdate : updateModular checksum (x.view (T := T) r.buf).offset
      (x.view (T := T) r.buf).fileData (x.view (T := T) r.buf).fileDataLen =
        .ok (some (checksum + r.segment.sum)) := by
    rw [updateModular, checksumUpdate_octetsAt hreadable, hoffset, hreceived.fileData]
    rfl
  have hnonzero : (sz x.encode.length : Size T) ≠ sz 0 := by
    refine sz_ne_zero ?_ (by rwa [hlength])
    exact List.length_pos_of_ne_nil x.encode_ne_nil
  -- one round of the loop: decoded, not refused, folded in
  rw [receiveSegments, hdecode, ok_bind]
  dsimp only [Option.getD_some]
  rw [if_neg hnonzero, hupdate, ok_bind]

theorem receiveSegments_eq {rs : List (Reception T)}
    (h : ∀ r ∈ rs, r.segment.WellFormed ∧ r.Faithful) (checksum : UInt32) :
    receiveSegments updateModular rs checksum =
      .ok (some ((rs.map Reception.segment).foldl (fun sum s => sum + s.sum) checksum)) := by
  induction rs generalizing checksum with
  | nil => rfl
  | cons r rs ih =>
    obtain ⟨hwf, hr⟩ := h r List.mem_cons_self
    rw [receive_step hwf hr, ih fun r hmem => h r (List.mem_cons_of_mem _ hmem)]
    rfl

/-! ### Any division, any order -/

theorem foldl_sum_perm {segments segments' : List (Segment T)} (h : segments'.Perm segments)
    (checksum : UInt32) :
    segments'.foldl (fun sum s => sum + s.sum) checksum =
      segments.foldl (fun sum s => sum + s.sum) checksum := by
  refine h.foldl_eq' (fun s _ s' _ sum => ?_) checksum
  rw [UInt32.add_assoc, UInt32.add_comm s.sum, ← UInt32.add_assoc]

/-- Contiguous segments add up to the checksum of what they cover. -/
theorem foldl_sum_divide {pos : Nat} {segments : List (Segment T)} {file : List UInt8}
    (h : Segment.Divide pos segments file) (checksum : UInt32) :
    segments.foldl (fun sum s => sum + s.sum) checksum =
      checksum + checksumSum (UInt64.ofNat pos) file := by
  induction segments generalizing pos file checksum with
  | nil =>
    rw [Segment.Divide] at h
    rw [h, checksumSum, UInt32.add_zero, List.foldl_nil]
  | cons s segments ih =>
    obtain ⟨hpos, rest, rfl, hrest⟩ := h
    have hoffset : s.fd.offset = UInt64.ofNat pos := by rw [← hpos, UInt64.ofNat_toNat]
    rw [List.foldl_cons, ih hrest, checksumSum_append, Segment.sum, hoffset, UInt64.ofNat_add,
      UInt32.add_assoc]

/-- **Main result.** However the file is cut into well-formed segments, each is encoded
    wherever there is room for it, and folding what was decoded, in any order, gives
    the checksum of the file. -/
theorem fileTransfer_checksum {file : Option Ptr} {fileLen : Size T}
    {segments : List (Segment T)} (hfile : Readable file fileLen.toNat)
    (hdivide : Segment.Divide 0 segments (octetsAt file fileLen.toNat))
    (hwf : ∀ s ∈ segments, s.WellFormed) :
    (∀ s ∈ segments, ∀ (i : Nat) (cap : Size T) (m : Object), i + cap.toNat ≤ m.extent →
      s.size ≤ cap.toNat → ∃ m', fileDataSerialize (some s.fd) s.largeFileFlag
        s.segmentMetadataFlag (some i) cap m = .ok (sz s.size, m')) ∧
    ∀ rs : List (Reception T), (rs.map Reception.segment).Perm segments →
      (∀ r ∈ rs, r.Faithful) →
      ∃ sum, checksumCompute file fileLen = .ok sum ∧
        receiveSegments updateModular rs 0 = .ok (some sum) ∧
        receiveSegments (updateByType CFDP_CHECKSUM_MODULAR) rs 0 = .ok (some sum) := by
  constructor
  · intro s hs i cap m hext hcap
    obtain ⟨x, _, _, hrun⟩ := (hwf s hs).sends hext hcap
    exact ⟨_, hrun⟩
  · intro rs hperm hfaithful
    refine ⟨0 + checksumSum 0 (octetsAt file fileLen.toNat), ?_, ?_⟩
    · exact checksumUpdate_octetsAt hfile 0 0
    · have hall : ∀ r ∈ rs, r.segment.WellFormed ∧ r.Faithful := by
        intro r hr
        exact ⟨hwf _ (hperm.mem_iff.mp (List.mem_map_of_mem hr)), hfaithful r hr⟩
      -- addition does not care for the order, and the pieces add up to the file
      have hfold := receiveSegments_eq hall 0
      rw [foldl_sum_perm hperm, foldl_sum_divide hdivide] at hfold
      exact ⟨hfold, by rw [updateByType_modular]; exact hfold⟩

/-- A file of five octets in two segments, the second under the large-file layout with
    segment metadata. -/
def sampleSegments : List (Segment .checked32) :=
  [{ fd := { offset := 0, fileData := some ⟨Object.full [1, 2, 3], 0⟩, fileDataLen := sz 3,
             recordContinuation := 0, segmentMetadata := none, segmentMetadataLen := 0 }
     largeFileFlag := CFDP_FILE_SIZE_SMALL
     segmentMetadataFlag := CFDP_SEG_METADATA_ABSENT },
   { fd := { offset := 3, fileData := some ⟨Object.full [4, 5], 0⟩, fileDataLen := sz 2,
             recordContinuation := 1, segmentMetadata := some ⟨Object.full [9], 0⟩,
             segmentMetadataLen := 1 }
     largeFileFlag := CFDP_FILE_SIZE_LARGE
     segmentMetadataFlag := CFDP_SEG_METADATA_PRESENT }]

theorem sampleSegments_wellFormed : ∀ s ∈ sampleSegments, s.WellFormed := by
  intro s hs
  rcases List.mem_cons.mp hs with rfl | hs
  · refine ⟨by decide, ?_, ?_, by decide, by decide, by decide⟩
    · rintro q ⟨⟩
      decide
    · rintro q ⟨⟩
  · rw [List.mem_singleton] at hs
    subst hs
    refine ⟨by decide, ?_, ?_, ?_, by decide, by decide⟩
    · rintro q ⟨⟩
      decide
    · rintro q ⟨⟩
      decide
    · rintro _
      exact ⟨by decide, fun hnone => nomatch hnone⟩

theorem fileTransfer_checksum_sample :
    ∃ sum, checksumCompute (some ⟨Object.full [1, 2, 3, 4, 5], 0⟩) (sz 5 : Size .checked32) =
        .ok sum ∧
      ∀ rs : List (Reception .checked32),
        (rs.map Reception.segment).Perm sampleSegments.reverse → (∀ r ∈ rs, r.Faithful) →
        receiveSegments updateModular rs 0 = .ok (some sum) := by
  have hfile : Readable (some ⟨Object.full [1, 2, 3, 4, 5], 0⟩)
      (sz 5 : Size .checked32).toNat := by
    rintro q ⟨⟩
    decide
  have hdivide : Segment.Divide 0 sampleSegments
      (octetsAt (some ⟨Object.full [1, 2, 3, 4, 5], 0⟩) (sz 5 : Size .checked32).toNat) :=
    ⟨rfl, [4, 5], rfl, rfl, [], rfl, rfl⟩
  have hcompute : checksumCompute (some ⟨Object.full [1, 2, 3, 4, 5], 0⟩)
      (sz 5 : Size .checked32) = .ok 0x06020304 := by decide +kernel
  refine ⟨0x06020304, hcompute, fun rs hperm hfaithful => ?_⟩
  obtain ⟨sum, hsum, hfold, _⟩ := (fileTransfer_checksum hfile hdivide
    sampleSegments_wellFormed).2 rs (hperm.trans (List.reverse_perm _)) hfaithful
  rw [hcompute, Except.ok.injEq] at hsum
  rwa [hsum]

end EmbeddedCfdp
