import EmbeddedCfdp.FileTransfer

/-!
# A running checksum when segments are lost or repeated

"Call once per segment, in any order" (`cfdp_checksum.h`).  A receiver that folds the segments
into its checksum as they arrive counts a segment as often as it comes.  The modular checksum
then differs from that of the file by what came again, less what did not come; the null checksum
is 0 whatever came, and under any other type the first segment is refused.
-/

namespace EmbeddedCfdp

open CMemory

variable {T : Target}

/-! ### Sums of segments -/

/-- What some segments add to the checksum. -/
def Segment.sumOf (segments : List (Segment T)) : UInt32 :=
  segments.foldl (fun sum s => sum + s.sum) 0

theorem foldl_sum_eq (segments : List (Segment T)) (checksum : UInt32) :
    segments.foldl (fun sum s => sum + s.sum) checksum = checksum + Segment.sumOf segments := by
  unfold Segment.sumOf
  induction segments generalizing checksum with
  | nil => exact (UInt32.add_zero checksum).symm
  | cons s segments ih =>
    rw [List.foldl_cons, ih, List.foldl_cons, ih (0 + s.sum), UInt32.zero_add, UInt32.add_assoc]

theorem Segment.sumOf_append (segments segments' : List (Segment T)) :
    sumOf (segments ++ segments') = sumOf segments + sumOf segments' := by
  rw [sumOf, List.foldl_append, foldl_sum_eq]
  rfl

theorem Segment.sumOf_perm {segments segments' : List (Segment T)}
    (h : segments'.Perm segments) : sumOf segments' = sumOf segments :=
  foldl_sum_perm h 0

/-! ### Other types -/

section Types

variable {type : ChecksumType} {rs : List (Reception T)}

theorem updateByType_null (checksum : UInt32) (offset : UInt64) (data : Option Ptr)
    (len : Size T) : updateByType CFDP_CHECKSUM_NULL checksum offset data len = .ok (some 0) := rfl

theorem updateByType_unsupported (h : checksumTypeSupported type = false) (checksum : UInt32)
    (offset : UInt64) (data : Option Ptr) (len : Size T) :
    updateByType type checksum offset data len = .ok none := by
  unfold updateByType checksumUpdateByType
  dsimp only
  rw [if_pos (by rw [h]; decide)]
  rfl

/-- A segment is folded in where it is accepted. -/
theorem receiveSegments_cons_eq_some
    {update : UInt32 → UInt64 → Option Ptr → Size T → Except Fault (Option UInt32)}
    {r : Reception T} {checksum result : UInt32} :
    receiveSegments update (r :: rs) checksum = .ok (some result) ↔
      ∃ n fd next, fileDataDeserialize (some r.buf) r.len r.segment.largeFileFlag
          r.segment.segmentMetadataFlag (some default) = .ok (n, fd) ∧ n ≠ sz 0 ∧
        update checksum (fd.getD default).offset (fd.getD default).fileData
          (fd.getD default).fileDataLen = .ok (some next) ∧
        receiveSegments update rs next = .ok (some result) := by
  rw [receiveSegments, bind_eq_ok]
  constructor
  · rintro ⟨⟨n, fd⟩, hrun, hrest⟩
    dsimp only at hrest
    by_cases hzero : n = sz 0
    · rw [if_pos hzero] at hrest
      cases hrest
    · rw [if_neg hzero] at hrest
      obtain ⟨out, hupdate, hrest⟩ := bind_eq_ok.mp hrest
      -- an unsupported checksum type stops the run at its first segment
      cases out with
      | none => cases hrest
      | some next => exact ⟨n, fd, next, hrun, hzero, hupdate, hrest⟩
  · rintro ⟨n, fd, next, hrun, hzero, hupdate, hrest⟩
    refine ⟨(n, fd), hrun, ?_⟩
    dsimp only
    rw [if_neg hzero, hupdate]
    exact hrest

/-- Where the modular checksum takes every segment, so does the null checksum. -/
theorem receiveSegments_null {checksum result : UInt32}
    (h : receiveSegments updateModular rs checksum = .ok (some result)) :
    receiveSegments (updateByType CFDP_CHECKSUM_NULL) rs 0 = .ok (some 0) := by
  induction rs generalizing checksum with
  | nil => rfl
  | cons r rs ih =>
    obtain ⟨n, fd, next, hrun, hzero, _, hrest⟩ := receiveSegments_cons_eq_some.mp h
    exact receiveSegments_cons_eq_some.mpr
      ⟨n, fd, 0, hrun, hzero, updateByType_null _ _ _ _, ih hrest⟩

theorem receiveSegments_unsupported (htype : checksumTypeSupported type = false)
    {checksum result : UInt32} {r : Reception T}
    (h : receiveSegments updateModular (r :: rs) checksum = .ok (some result)) :
    receiveSegments (updateByType type) (r :: rs) checksum = .ok none := by
  obtain ⟨n, fd, next, hrun, hzero, _, _⟩ := receiveSegments_cons_eq_some.mp h
  rw [receiveSegments, hrun, ok_bind]
  dsimp only
  rw [if_neg hzero, updateByType_unsupported htype, ok_bind]
  rfl

end Types

/-- **Main result.** A file is cut into segments, of which `lost` never arrive and
    `repeated` arrive once more than they should.  Folded in as they arrive, the modular
    checksum is that of the file exactly if what was lost and what was repeated have the same
    sum.  The null checksum stays 0, and any other type is refused at the first segment. -/
theorem running_checksum {file : Option Ptr} {fileLen : Size T}
    {segments lost repeated : List (Segment T)} (hfile : Readable file fileLen.toNat)
    (hdivide : Segment.Divide 0 segments (octetsAt file fileLen.toNat))
    (hwf : ∀ s ∈ segments, s.WellFormed) (hrepeated : ∀ s ∈ repeated, s ∈ segments)
    {rs : List (Reception T)}
    (hperm : (rs.map Reception.segment ++ lost).Perm (segments ++ repeated))
    (hfaithful : ∀ r ∈ rs, r.Faithful) :
    (∃ sum total, checksumCompute file fileLen = .ok sum ∧
      receiveSegments (updateByType CFDP_CHECKSUM_MODULAR) rs 0 = .ok (some total) ∧
      (total = sum ↔ Segment.sumOf lost = Segment.sumOf repeated)) ∧
    receiveSegments (updateByType CFDP_CHECKSUM_NULL) rs 0 = .ok (some 0) ∧
    ∀ type, checksumTypeSupported type = false → rs ≠ [] →
      receiveSegments (updateByType type) rs 0 = .ok none := by
  have hall : ∀ r ∈ rs, r.segment.WellFormed ∧ r.Faithful := by
    intro r hr
    have hmem : r.segment ∈ segments ++ repeated :=
      hperm.mem_iff.mp (List.mem_append_left _ (List.mem_map_of_mem hr))
    rcases List.mem_append.mp hmem with hfirst | hagain
    · exact ⟨hwf _ hfirst, hfaithful r hr⟩
    · exact ⟨hwf _ (hrepeated _ hagain), hfaithful r hr⟩
  have hfold := receiveSegments_eq hall 0
  refine ⟨?_, receiveSegments_null hfold, ?_⟩
  -- what was received and what was lost sum to the file and what was repeated
  · have hbalance := Segment.sumOf_perm hperm
    rw [Segment.sumOf_append, Segment.sumOf_append, Segment.sumOf.eq_1 segments,
      foldl_sum_divide hdivide] at hbalance
    refine ⟨0 + checksumSum 0 (octetsAt file fileLen.toNat), _, checksumUpdate_octetsAt hfile 0 0,
      by rw [updateByType_modular]; exact hfold, ?_⟩
    change Segment.sumOf _ = _ ↔ _
    constructor
    · intro hsame
      rw [hsame] at hbalance
      exact (UInt32.add_right_inj _).mp hbalance
    · intro hsums
      rw [hsums] at hbalance
      exact (UInt32.add_left_inj _).mp hbalance
  · intro type htype hne
    cases rs with
    | nil => exact absurd rfl hne
    | cons r rs => exact receiveSegments_unsupported htype hfold

/-- Segments that have an encoding can be received. -/
theorem exists_faithful {segments : List (Segment T)}
    (h : ∀ s ∈ segments, s.WellFormed ∧ s.size < 2 ^ T.sizeBits) :
    ∃ rs : List (Reception T), rs.map Reception.segment = segments ∧ ∀ r ∈ rs, r.Faithful := by
  induction segments with
  | nil => exact ⟨[], rfl, List.forall_mem_nil _⟩
  | cons s segments ih =>
    obtain ⟨hwf, hsize⟩ := h s List.mem_cons_self
    obtain ⟨rs, hmap, hfaithful⟩ := ih fun s hs => h s (List.mem_cons_of_mem _ hs)
    have hcap : (sz s.size : Size T).toNat = s.size := toNat_sz hsize
    have hext : 0 + (sz s.size : Size T).toNat ≤
        (Object.full (List.replicate s.size 0)).extent := by
      rw [hcap, Nat.zero_add]
      exact (List.length_replicate).ge
    obtain ⟨x, _, _, hrun⟩ := hwf.sends hext hcap.ge
    let r : Reception T :=
      ⟨s, ⟨(Object.full (List.replicate s.size 0)).place 0 x.encode, 0⟩, sz s.size⟩
    have hr : r.Faithful := ⟨0, sz s.size, _, _, hext, hcap.ge, hrun, List.take_prefix _ _⟩
    exact ⟨r :: rs, by rw [List.map_cons, hmap], List.forall_mem_cons.mpr ⟨hr, hfaithful⟩⟩

/-- The five octets again, with the second segment sent twice. -/
theorem running_checksum_sample :
    ∃ rs : List (Reception .checked32),
      rs.map Reception.segment = sampleSegments ++ sampleSegments.drop 1 ∧
      ∃ sum total, checksumCompute (some ⟨Object.full [1, 2, 3, 4, 5], 0⟩)
          (sz 5 : Size .checked32) = .ok sum ∧
        receiveSegments (updateByType CFDP_CHECKSUM_MODULAR) rs 0 = .ok (some total) ∧
        total ≠ sum := by
  have hfile : Readable (some ⟨Object.full [1, 2, 3, 4, 5], 0⟩)
      (sz 5 : Size .checked32).toNat := by
    rintro q ⟨⟩
    decide
  have hdivide : Segment.Divide 0 sampleSegments
      (octetsAt (some ⟨Object.full [1, 2, 3, 4, 5], 0⟩) (sz 5 : Size .checked32).toNat) :=
    ⟨rfl, [4, 5], rfl, rfl, [], rfl, rfl⟩
  have hshort : ∀ s ∈ sampleSegments, s.size < 2 ^ Target.checked32.sizeBits := by
    decide +kernel
  have hmem : ∀ s ∈ sampleSegments ++ sampleSegments.drop 1, s ∈ sampleSegments := by
    intro s hs
    exact (List.mem_append.mp hs).elim id List.mem_of_mem_drop
  obtain ⟨rs, hmap, hfaithful⟩ := @exists_faithful .checked32 _ fun s hs =>
    ⟨sampleSegments_wellFormed s (hmem s hs), hshort s (hmem s hs)⟩
  have hperm : (rs.map Reception.segment ++ []).Perm
      (sampleSegments ++ sampleSegments.drop 1) := by
    rw [List.append_nil, hmap]
  obtain ⟨⟨sum, total, hsum, hrun, hsame⟩, _⟩ := running_checksum hfile hdivide
    sampleSegments_wellFormed (fun s hs => List.mem_of_mem_drop hs) hperm hfaithful
  exact ⟨rs, hmap, sum, total, hsum, hrun, fun heq => absurd (hsame.mp heq) (by decide +kernel)⟩

end EmbeddedCfdp
