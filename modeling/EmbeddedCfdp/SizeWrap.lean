import EmbeddedCfdp.DirectiveSerialise
import EmbeddedCfdp.FileDataCodec

/-!
# Sizes that do not fit `size_t`

The File Data and the Metadata serialiser add up the octets they need in `size_t`, where the
sum may wrap.  Then the capacity check means nothing, but the copies do not fit any object
of C: a call that returns behind the check has not wrapped its sum.
-/

namespace EmbeddedCfdp

open CMemory

variable {T : Target} {m m' : Object} {i : Nat}

theorem writeUintLoop_returns (buf left : Nat) (value : UInt64) :
    Returns (writeUintLoop buf left value) fun _ => True := by
  induction left generalizing value with
  | zero => exact Returns.pure trivial
  | succ left ih => exact Returns.bind (Returns.store _ _) fun _ _ => ih _

theorem writeUint_returns (buf : Nat) (value : UInt64) (nbytes : UInt8) :
    Returns (writeUint buf value nbytes) fun _ => True :=
  writeUintLoop_returns buf nbytes.toNat value

/-! ### File Data -/

section FileData

variable {largeFileFlag : LargeFileFlag} {segmentMetadataFlag : SegMetadataFlag}
  {fd : FileDataPdu T}

/-- The number of octets asked for, as the source adds it up. -/
def fileDataNeed (largeFileFlag : LargeFileFlag) (segmentMetadataFlag : SegMetadataFlag)
    (fd : FileDataPdu T) : Size T :=
  (if segmentMetadataFlag = CFDP_SEG_METADATA_PRESENT then
      sz fd.segmentMetadataLen.toNat + sz 1 else sz 0) +
    sz (fileSizeOctets largeFileFlag).toNat + fd.fileDataLen

/-- The source's sum is the exact one, reduced. -/
theorem toNat_fileDataNeed : (fileDataNeed largeFileFlag segmentMetadataFlag fd).toNat =
    fileDataSize largeFileFlag segmentMetadataFlag fd % 2 ^ T.sizeBits := by
  have hsum : fileDataNeed largeFileFlag segmentMetadataFlag fd =
      sz (fileDataSize largeFileFlag segmentMetadataFlag fd) := by
    rw [fileDataNeed, fileDataSize_eq, metadataOctets, ← sz_add, ← sz_add, sz_toNat]
    by_cases hpresent : segmentMetadataFlag = CFDP_SEG_METADATA_PRESENT
    · rw [if_pos hpresent, if_pos hpresent, sz_add]
    · rw [if_neg hpresent, if_neg hpresent]
  rw [hsum, sz, BitVec.toNat_ofNat]

theorem segmentMetadataWrite_returns (fd : FileDataPdu T) (buf : Nat) :
    Returns (segmentMetadataWrite fd buf) (· = sz (fd.segmentMetadataLen.toNat + 1)) := by
  unfold segmentMetadataWrite
  refine Returns.bind (Returns.store _ _) fun _ _ => Returns.ite (fun _ => ?_) fun _ => ?_
  · exact Returns.bind (Returns.memcpy _ _ _) fun _ _ => Returns.pure (sz_add _ _)
  · exact Returns.pure (sz_add _ _)

/-- Behind `k` octets of segment metadata, the offset and the file data are written into the
    object. -/
theorem offsetAndData_fits {k : Nat} {w : UInt8} {n : Size T} (hk : k ≤ 256)
    (hm : m.extent < 2 ^ T.sizeBits)
    (hrun : (do
        writeUint (i + (sz k : Size T).toNat) fd.offset w
        if fd.fileDataLen > sz 0 then
          memcpy (i + (sz k + sz w.toNat : Size T).toNat) fd.fileData fd.fileDataLen.toNat
          pure (sz k + sz w.toNat + fd.fileDataLen)
        else pure (sz k + sz w.toNat)) m = .ok (n, m')) :
    k + w.toNat + fd.fileDataLen.toNat < 2 ^ T.sizeBits := by
  have hwidth := w.toNat_lt
  obtain ⟨_, m₁, hfirst, hrun⟩ := Writer.bind_eq_ok.mp hrun
  obtain ⟨_, hextent⟩ := writeUint_returns _ _ _ _ _ _ hfirst
  -- a copy of at least one octet ends inside the object, and an object has fewer octets than that
  by_cases hsome : fd.fileDataLen > sz 0
  · rw [if_pos hsome] at hrun
    obtain ⟨_, _, hcopy, _⟩ := Writer.bind_eq_ok.mp hrun
    obtain ⟨hfits, _⟩ := memcpy_eq_ok hcopy
    rw [sz_add, toNat_sz_small (by omega), hextent] at hfits
    omega
  · rw [gt_iff_lt, sz_lt_iff (size_lt T (by decide))] at hsome
    exact size_lt T (by omega)

theorem fileDataSize_lt (hm : m.extent < 2 ^ T.sizeBits)
    (hpass : ¬ ((fd.fileData.isNone ∧ fd.fileDataLen > sz 0) ∨
      ¬ segmentMetadataConsistent fd segmentMetadataFlag)) {cap n : Size T}
    (hroom : ¬ cap < fileDataNeed largeFileFlag segmentMetadataFlag fd)
    (hrun : fileDataSerialize (some fd) largeFileFlag segmentMetadataFlag (some i) cap m =
      .ok (n, m')) :
    fileDataSize largeFileFlag segmentMetadataFlag fd < 2 ^ T.sizeBits := by
  have hlen := fd.segmentMetadataLen.toNat_lt
  unfold fileDataNeed at hroom
  unfold fileDataSerialize at hrun
  dsimp only at hrun
  rw [if_neg hpass, if_neg hroom] at hrun
  rw [fileDataSize_eq, metadataOctets]
  -- the run past the checks starts at 0, or behind the segment metadata when there is some
  by_cases hpresent : segmentMetadataFlag = CFDP_SEG_METADATA_PRESENT
  · rw [if_pos hpresent] at hrun ⊢
    obtain ⟨pos, m₁, hfirst, hrun⟩ := Writer.bind_eq_ok.mp hrun
    obtain ⟨rfl, hextent⟩ := segmentMetadataWrite_returns fd i _ _ _ hfirst
    exact offsetAndData_fits (by omega) (by rw [hextent]; exact hm) hrun
  · rw [if_neg hpresent] at hrun ⊢
    exact offsetAndData_fits (by omega) hm hrun

end FileData

/-! ### Metadata -/

theorem lvSerialize_returns (value : Option Ptr) (valueLen : UInt8) (buf : Option Nat)
    (bufLen : Size T) : Returns (lvSerialize value valueLen buf bufLen)
      (fun n => n = sz 0 ∨ n = sz (valueLen.toNat + 1)) := by
  unfold lvSerialize
  cases buf with
  | none => exact Returns.pure (Or.inl rfl)
  | some buf =>
    refine Returns.ite (fun _ => Returns.pure (Or.inl rfl)) fun _ => ?_
    have hsize : (sz valueLen.toNat : Size T) + sz CFDP_LV_HEADER_LEN = sz (valueLen.toNat + 1) :=
      sz_add _ _
    refine Returns.bind (Returns.store _ _) fun _ _ => Returns.ite (fun _ => ?_) fun _ => ?_
    · exact Returns.bind (Returns.memcpy _ _ _) fun _ _ => Returns.pure (Or.inr hsize)
    · exact Returns.pure (Or.inr hsize)

/-- A name is written, or the serialiser gives up. -/
theorem lvSerialize_then {value : Option Ptr} {valueLen : UInt8} {buf : Option Nat}
    {bufLen n : Size T} {f : Size T → Writer (Size T)}
    (hrun : (lvSerialize value valueLen buf bufLen >>= fun r =>
      if r = sz 0 then pure (sz 0) else f r) m = .ok (n, m')) (hn : n ≠ sz 0) :
    ∃ m₁, m₁.extent = m.extent ∧ f (sz (valueLen.toNat + 1)) m₁ = .ok (n, m') := by
  obtain ⟨r, m₁, hfirst, hrun⟩ := Writer.bind_eq_ok.mp hrun
  obtain ⟨hr, hextent⟩ := lvSerialize_returns _ _ _ _ _ _ _ hfirst
  obtain ⟨hzero, hrun⟩ := Writer.guard_eq_ok hrun hn
  rw [hr.resolve_left hzero] at hrun
  exact ⟨m₁, hextent, hrun⟩

theorem metadataSize_lt {md : MetadataPdu} {largeFileFlag : LargeFileFlag} {cap n : Size T}
    (hm : m.extent < 2 ^ T.sizeBits)
    (hrun : metadataSerialize (some md) largeFileFlag (some i) cap m = .ok (n, m'))
    (hn : n ≠ sz 0) : metadataSize md largeFileFlag < 2 ^ T.sizeBits := by
  have hwidth := (length_fileSizeOctets largeFileFlag).1
  have hsource := md.sourceFilenameLen.toNat_lt
  have hdestination := md.destinationFilenameLen.toNat_lt
  unfold metadataSerialize at hrun
  dsimp only at hrun
  -- the run is followed write by write; none of them changes the extent of the object
  obtain ⟨_, hrun⟩ := Writer.guard_eq_ok hrun hn
  obtain ⟨_, hrun⟩ := Writer.guard_eq_ok hrun hn
  obtain ⟨_, m₁, hcode, hrun⟩ := Writer.bind_eq_ok.mp hrun
  obtain ⟨_, hextent₁⟩ := Returns.store _ _ _ _ _ hcode
  obtain ⟨_, m₂, hflags, hrun⟩ := Writer.bind_eq_ok.mp hrun
  obtain ⟨_, hextent₂⟩ := Returns.store _ _ _ _ _ hflags
  obtain ⟨_, m₃, hvalue, hrun⟩ := Writer.bind_eq_ok.mp hrun
  obtain ⟨_, hextent₃⟩ := writeUint_returns _ _ _ _ _ _ hvalue
  obtain ⟨_, m₄, hrest, hrun⟩ := Writer.bind_eq_ok.mp hrun
  obtain ⟨_, hextent₄⟩ := Returns.subW _ _ _ _ _ hrest
  obtain ⟨m₅, hextent₅, hrun⟩ := lvSerialize_then hrun hn
  obtain ⟨_, m₆, hrest', hrun⟩ := Writer.bind_eq_ok.mp hrun
  obtain ⟨_, hextent₆⟩ := Returns.subW _ _ _ _ _ hrest'
  obtain ⟨m₇, hextent₇, hrun⟩ := lvSerialize_then hrun hn
  rw [metadataSize_eq]
  -- only the options can be long: without them the size is far below the modulus
  by_cases hsome : md.optionsLen > 0
  · rw [if_pos hsome] at hrun
    obtain ⟨_, _, hcopy, _⟩ := Writer.bind_eq_ok.mp hrun
    obtain ⟨hfits, _⟩ := memcpy_eq_ok hcopy
    rw [sz_add, sz_add, sz_add, toNat_sz_small (by omega), hextent₇, hextent₆, hextent₅, hextent₄,
      hextent₃, hextent₂, hextent₁] at hfits
    omega
  · rw [toNat_pos_iff_uint16] at hsome
    exact size_lt T (by omega)

end EmbeddedCfdp
