import EmbeddedCfdp.SpareBits

/-!
# The extent of a PDU

A PDU ends where its header says.  What follows it has no part in whether it is accepted or in
what is received of it, and nothing short of all of it is accepted.
-/

namespace EmbeddedCfdp

open CMemory

variable {T : Target} {N : NakCapacity T}

/-- The octets of a PDU, its header and its CRC among them. -/
def PduHeader.pduLength (hdr : PduHeader) : Nat := headerLength hdr + hdr.dataFieldLength.toNat

section Extent

variable {xs ys : List UInt8} {hsize : Nat} {hdr : PduHeader}

theorem PduAt.hsize_eq (hat : PduAt xs hsize hdr) : hsize = headerLength hdr :=
  (headerDecode_spec hat.header).1

theorem PduAt.pduLength_le (hat : PduAt xs hsize hdr) : hdr.pduLength ≤ xs.length := by
  rw [PduHeader.pduLength, ← hat.hsize_eq]
  exact hat.complete

/-- Octets that start with the same PDU are accepted for it. -/
theorem PduAt.of_agree (hat : PduAt xs hsize hdr)
    (hagree : ys.take hdr.pduLength = xs.take hdr.pduLength) : PduAt ys hsize hdr := by
  have hlength : hdr.pduLength ≤ ys.length := by
    have htaken := congrArg List.length hagree
    rw [List.length_take, List.length_take, Nat.min_eq_left hat.pduLength_le] at htaken
    omega
  have hshorter : ∀ k ≤ hdr.pduLength, ys.take k = xs.take k := by
    intro k hk
    have htaken := congrArg (List.take k) hagree
    rwa [List.take_take, List.take_take, Nat.min_eq_left hk] at htaken
  have hextent : hsize + hdr.dataFieldLength.toNat = hdr.pduLength := by
    rw [PduHeader.pduLength, hat.hsize_eq]
  constructor
  · apply headerDecode_of_agree hat.header
    apply hshorter
    rw [hat.hsize_eq]
    exact Nat.le_add_right _ _
  · rwa [hextent]
  · exact hat.crcLength
  · intro hcrc
    have hlong := hat.crcLength hcrc
    have hchecked := hat.crc hcrc
    rw [hextent] at hchecked ⊢
    have htwo : hdr.pduLength - 2 + 2 ≤ hdr.pduLength := by
      unfold CFDP_PDU_CRC_LEN at hlong
      omega
    rw [hshorter _ (Nat.sub_le _ _), uintAt, slice_of_agree hagree htwo]
    exact hchecked

end Extent

section Moved

variable {p q : Ptr} {xs : List UInt8}

theorem FileDataItem.view_moved {largeFileFlag : LargeFileFlag}
    {segmentMetadataFlag : SegMetadataFlag}
    (x : FileDataItem largeFileFlag segmentMetadataFlag) (p q : Ptr) (i : Nat) :
    (DataField.fileData (x.view (p.add i)) : DataField N).moved p q =
      .fileData (x.view (q.add i)) := by
  unfold DataField.moved FileDataItem.view
  dsimp only
  rw [spanAt_moved, spanAt_moved]

theorem DataField.decode_moved (p q : Ptr) (i : Nat) (xs : List UInt8) (hdr : PduHeader) :
    (DataField.decode N (p.add i) xs hdr).map (fun r => (r.1, r.2.moved p q)) =
      DataField.decode N (q.add i) xs hdr := by
  unfold DataField.decode
  by_cases htype : hdr.pduType = CFDP_PDU_TYPE_DIRECTIVE
  · rw [if_pos htype, if_pos htype]
    cases Directive.ofCode (xs.getD 0 0).toUInt32 with
    | none => rfl
    | some d => exact d.decode_moved p q i xs hdr.largeFileFlag
  · rw [if_neg htype, if_neg htype, Option.map_map]
    congr 1
    funext x
    exact congrArg (Prod.mk xs.length) (x.view_moved p q i)

end Moved

end EmbeddedCfdp
