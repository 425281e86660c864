import EmbeddedCfdp.FileDataCodec
import EmbeddedCfdp.HeaderCodec
import EmbeddedCfdp.NakRoundTrip

/-!
# Output structs that are used again

The deserialisers fill the struct they are given step by step, some fields only when the
octets have them, and read fields back from it while decoding.  What the struct held before
shows neither in the value returned nor, after a decode that succeeded, in the struct: of a
NAK only the array elements behind the requests keep their values.
-/

namespace EmbeddedCfdp

open CMemory

variable {T : Target} {N : NakCapacity T} {p : Ptr} {xs : List UInt8} {len : Size T}

/-! ### The requests of a NAK -/

/-- Two NAKs with the same scope and count, and the same array elements below the count. -/
structure NakPdu.SameBelowCount (nak nak' : NakPdu N) : Prop where
  startOfScope : nak.startOfScope = nak'.startOfScope
  endOfScope : nak.endOfScope = nak'.endOfScope
  count : nak.segmentRequestCount = nak'.segmentRequestCount
  fits : nak.segmentRequestCount.toNat ≤ N.max
  requests : ∀ k, k < nak.segmentRequestCount.toNat →
    nak.segmentRequests[k]? = nak'.segmentRequests[k]?

theorem NakPdu.getElem?_requests (nak : NakPdu N) {k : Nat}
    (hk : k < nak.segmentRequestCount.toNat) : nak.requests[k]? = nak.segmentRequests[k]? := by
  rw [NakPdu.requests, List.getElem?_take_of_lt hk, Vector.getElem?_toList]

/-- The decoded requests fill the array from its start. -/
theorem NakFields.view_sameBelowCount {f : NakFields} (h : f.requests.length ≤ N.max)
    (old old' : NakPdu N) : (f.view old).SameBelowCount (f.view old') := by
  obtain ⟨hcount, hrequests⟩ := NakFields.requests_view old h
  obtain ⟨hcount', hrequests'⟩ := NakFields.requests_view old' h
  refine ⟨rfl, rfl, rfl, by rwa [hcount], ?_⟩
  intro k hk
  have hk' : k < (f.view old').segmentRequestCount.toNat := by rwa [hcount', ← hcount]
  rw [← NakPdu.getElem?_requests _ hk, ← NakPdu.getElem?_requests _ hk', hrequests, hrequests']

theorem nakDeserialize_forgets (h : p.Holds xs) (hlen : xs.length = len.toNat)
    (largeFileFlag : LargeFileFlag) :
    Forgets (nakDeserialize (some p) len largeFileFlag) (NakPdu.SameBelowCount (N := N)) := by
  apply Forgets.of_decodes
  · intro old
    exact nakDeserialize_decodes h hlen largeFileFlag old
  · intro f hdec old old'
    obtain ⟨_, k, hmany, _, rfl⟩ := nakDecode_eq_some.mp hdec
    apply NakFields.view_sameBelowCount
    rwa [length_nakFields]

/-! ### Every deserialiser -/

theorem deserialisers_forget {buf : Option Ptr} (hr : Readable buf len.toNat)
    (largeFileFlag : LargeFileFlag) (segmentMetadataFlag : SegMetadataFlag) :
    Forgets (pduHeaderDeserialize buf len) Eq ∧
    Forgets (fileDataDeserialize buf len largeFileFlag segmentMetadataFlag) Eq ∧
    Forgets (eofDeserialize buf len largeFileFlag) Eq ∧
    Forgets (finishedDeserialize buf len) Eq ∧
    Forgets (ackDeserialize buf len) Eq ∧
    Forgets (metadataDeserialize buf len largeFileFlag) Eq ∧
    Forgets (nakDeserialize buf len largeFileFlag) (NakPdu.SameBelowCount (N := N)) ∧
    Forgets (tlvDeserialize buf len) Eq ∧
    Forgets (filestoreRequestTlvDeserialize buf len) Eq ∧
    Forgets (filestoreResponseTlvDeserialize buf len) Eq := by
  refine ⟨?header, ?fileData, ?eof, ?finished, ?ack, ?metadata, ?nak, ?tlv, ?request, ?response⟩
  case header =>
    apply Forgets.of_buffer hr (fun old => rfl)
    intro p xs h hlen
    exact Forgets.of_view fun old =>
      pduHeaderDeserialize_decodes h (Nat.le_of_eq hlen) (by omega) old
  case fileData =>
    apply Forgets.of_buffer hr (fun old => rfl)
    intro p xs h hlen
    exact Forgets.of_view fun old => fileDataDeserialize_decodes h hlen old
  case eof =>
    apply Forgets.of_buffer hr (fun old => rfl)
    intro p xs h hlen
    exact Forgets.of_view fun old => eofDeserialize_decodes h hlen largeFileFlag old
  case finished =>
    apply Forgets.of_buffer hr (fun old => rfl)
    intro p xs h hlen
    exact Forgets.of_view fun old => finishedDeserialize_decodes h hlen old
  case ack =>
    apply Forgets.of_buffer hr (fun old => rfl)
    intro p xs h hlen
    exact Forgets.of_view fun old => ackDeserialize_decodes h hlen old
  case metadata =>
    apply Forgets.of_buffer hr (fun old => rfl)
    intro p xs h hlen
    exact Forgets.of_view fun old => metadataDeserialize_decodes h hlen largeFileFlag old
  -- a NAK array is written up to the count only; the entries behind it are the old ones
  case nak =>
    apply Forgets.of_buffer hr (fun old => rfl)
    intro p xs h hlen
    exact nakDeserialize_forgets h hlen largeFileFlag
  case tlv =>
    apply Forgets.of_buffer hr (fun old => rfl)
    intro p xs h hlen
    exact Forgets.of_view fun old => tlvDeserialize_decodes h hlen old
  case request =>
    apply Forgets.of_buffer hr (fun old => rfl)
    intro p xs h hlen
    exact Forgets.of_view fun old => filestoreRequestTlvDeserialize_decodes h hlen old
  case response =>
    apply Forgets.of_buffer hr (fun old => rfl)
    intro p xs h hlen
    exact Forgets.of_view fun old => filestoreResponseTlvDeserialize_decodes h hlen old

/-- An EOF PDU without a fault location, decoded over a struct that still has one. -/
theorem deserialisers_forget_sample :
    ∃ eof, eofDeserialize (some ⟨Object.full [0x04, 0, 1, 2, 3, 4, 0, 0, 0, 9], 0⟩)
        (sz 10 : Size .checked32) CFDP_FILE_SIZE_SMALL (some default) = .ok (sz 10, some eof) ∧
      eofDeserialize (some ⟨Object.full [0x04, 0, 1, 2, 3, 4, 0, 0, 0, 9], 0⟩)
        (sz 10 : Size .checked32) CFDP_FILE_SIZE_SMALL
        (some { (default : EofPdu) with faultLocationEntityId := 7, faultLocationLen := 1 }) =
          .ok (sz 10, some eof) := by
  have hr : Readable (some ⟨Object.full [0x04, 0, 1, 2, 3, 4, 0, 0, 0, 9], 0⟩)
      (sz 10 : Size .checked32).toNat := by
    rintro q ⟨⟩
    decide
  obtain ⟨_, _, hforgets, _⟩ := deserialisers_forget (N := ⟨1, by decide⟩) hr
    CFDP_FILE_SIZE_SMALL CFDP_SEG_METADATA_ABSENT
  obtain ⟨n, out, out', hrun, hrun', hsame⟩ := hforgets default
    { (default : EofPdu) with faultLocationEntityId := 7, faultLocationLen := 1 }
  have hn : n = sz 10 := by
    have hdecoded : eofDeserialize (some ⟨Object.full [0x04, 0, 1, 2, 3, 4, 0, 0, 0, 9], 0⟩)
        (sz 10 : Size .checked32) CFDP_FILE_SIZE_SMALL (some default) = .ok (sz 10, _) := rfl
    rw [hrun, Except.ok.injEq, Prod.mk.injEq] at hdecoded
    exact hdecoded.1
  subst hn
  obtain ⟨eof, _, rfl, rfl, rfl⟩ := hsame (by decide)
  exact ⟨eof, hrun, hrun'⟩

end EmbeddedCfdp
