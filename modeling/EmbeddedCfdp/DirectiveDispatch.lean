import EmbeddedCfdp.FaultLocation
import EmbeddedCfdp.Serialisers

/-!
# Dispatching on the directive code

A receiver peeks at the directive code of a data field and calls the deserialiser that it
names.  No other deserialiser would have accepted the data field, and every serialiser
writes the code of its directive, so the peek decides nothing that the rest of the data
field could contradict.
-/

namespace EmbeddedCfdp

open CMemory

variable {T : Target}

/-! ### Data fields -/

/-- The File Directives of table 5-4. -/
inductive Directive where
  | eof
  | finished
  | ack
  | metadata
  | nak
  | prompt
  | keepAlive
deriving DecidableEq, Repr

def Directive.code : Directive → DirectiveCode
  | .eof => CFDP_DIRECTIVE_EOF
  | .finished => CFDP_DIRECTIVE_FINISHED
  | .ack => CFDP_DIRECTIVE_ACK
  | .metadata => CFDP_DIRECTIVE_METADATA
  | .nak => CFDP_DIRECTIVE_NAK
  | .prompt => CFDP_DIRECTIVE_PROMPT
  | .keepAlive => CFDP_DIRECTIVE_KEEP_ALIVE

/-- The directive with a given code. -/
def Directive.ofCode (code : DirectiveCode) : Option Directive :=
  [eof, finished, ack, metadata, nak, prompt, keepAlive].find? fun d => d.code = code

/-- The contents of a PDU data field. -/
inductive DataField (N : NakCapacity T) where
  | fileData (fd : FileDataPdu T)
  | eof (pdu : EofPdu)
  | finished (fin : FinishedPdu)
  | ack (pdu : AckPdu)
  | metadata (md : MetadataPdu)
  | nak (pdu : NakPdu N)
  | prompt (response : PromptResponse)
  | keepAlive (progress : UInt64)

variable {N : NakCapacity T}

/-- The directive of a data field, if it is not file data. -/
def DataField.directive : DataField N → Option Directive
  | .fileData _ => none
  | .eof _ => some .eof
  | .finished _ => some .finished
  | .ack _ => some .ack
  | .metadata _ => some .metadata
  | .nak _ => some .nak
  | .prompt _ => some .prompt
  | .keepAlive _ => some .keepAlive

/-- The serialiser for a data field, under the flags of the header that it goes with. -/
def DataField.serialiser (hdr : PduHeader) : DataField N → Serialiser N
  | .fileData fd => .fileData (some fd) hdr.largeFileFlag hdr.segmentMetadataFlag
  | .eof pdu => .eof (some pdu) hdr.largeFileFlag
  | .finished fin => .finished (some fin)
  | .ack pdu => .ack (some pdu)
  | .metadata md => .metadata (some md) hdr.largeFileFlag
  | .nak pdu => .nak (some pdu) hdr.largeFileFlag
  | .prompt response => .prompt response
  | .keepAlive progress => .keepAlive progress hdr.largeFileFlag

/-- The deserialiser for a directive, filling in an object of the receiver's. -/
def Directive.deserialize (N : NakCapacity T) (buf : Option Ptr) (bufLen : Size T)
    (largeFileFlag : LargeFileFlag) :
    Directive → Except Fault (Size T × Option (DataField N))
  | .eof => (eofDeserialize buf bufLen largeFileFlag (some default)).map fun out =>
      (out.1, out.2.map .eof)
  | .finished => (finishedDeserialize buf bufLen (some default)).map fun out =>
      (out.1, out.2.map .finished)
  | .ack => (ackDeserialize buf bufLen (some default)).map fun out => (out.1, out.2.map .ack)
  | .metadata => (metadataDeserialize buf bufLen largeFileFlag (some default)).map fun out =>
      (out.1, out.2.map .metadata)
  | .nak => (nakDeserialize buf bufLen largeFileFlag (some default)).map fun out =>
      (out.1, out.2.map .nak)
  | .prompt => (promptDeserialize buf bufLen (some default)).map fun out =>
      (out.1, out.2.map .prompt)
  | .keepAlive => (keepAliveDeserialize buf bufLen largeFileFlag (some default)).map fun out =>
      (out.1, out.2.map .keepAlive)

/-- What the deserialiser makes of the octets `xs` at `p`. -/
def Directive.decode (N : NakCapacity T) (p : Ptr) (xs : List UInt8)
    (largeFileFlag : LargeFileFlag) : Directive → Option (Nat × DataField N)
  | .eof => (eofDecode xs largeFileFlag).map fun r => (r.1, .eof r.2)
  | .finished => (finishedDecode xs).map fun s => (xs.length, .finished (s.view p (xs.getD 1 0)))
  | .ack => (ackDecode xs).map fun pdu => (3, .ack pdu)
  | .metadata => (metadataDecode xs largeFileFlag).map fun f =>
      (xs.length, .metadata (f.view p xs largeFileFlag))
  | .nak => (nakDecode xs largeFileFlag N.max).map fun f => (xs.length, .nak (f.view default))
  | .prompt => (promptDecode xs).map fun r => (2, .prompt r)
  | .keepAlive => (keepAliveDecode xs largeFileFlag).map fun r =>
      ((fileSizeOctets largeFileFlag).toNat + 1, .keepAlive r)

/-! ### One deserialiser for each code -/

theorem Directive.ofCode_eq_some {code : DirectiveCode} {d : Directive} :
    Directive.ofCode code = some d ↔ code = d.code := by
  constructor
  · intro h
    have hfound := List.find?_some (p := fun d : Directive => decide (d.code = code)) h
    exact (of_decide_eq_true hfound).symm
  · rintro rfl
    cases d <;> rfl

theorem Directive.code_injective {d d' : Directive} (h : d.code = d'.code) : d = d' := by
  have hself := Directive.ofCode_eq_some.mpr (rfl : d.code = d.code)
  rw [h, Directive.ofCode_eq_some.mpr rfl, Option.some.injEq] at hself
  exact hself.symm

/-- A code survives its octet. -/
theorem Directive.toUInt32_code (d : Directive) : d.code.toUInt8.toUInt32 = d.code := by
  cases d <;> rfl

section Decode

variable {p : Ptr} {xs : List UInt8} {len : Size T} {largeFileFlag : LargeFileFlag}

theorem Directive.deserialize_decodes (h : p.Holds xs) (hlen : xs.length = len.toNat)
    (d : Directive) :
    Decodes (d.deserialize N (some p) len largeFileFlag)
      ((d.decode N p xs largeFileFlag).map fun r => (r.1, some r.2)) := by
  cases d with
  | eof => exact (eofDeserialize_decodes h hlen largeFileFlag default).wrap DataField.eof
  | finished => exact (finishedDeserialize_decodes h hlen default).wrap DataField.finished
  | ack => exact (ackDeserialize_decodes h hlen default).wrap DataField.ack
  | metadata =>
    exact (metadataDeserialize_decodes h hlen largeFileFlag default).wrap DataField.metadata
  | nak => exact (nakDeserialize_decodes h hlen largeFileFlag default).wrap DataField.nak
  | prompt => exact (promptDeserialize_decodes h hlen default).wrap DataField.prompt
  | keepAlive =>
    exact (keepAliveDeserialize_decodes h hlen largeFileFlag default).wrap DataField.keepAlive

/-- What is accepted as a directive starts with its code, and is consumed in part. -/
theorem Directive.decode_spec {d : Directive} {r : Nat × DataField N}
    (h : d.decode N p xs largeFileFlag = some r) :
    xs.getD 0 0 = d.code.toUInt8 ∧ 0 < r.1 ∧ r.1 ≤ xs.length ∧ r.2.directive = some d := by
  -- each decoder checks its own code first, together with the room for its fixed part
  cases d with
  | eof =>
    obtain ⟨⟨n, eof⟩, hdec, rfl⟩ := Option.map_eq_some_iff.mp h
    obtain ⟨⟨_, hcode⟩, _⟩ := Option.ite_none_right_eq_some.mp hdec
    obtain ⟨hle, hn, _⟩ := eofDecode_spec hdec
    exact ⟨hcode, by dsimp only at hn ⊢; omega, hle, rfl⟩
  | finished =>
    obtain ⟨s, hdec, rfl⟩ := Option.map_eq_some_iff.mp h
    obtain ⟨⟨htwo, hcode⟩, _⟩ := Option.ite_none_right_eq_some.mp hdec
    exact ⟨hcode, by dsimp only; omega, Nat.le_refl _, rfl⟩
  | ack =>
    obtain ⟨pdu, hdec, rfl⟩ := Option.map_eq_some_iff.mp h
    obtain ⟨⟨hthree, hcode, _⟩, _⟩ := Option.ite_none_right_eq_some.mp hdec
    exact ⟨hcode, Nat.succ_pos 2, hthree, rfl⟩
  | metadata =>
    obtain ⟨f, hdec, rfl⟩ := Option.map_eq_some_iff.mp h
    obtain ⟨⟨hroom, hcode⟩, _⟩ := Option.ite_none_right_eq_some.mp hdec
    exact ⟨hcode, by dsimp only; omega, Nat.le_refl _, rfl⟩
  | nak =>
    obtain ⟨f, hdec, rfl⟩ := Option.map_eq_some_iff.mp h
    obtain ⟨⟨hroom, hcode, _⟩, _⟩ := Option.ite_none_right_eq_some.mp hdec
    exact ⟨hcode, by dsimp only; omega, Nat.le_refl _, rfl⟩
  | prompt =>
    obtain ⟨r, hdec, rfl⟩ := Option.map_eq_some_iff.mp h
    obtain ⟨⟨htwo, hcode⟩, _⟩ := Option.ite_none_right_eq_some.mp hdec
    exact ⟨hcode, Nat.succ_pos 1, htwo, rfl⟩
  | keepAlive =>
    obtain ⟨r, hdec, rfl⟩ := Option.map_eq_some_iff.mp h
    obtain ⟨⟨hroom, hcode⟩, _⟩ := Option.ite_none_right_eq_some.mp hdec
    exact ⟨hcode, by dsimp only; omega, hroom, rfl⟩

/-- The peek reads the first octet, if there is one. -/
theorem pduDirectiveCode_eq (h : p.Holds xs) (hlen : xs.length = len.toNat)
    (code : DirectiveCode) :
    pduDirectiveCode (some p) len (some code) =
      .ok (if xs = [] then (false, some code) else (true, some (xs.getD 0 0).toUInt32)) := by
  have hzero : len = sz 0 ↔ xs = [] := by
    rw [eq_sz_iff (size_lt T (by decide)), ← hlen, List.length_eq_zero_iff]
  unfold pduDirectiveCode
  dsimp only
  by_cases hnil : xs = []
  · rw [if_pos (hzero.mpr hnil), if_pos hnil]
    rfl
  · rw [if_neg (mt hzero.mp hnil), if_neg hnil,
      h.load_getD (List.length_pos_of_ne_nil hnil), ok_bind]
    rfl

end Decode

/-! ### Serialisers write the code of their directive -/

/-- The fault location goes behind what is there. -/
theorem getD_withFaultLocation {required : Prop} [Decidable required] {entityId : UInt64}
    {idLen : UInt8} {w e : List UInt8} (h : withFaultLocation required entityId idLen w = some e)
    {j : Nat} (hj : j < w.length) : e.getD j 0 = w.getD j 0 := by
  unfold withFaultLocation at h
  by_cases hreq : required
  · rw [if_pos hreq] at h
    obtain ⟨id, _, rfl⟩ := Option.map_eq_some_iff.mp h
    rw [List.getD_eq_getElem?_getD, List.getElem?_append_left hj, List.getD_eq_getElem?_getD]
  · rw [if_neg hreq, Option.some.injEq] at h
    rw [h]

theorem head_of_encoding {hdr : PduHeader} {x : DataField N} {d : Directive} {e : List UInt8}
    (hd : x.directive = some d) (he : (x.serialiser hdr).encoding = some e) :
    e.getD 0 0 = d.code.toUInt8 := by
  -- each encoding starts with the constant of its directive
  cases x with
  | fileData fd => cases hd
  | eof pdu =>
    cases hd
    exact getD_withFaultLocation he (Nat.succ_pos _)
  | finished fin =>
    cases hd
    obtain ⟨_, he⟩ := Option.ite_none_left_eq_some.mp he
    exact getD_withFaultLocation he (Nat.succ_pos _)
  | ack pdu =>
    cases hd
    obtain ⟨_, he⟩ := Option.ite_none_right_eq_some.mp he
    rw [← Option.some.inj he]
    rfl
  | metadata md =>
    cases hd
    obtain ⟨_, he⟩ := Option.ite_none_left_eq_some.mp he
    obtain ⟨source, destination, _, _, rfl⟩ := withNames_eq_some he
    rfl
  | nak pdu =>
    cases hd
    obtain ⟨_, he⟩ := Option.ite_none_left_eq_some.mp he
    rw [← Option.some.inj he]
    rfl
  | prompt response =>
    cases hd
    rw [← Option.some.inj he]
    rfl
  | keepAlive progress =>
    cases hd
    rw [← Option.some.inj he]
    rfl

/-- **Main result.** A data field that the deserialiser of a directive accepts is one that
    the peek dispatches to that deserialiser, and that every other deserialiser refuses.
    What the serialiser of a directive has written is dispatched back to that directive. -/
theorem directive_dispatch (h32 : 32 ≤ T.sizeBits) :
    (∀ (p : Ptr) (xs : List UInt8) (len : Size T), p.Holds xs → xs.length = len.toNat →
      ∀ (largeFileFlag : LargeFileFlag) (d : Directive) (n : Size T) (out : Option (DataField N)),
        d.deserialize N (some p) len largeFileFlag = .ok (n, out) → n ≠ sz 0 →
        n.toNat ≤ len.toNat ∧ (∃ x, out = some x ∧ x.directive = some d) ∧
          (∀ old, ∃ code, pduDirectiveCode (some p) len (some old) = .ok (true, some code) ∧
            Directive.ofCode code = some d) ∧
          ∀ d', d' ≠ d → ∃ out', d'.deserialize N (some p) len largeFileFlag =
            .ok (sz 0, out')) ∧
    (∀ (hdr : PduHeader) (x : DataField N) (d : Directive) (i : Nat) (len n : Size T)
      (m m' : Object), x.directive = some d → (x.serialiser hdr).Sourced →
      i + len.toNat ≤ m.extent → (x.serialiser hdr).run (some i) len m = .ok (n, m') →
      n ≠ sz 0 → ∀ old, ∃ code,
        pduDirectiveCode (some ⟨m', i⟩) n (some old) = .ok (true, some code) ∧
          Directive.ofCode code = some d) := by
  constructor
  · intro p xs len h hlen largeFileFlag d n out hrun hn
    obtain ⟨r, hdec, rfl, rfl⟩ := (d.deserialize_decodes h hlen).of_run hrun hn
    obtain ⟨hcode, hpos, hle, hdirective⟩ := Directive.decode_spec hdec
    have hsize : (sz r.1 : Size T).toNat = r.1 := by
      have hlt := len.isLt
      exact toNat_sz (by omega)
    have hnonempty : xs ≠ [] := List.ne_nil_of_length_pos (by omega)
    refine ⟨by rw [hsize, ← hlen]; exact hle, ⟨r.2, rfl, hdirective⟩, ?_, ?_⟩
    · intro old
      refine ⟨d.code, ?_, Directive.ofCode_eq_some.mpr rfl⟩
      rw [pduDirectiveCode_eq h hlen, if_neg hnonempty, hcode, d.toUInt32_code]
    -- another decoder that accepted would have found its own code in the same octet
    · intro d' hne
      apply (d'.deserialize_decodes h hlen).refuses
      cases hdec' : d'.decode N p xs largeFileFlag with
      | none => rfl
      | some r' =>
        obtain ⟨hcode', _⟩ := Directive.decode_spec hdec'
        have hsame : d'.code = d.code := by
          rw [← d'.toUInt32_code, ← hcode', hcode, d.toUInt32_code]
        exact (hne (Directive.code_injective hsame)).elim
  · intro hdr x d i len n m m' hd hsourced hext hrun hn old
    obtain ⟨e, he, hle, rfl, rfl⟩ :=
      ((x.serialiser hdr).encodes h32 hsourced).of_run hext hrun hn
    have hsize : (sz e.length : Size T).toNat = e.length :=
      toNat_sz (Nat.lt_of_le_of_lt hle len.isLt)
    have hnonempty : e ≠ [] := ((x.serialiser hdr).encodes h32 hsourced).ne_nil he
    have hholds : (Ptr.mk (m.place i e) i).Holds e := Object.place_holds (by omega)
    refine ⟨d.code, ?_, Directive.ofCode_eq_some.mpr rfl⟩
    rw [pduDirectiveCode_eq hholds hsize.symm, if_neg hnonempty, head_of_encoding hd he,
      d.toUInt32_code]

/-- The two octets of a Prompt for a Keep Alive. -/
theorem directive_dispatch_sample :
    (∀ d' : Directive, d' ≠ .prompt → ∃ out', d'.deserialize defaultNakCapacity
        (some ⟨Object.full [0x09, 0x80], 0⟩) (sz 2) CFDP_FILE_SIZE_SMALL = .ok (sz 0, out')) ∧
      ∃ code, pduDirectiveCode (some ⟨(Object.full [0, 0]).place 0 [0x09, 0x80], 0⟩)
          (sz 2 : Size .checked32) (some 0) = .ok (true, some code) ∧
        Directive.ofCode code = some .prompt := by
  have hread : Directive.prompt.deserialize defaultNakCapacity
      (some ⟨Object.full [0x09, 0x80], 0⟩) (sz 2) CFDP_FILE_SIZE_SMALL =
        .ok (sz 2, some (.prompt 1)) := rfl
  have hwritten : (DataField.serialiser (default : PduHeader)
      (.prompt 1 : DataField defaultNakCapacity)).run (some 0) (sz 2)
        (Object.full [0, 0]) = .ok (sz 2, (Object.full [0, 0]).place 0 [0x09, 0x80]) := rfl
  obtain ⟨hfirst, hsecond⟩ := @directive_dispatch .checked32 defaultNakCapacity (Nat.le_refl 32)
  refine ⟨?_, hsecond default (.prompt 1) .prompt 0 _ _ _ _ rfl trivial (by decide) hwritten
    (by decide) 0⟩
  exact (hfirst _ _ _ (Object.holds_whole [0x09, 0x80]) rfl _ .prompt _ _ hread (by decide)).2.2.2

end EmbeddedCfdp
