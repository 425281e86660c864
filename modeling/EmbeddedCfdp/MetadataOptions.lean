import EmbeddedCfdp.PduExchange
import EmbeddedCfdp.TlvChain

/-!
# The options of a Metadata PDU

A Metadata PDU carries its options as a chain of TLVs, each built by the codec of its type
behind the ones before it: filestore requests, fault handler overrides, and messages to user
and flow labels, whose values are opaque.  What the receiver finds in the chain is what the
sender put there, from the structures on one side to the structures on the other.
-/

namespace EmbeddedCfdp

open CMemory

variable {T : Target} {N : NakCapacity T}

/-! ### Building and walking the options -/

/-- An option, under the codec that carries it. -/
inductive MetadataOption where
  | filestoreRequest (req : FilestoreRequest)
  | faultHandlerOverride (conditionCode : ConditionCode) (handlerCode : FaultHandlerCode)
  | tlv (object : Tlv)

def MetadataOption.serialize (o : MetadataOption) (buf : Option Nat) (bufLen : Size T) :
    Writer (Size T) :=
  match o with
  | .filestoreRequest req => filestoreRequestTlvSerialize (some req) buf bufLen
  | .faultHandlerOverride conditionCode handlerCode =>
      faultHandlerTlvSerialize conditionCode handlerCode buf bufLen
  | .tlv object => tlvSerialize (some object) buf bufLen

/-- The sender's loop: each option behind what has been written so far.  An option that is
    refused adds nothing to the length, so the next one takes its place. -/
def metadataOptionsSerialize (options : Nat) (optionsCap : Size T) :
    List MetadataOption → (optionsLen : Size T) → Writer (Size T)
  | [], optionsLen => return optionsLen
  | o :: rest, optionsLen => do
      let n ← o.serialize (some (options + optionsLen.toNat)) (← Size.subW optionsCap optionsLen)
      metadataOptionsSerialize options optionsCap rest (optionsLen + n)

/-- The receiver's step: the type selects the codec. -/
def MetadataOption.deserialize (buf : Ptr) (bufLen : Size T) :
    Except Fault (Size T × Option MetadataOption) := do
  let (n, object) ← tlvDeserialize (some buf) bufLen (some default)
  if n = sz 0 then return (sz 0, none)
  let type := (object.getD default).type
  if type = CFDP_TLV_FILESTORE_REQUEST.toUInt8 then
    let (n, req) ← filestoreRequestTlvDeserialize (some buf) bufLen (some default)
    return (n, req.map .filestoreRequest)
  else if type = CFDP_TLV_FAULT_HANDLER_OVERRIDE.toUInt8 then
    let (n, conditionCode, handlerCode) ←
      faultHandlerTlvDeserialize (some buf) bufLen (some default) (some default)
    return (n, some (.faultHandlerOverride (conditionCode.getD default) (handlerCode.getD default)))
  else return (n, object.map .tlv)

/-- The receiver's loop. -/
def metadataOptionsWalk (options : Option Ptr) (optionsLen : Size T) :
    (fuel : Nat) → (pos : Size T) → Except Fault (Option (Size T) × List MetadataOption) :=
  walkSpan MetadataOption.deserialize options optionsLen

/-! ### A single option -/

/-- The TLV that stands for an option. -/
def MetadataOption.item (o : MetadataOption) : Option TlvItem :=
  match o with
  | .filestoreRequest req => (filestoreRequestOf req).map FilestoreItem.tlv
  | .faultHandlerOverride conditionCode handlerCode =>
      (faultHandlerOf conditionCode handlerCode).map FaultHandlerOverride.tlv
  | .tlv object => tlvOf object

/-- The sender's side: what an option points to may be read, and a TLV that has a codec of
    its own goes through that codec. -/
def MetadataOption.Sourced (o : MetadataOption) : Prop :=
  match o with
  | .filestoreRequest req => req.Sourced
  | .faultHandlerOverride _ _ => True
  | .tlv object => Readable object.value object.length.toNat ∧
      object.type ≠ CFDP_TLV_FILESTORE_REQUEST.toUInt8 ∧
      object.type ≠ CFDP_TLV_FAULT_HANDLER_OVERRIDE.toUInt8

/-- What the receiver finds for an option. -/
inductive MetadataOption.ReceivedAs : MetadataOption → MetadataOption → Prop where
  | filestoreRequest {req req' : FilestoreRequest} : req.ReceivedAs req' →
      ReceivedAs (.filestoreRequest req) (.filestoreRequest req')
  | faultHandlerOverride (conditionCode : ConditionCode) (handlerCode : FaultHandlerCode) :
      ReceivedAs (.faultHandlerOverride conditionCode handlerCode)
        (.faultHandlerOverride conditionCode handlerCode)
  | tlv {object object' : Tlv} : object.Same object' → ReceivedAs (.tlv object) (.tlv object')

section Option

variable {o : MetadataOption} {t : TlvItem} {p : Ptr} {len : Size T} {rest : List UInt8}

theorem MetadataOption.serialize_encodes (h : o.Sourced) :
    Encodes (fun i n => o.serialize (T := T) (some i) n) (o.item.map TlvItem.encode) := by
  cases o with
  | filestoreRequest req =>
    have hencodes := filestoreRequestTlvSerialize_encodes (T := T) h
    rw [item, Option.map_map]
    exact hencodes
  | faultHandlerOverride conditionCode handlerCode =>
    have hencodes := faultHandlerTlvSerialize_encodes (T := T) conditionCode handlerCode
    rw [item, Option.map_map]
    exact hencodes
  | tlv object => exact tlvSerialize_encodes h.1

/-- A packed override is unpacked to the codes it was built from. -/
theorem faultHandlerOf_view {conditionCode : ConditionCode} {handlerCode : FaultHandlerCode}
    {x : FaultHandlerOverride} (h : faultHandlerOf conditionCode handlerCode = some x) :
    x.view = (some conditionCode, some handlerCode) := by
  obtain ⟨⟨hcondition, hhandler⟩, hx⟩ := Option.dite_none_right_eq_some.mp h
  have hoctet := congrArg FaultHandlerOverride.octet (Option.some.inj hx)
  simp only [faultConditionValid, Bool.and_eq_true, decide_eq_true_eq] at hcondition
  simp only [faultHandlerValid, Bool.and_eq_true, decide_eq_true_eq] at hhandler
  have hmask : (0xF : UInt8).toUInt32 = 0xF := rfl
  rw [FaultHandlerOverride.view, ← hoctet, BitFields.high_nibble, BitFields.low_nibble,
    BitFields.toUInt32_toUInt8_and, BitFields.toUInt32_toUInt8_and, hmask,
    le_fifteen_and (UInt32.le_trans hcondition.2 (by decide)),
    le_fifteen_and (UInt32.le_trans hhandler.2 (by decide))]

/-- The receiver's step finds a request under its type. -/
theorem MetadataOption.deserialize_request (item : FilestoreItem false)
    (hp : p.Holds (item.tlv.encode ++ rest))
    (hlen : (item.tlv.encode ++ rest).length = len.toNat) :
    MetadataOption.deserialize p len =
      .ok (sz item.tlv.encode.length, some (.filestoreRequest (item.fields.request p))) := by
  have hdec : TlvItem.decode (item.tlv.encode ++ rest) = some (item.tlv, rest) :=
    TlvItem.decode_eq_some.mpr rfl
  have hrequest : (filestoreCodec false).dec (item.tlv.encode ++ rest) = some (item, rest) :=
    (filestoreCodec false).dec_enc item rest
  have htype : (item.tlv.view p).type = CFDP_TLV_FILESTORE_REQUEST.toUInt8 := rfl
  have hplain := (tlvDeserialize_decodes hp hlen default).accepts (by rw [hdec, Option.map_some])
  have hrun := (filestoreRequestTlvDeserialize_decodes hp hlen default).accepts
    (by rw [hrequest, Option.map_some])
  unfold MetadataOption.deserialize
  rw [hplain, ok_bind]
  dsimp only [Option.getD_some]
  rw [if_neg item.tlv.size_ne_zero, if_pos htype, hrun]
  rfl

/-- An option is found under the codec that it was built by. -/
theorem MetadataOption.received (h : o.Sourced) (ht : o.item = some t)
    (hp : p.Holds (t.encode ++ rest)) (hlen : (t.encode ++ rest).length = len.toNat) :
    ∃ o', MetadataOption.deserialize p len = .ok (sz t.encode.length, some o') ∧
      o.ReceivedAs o' := by
  have hdec : TlvItem.decode (t.encode ++ rest) = some (t, rest) := TlvItem.decode_eq_some.mpr rfl
  have hplain := (tlvDeserialize_decodes hp hlen default).accepts (by rw [hdec, Option.map_some])
  -- the receiver looks at the type octet and then decodes the same octets once more
  cases o with
  | filestoreRequest req =>
    obtain ⟨item, hitem, rfl⟩ := Option.map_eq_some_iff.mp ht
    exact ⟨_, deserialize_request item hp hlen,
      .filestoreRequest (filestoreRequest_receivedAs h hitem hp.left)⟩
  | faultHandlerOverride conditionCode handlerCode =>
    obtain ⟨x, hx, rfl⟩ := Option.map_eq_some_iff.mp ht
    have htype : (x.tlv.view p).type = CFDP_TLV_FAULT_HANDLER_OVERRIDE.toUInt8 := rfl
    have hother : ¬ (x.tlv.view p).type = CFDP_TLV_FILESTORE_REQUEST.toUInt8 := by
      rw [htype]
      decide
    have hoverride : faultHandlerCodec.dec (x.tlv.encode ++ rest) = some (x, rest) :=
      faultHandlerCodec.dec_enc x rest
    have hrun := (faultHandlerTlvDeserialize_decodes hp hlen default default).accepts
      (by rw [hoverride, Option.map_some])
    unfold MetadataOption.deserialize
    rw [hplain, ok_bind]
    dsimp only [Option.getD_some]
    rw [if_neg x.tlv.size_ne_zero, if_neg hother, if_pos htype, hrun, ok_bind,
      faultHandlerOf_view hx]
    exact ⟨_, rfl, .faultHandlerOverride conditionCode handlerCode⟩
  | tlv object =>
    obtain ⟨hread, hrequest, hoverride⟩ := h
    have hstands : object.StandsFor t := ⟨hread, ht⟩
    have htype : object.type = (t.view p).type := hstands.value.1
    rw [htype] at hrequest hoverride
    unfold MetadataOption.deserialize
    rw [hplain, ok_bind]
    dsimp only [Option.getD_some]
    rw [if_neg t.size_ne_zero, if_neg hrequest, if_neg hoverride]
    exact ⟨_, rfl, .tlv (TlvItem.same_view hstands hp.left)⟩

theorem MetadataOption.takesOff (h : o.Sourced) (ht : o.item = some t) :
    TakesOff (T := T) tlvCodec MetadataOption.deserialize t o.ReceivedAs :=
  fun _ _ _ hp hlen => MetadataOption.received h ht hp hlen

end Option

/-! ### Whole lists of options -/

/-- The options that are written into `room` octets: one that has no encoding, or does not
    fit behind those before it, is left out. -/
def MetadataOption.kept (room : Nat) : List MetadataOption → List MetadataOption
  | [] => []
  | o :: rest =>
      match o.item.filter fun t => t.encode.length ≤ room with
      | some t => o :: kept (room - t.encode.length) rest
      | none => kept room rest

/-- The octets of all options. -/
def MetadataOption.chain (options : List MetadataOption) : List UInt8 :=
  options.flatMap fun o => (o.item.map TlvItem.encode).getD []

section Options

variable {o : MetadataOption} {options rest : List MetadataOption} {items : List TlvItem}
  {t : TlvItem} {room : Nat}

theorem MetadataOption.kept_cons (ht : o.item = some t) (hle : t.encode.length ≤ room) :
    kept room (o :: rest) = o :: kept (room - t.encode.length) rest := by
  rw [kept, ht, Option.filter_some, if_pos (decide_eq_true hle)]

theorem MetadataOption.kept_skip (h : ∀ t, o.item = some t → room < t.encode.length) :
    kept room (o :: rest) = kept room rest := by
  have hnone : (o.item.filter fun t => decide (t.encode.length ≤ room)) = none := by
    rw [Option.filter_eq_none_iff]
    intro t ht hle
    exact Nat.not_lt.mpr (of_decide_eq_true hle) (h t ht)
  rw [kept, hnone]

theorem MetadataOption.kept_sublist (room : Nat) (options : List MetadataOption) :
    List.Sublist (kept room options) options := by
  induction options generalizing room with
  | nil => exact List.Sublist.slnil
  | cons o rest ih =>
    rw [kept]
    cases o.item.filter fun t => decide (t.encode.length ≤ room) with
    | none => exact (ih room).cons o
    | some t => exact (ih _).cons_cons o

/-- Options that all have an encoding, and fit together, are all written. -/
theorem MetadataOption.kept_eq_self (h : ∀ o ∈ options, o.item.isSome)
    (hfits : (chain options).length ≤ room) : kept room options = options := by
  induction options generalizing room with
  | nil => rfl
  | cons o rest ih =>
    obtain ⟨t, ht⟩ := Option.isSome_iff_exists.mp (h o List.mem_cons_self)
    rw [chain, List.flatMap_cons, ht, Option.map_some, Option.getD_some, List.length_append]
      at hfits
    have hrest : (chain rest).length ≤ room - t.encode.length := by
      apply Nat.le_sub_of_add_le'
      exact hfits
    rw [kept_cons ht (Nat.le_of_add_right_le hfits),
      ih (fun o' ho' => h o' (List.mem_cons_of_mem o ho')) hrest]

theorem MetadataOption.chain_items
    (hitems : List.Forall₂ (fun o t => MetadataOption.item o = some t) options items) :
    MetadataOption.chain options = tlvCodec.chain items := by
  induction hitems with
  | nil => rfl
  | cons ht _ ih =>
    rw [chain, List.flatMap_cons, ht, PrefixCodec.chain_cons, ← ih]
    rfl

/-- The sender's loop behind `k` octets.  What it writes is the chain of the options that it
    keeps; nothing before that changes. -/
theorem metadataOptionsSerialize_run (h : ∀ o ∈ options, o.Sourced) {i k : Nat} {cap : Size T}
    {m : Object} (hk : k ≤ cap.toNat) (hext : i + cap.toNat ≤ m.extent) :
    ∃ items m', List.Forall₂ (fun o t => o.item = some t)
        (MetadataOption.kept (cap.toNat - k) options) items ∧
      k + (tlvCodec.chain items).length ≤ cap.toNat ∧
      metadataOptionsSerialize i cap options (sz k) m =
        .ok (sz (k + (tlvCodec.chain items).length), m') ∧
      m.SameOutside m' (i + k) (cap.toNat - k) ∧
      (Ptr.mk m' (i + k)).Holds (tlvCodec.chain items) := by
  have hlt := cap.isLt
  -- invariant: the first `k` octets hold the options kept so far and stay as they are
  induction options generalizing k m with
  | nil =>
    refine ⟨[], m, List.Forall₂.nil, hk, rfl, Object.SameOutside.refl _ _ _, ?_⟩
    exact List.nil_prefix
  | cons o rest ih =>
    have hk' : (sz k : Size T).toNat = k := toNat_sz (by omega)
    have hleft : (sz (cap.toNat - k) : Size T).toNat = cap.toNat - k := toNat_sz_sub _ _
    have hsub : Size.subW cap (sz k : Size T) m = .ok (sz (cap.toNat - k), m) := by
      rw [Size.subW, sub_sz_left hk]
      rfl
    have hroom : i + k + (sz (cap.toNat - k) : Size T).toNat ≤ m.extent := by
      rw [hleft]
      omega
    have hrest : ∀ o' ∈ rest, o'.Sourced := fun o' ho' => h o' (List.mem_cons_of_mem o ho')
    have hstep := (MetadataOption.serialize_encodes (T := T) (h o List.mem_cons_self)).outcome
      (i + k) (sz (cap.toNat - k)) m hroom
    rw [hleft] at hstep
    rw [metadataOptionsSerialize, Writer.bind_ok hsub, hk']
    -- an option that fits is written behind the others, one that does not is left out
    rcases hstep with ⟨e, he, hle, hrun⟩ | ⟨hbig, m₁, hrun, hsame⟩
    · obtain ⟨t, ht, rfl⟩ := Option.map_eq_some_iff.mp he
      have hextent : (m.place (i + k) t.encode).extent = m.extent := Object.place_extent
      obtain ⟨items, m', hitems, hfits, hnext, hsame, hholds⟩ :=
        @ih hrest (k + t.encode.length) (m.place (i + k) t.encode) (by omega) (by omega)
      have hwritten : (Ptr.mk (m.place (i + k) t.encode) (i + k)).Holds t.encode :=
        Object.place_holds (by omega)
      have hstill := hsame.holds hwritten (by omega)
      rw [Writer.bind_ok hrun, sz_add, hnext]
      refine ⟨t :: items, m', ?_, ?_, ?_, ?_, ?_⟩
      · rw [MetadataOption.kept_cons ht hle, ← Nat.sub_add_eq]
        exact List.Forall₂.cons ht hitems
      · rw [PrefixCodec.chain_cons, List.length_append, ← Nat.add_assoc]
        exact hfits
      · rw [PrefixCodec.chain_cons, List.length_append, ← Nat.add_assoc]
        rfl
      · exact (Object.sameOutside_place hle).trans (hsame.widen (by omega) (by omega))
      · rw [PrefixCodec.chain_cons]
        apply hstill.append
        change (Ptr.mk m' (i + k + t.encode.length)).Holds _
        rw [Nat.add_assoc]
        exact hholds
    · have hskip : ∀ t, o.item = some t → cap.toNat - k < t.encode.length := by
        intro t ht
        exact hbig t.encode (by rw [ht, Option.map_some])
      obtain ⟨items, m', hitems, hfits, hnext, hsame', hholds⟩ :=
        @ih hrest k m₁ hk (by rw [hsame.extent]; exact hext)
      rw [Writer.bind_ok hrun, sz_add, Nat.add_zero, hnext]
      refine ⟨items, m', ?_, hfits, rfl, hsame.trans hsame', hholds⟩
      rw [MetadataOption.kept_skip hskip]
      exact hitems

/-- The loop over the options of a Metadata PDU, which has no pointer to them if there are
    none. -/
theorem metadataOptionsWalk_received (h : ∀ o ∈ options, o.Sourced)
    (hitems : List.Forall₂ (fun o t => MetadataOption.item o = some t) options items)
    {p : Option Ptr} {len : Size T} (hlen : (tlvCodec.chain items).length = len.toNat)
    (hp : tlvCodec.chain items = [] ∨ ∃ q, p = some q ∧ q.Holds (tlvCodec.chain items)) :
    ∃ found, metadataOptionsWalk p len (len.toNat + 1) (sz 0) = .ok (some len, found) ∧
      List.Forall₂ MetadataOption.ReceivedAs options found := by
  have htakes : List.Forall₂ (fun o t => TakesOff (T := T) tlvCodec MetadataOption.deserialize t
      (MetadataOption.ReceivedAs o)) options items :=
    ((List.forall₂_and_left _ _).mpr ⟨h, hitems⟩).imp fun _ _ ho =>
      MetadataOption.takesOff ho.1 ho.2
  exact walkSpan_chain htakes hp hlen (by omega)

end Options

/-! ### The exchange -/

/-- The PDU with the options that were built at `p`: `md.options_len = (uint16_t)options_len`. -/
def MetadataPdu.withOptions (md : MetadataPdu) (p : Ptr) (optionsLen : Size T) : MetadataPdu :=
  { md with options := some p, optionsLen := UInt16.ofNat optionsLen.toNat }

section Exchange

variable {md : MetadataPdu} {p : Ptr} {xs : List UInt8} {n : Size T}

theorem MetadataPdu.Given.withOptions (h : md.Given) (p : Ptr) (n : Size T) :
    (md.withOptions p n).Given :=
  ⟨h.sourceFilename, h.destinationFilename, fun hnone => (Option.some_ne_none p hnone).elim⟩

theorem MetadataPdu.Sourced.withOptions (h : md.Sourced) (hp : p.Holds xs)
    (hn : n.toNat = xs.length) : (md.withOptions p n).Sourced := by
  refine ⟨h.sourceFilename, h.destinationFilename, hp.readable ?_⟩
  change (UInt16.ofNat n.toNat).toNat ≤ xs.length
  rw [UInt16.toNat_ofNat', hn]
  exact Nat.mod_le _ _

theorem metadataEncoding_length (largeFileFlag : LargeFileFlag) (hmd : md.Sourced)
    (hgiven : md.Given) : ∃ e, metadataEncoding md largeFileFlag = some e ∧
      e.length = metadataSize md largeFileFlag := by
  obtain ⟨f, henc, hsource, hdestination, hoptions⟩ := metadataEncoding_eq largeFileFlag hgiven
  have hsize := BigEndian.length_encode (fileSizeOctets largeFileFlag).toNat md.fileSize.toNat
  have hnull := hgiven.options_given
  rw [toNat_pos_iff_uint16] at hnull
  refine ⟨_, henc, ?_⟩
  rw [f.length_octets _ hsize, hoptions, length_octetsAt hmd.options hnull,
    (lvOf_eq_some hmd.sourceFilename hsource).2.2,
    (lvOf_eq_some hmd.destinationFilename hdestination).2.2, metadataSize_eq]

/-- The options that are received are those that were sent. -/
theorem MetadataPdu.ReceivedAs.holds_options {md' : MetadataPdu} {largeFileFlag : LargeFileFlag}
    (h : (md.withOptions p n).ReceivedAs largeFileFlag md') (hp : p.Holds xs)
    (hn : n.toNat = xs.length) (hshort : xs.length < 65536) :
    md'.optionsLen.toNat = xs.length ∧
      (xs = [] ∨ ∃ q, md'.options = some q ∧ q.Holds xs) := by
  have hlen : md'.optionsLen.toNat = xs.length := by
    rw [h.optionsLen, ← hn]
    change (UInt16.ofNat n.toNat).toNat = n.toNat
    rw [UInt16.toNat_ofNat', Nat.mod_eq_of_lt (by omega)]
  have hoctets : octetsAt md'.options xs.length = xs := by
    have hsame := h.options
    rw [hlen, ← h.optionsLen, hlen] at hsame
    exact hsame.trans hp.octetsAt
  refine ⟨hlen, ?_⟩
  -- a null pointer comes with no options at all
  cases hq : md'.options with
  | none =>
    rw [hq] at hoctets
    exact Or.inl hoctets.symm
  | some q =>
    rw [hq] at hoctets
    refine Or.inr ⟨q, rfl, ?_⟩
    rw [← hoctets]
    exact holds_octetsAt

end Exchange

/-- **Main result.** A list of options is built into an array, the array is given to a Metadata
    PDU, the PDU is sent and received, and its options are walked: what is found is, in order,
    every option that had an encoding and fitted behind the ones before it, with the fields it
    was given. -/
theorem metadata_options (h32 : 32 ≤ T.sizeBits) {hdr : PduHeader} (h : hdr.InRange)
    (htype : hdr.pduType = CFDP_PDU_TYPE_DIRECTIVE) {md : MetadataPdu} (hmd : md.Sourced)
    (hgiven : md.Given) (hchecksum : md.checksumType ≤ 15) {options : List MetadataOption}
    (hoptions : ∀ o ∈ options, o.Sourced) {j : Nat} {optionsCap : Size T} {mo : Object}
    (hoext : j + optionsCap.toNat ≤ mo.extent) {i : Nat} {cap : Size T} {m : Object}
    (hext : i + cap.toNat ≤ m.extent) :
    ∃ optionsLen mo', metadataOptionsSerialize j optionsCap options (sz 0) mo =
        .ok (optionsLen, mo') ∧ mo.SameOutside mo' j optionsCap.toNat ∧
      optionsLen.toNat =
        (MetadataOption.chain (MetadataOption.kept optionsCap.toNat options)).length ∧
      ((MetadataOption.chain options).length ≤ optionsCap.toNat →
        (∀ o ∈ options, o.item.isSome) →
        MetadataOption.kept optionsCap.toNat options = options) ∧
      (let sent := md.withOptions ⟨mo', j⟩ optionsLen
       optionsLen.toNat < 65536 →
       metadataSize sent hdr.largeFileFlag + 2 < 65536 →
       headerLength hdr + metadataSize sent hdr.largeFileFlag + 2 ≤ cap.toNat →
       ∃ total m', sendPdu hdr (.metadata sent : DataField N) i cap m = .ok (total, m') ∧
         m.SameOutside m' i cap.toNat ∧
         ∀ (p : Ptr) (z : List UInt8) (len : Size T),
           p.Holds (octetsAt (some ⟨m', i⟩) total.toNat ++ z) →
           (octetsAt (some ⟨m', i⟩) total.toNat ++ z).length = len.toNat →
           ∃ hdr' md' found, receivePdu N (some p) len = .ok (some (hdr', .metadata md')) ∧
             sent.ReceivedAs hdr.largeFileFlag md' ∧
             metadataOptionsWalk md'.options (sz md'.optionsLen.toNat : Size T)
                 (md'.optionsLen.toNat + 1) (sz 0) =
               .ok (some (sz md'.optionsLen.toNat), found) ∧
             List.Forall₂ MetadataOption.ReceivedAs
               (MetadataOption.kept optionsCap.toNat options) found) := by
  have hlt := optionsCap.isLt
  obtain ⟨items, mo', hitems, hfits, hbuilt, hosame, hchain⟩ :=
    metadataOptionsSerialize_run (k := 0) hoptions (Nat.zero_le _) hoext
  rw [Nat.zero_add] at hfits hbuilt
  rw [Nat.add_zero] at hosame hchain
  rw [Nat.sub_zero] at hitems hosame
  have hn : (sz (tlvCodec.chain items).length : Size T).toNat = (tlvCodec.chain items).length :=
    toNat_sz (by omega)
  refine ⟨_, mo', hbuilt, hosame, by rw [hn, MetadataOption.chain_items hitems],
    fun hroom hall => MetadataOption.kept_eq_self hall hroom, ?_⟩
  -- the array is attached to the PDU, so its length is cut to sixteen bits
  intro sent hshort hsent hcap
  rw [hn] at hshort
  have hsourced : sent.Sourced := hmd.withOptions hchain hn
  have hsgiven : sent.Given := hgiven.withOptions _ _
  obtain ⟨e, he, hlength⟩ := metadataEncoding_length hdr.largeFileFlag hsourced hsgiven
  rw [← hlength] at hsent hcap
  have hsentIn : e = DataField.sentIn hdr (.metadata sent : DataField N)
      (cap.toNat - headerLength hdr) :=
    (sentIn_of_fits (x := DataField.metadata sent) he (by omega)).symm
  obtain ⟨total, m', hrun, hsame, hne, hpdu⟩ :=
    sendPdu_run (x := DataField.metadata sent) (N := N) h32 h hsourced (by omega) hext hsentIn
  obtain ⟨k, hsized, hplen, hholds⟩ := hpdu (hne.mpr fun _ => ⟨hsent, hcap⟩) fun _ => by omega
  have hoctets : octetsAt (some ⟨m', i⟩) total.toNat = pduOctets (hdr.sized k) e := by
    rw [← hplen, hholds.octetsAt]
  refine ⟨total, m', hrun, hsame, fun p z len hp hlen => ?_⟩
  rw [hoctets] at hp hlen
  obtain ⟨x', hreceive, hreceived⟩ := receivePdu_sent (N := N) (x := .metadata sent) h32 h
    ⟨hchecksum, hsgiven⟩ htype hsourced he hsized hp hlen
  cases hreceived with
  | @metadata _ md' hreceived =>
    obtain ⟨holen, hwhere⟩ := hreceived.holds_options hchain hn hshort
    have hkept : ∀ o ∈ MetadataOption.kept optionsCap.toNat options, o.Sourced :=
      fun o ho => hoptions o ((MetadataOption.kept_sublist _ _).subset ho)
    obtain ⟨found, hwalk, hfound⟩ := metadataOptionsWalk_received hkept hitems hn.symm hwhere
    rw [hn] at hwalk
    refine ⟨_, md', found, hreceive, hreceived, ?_, hfound⟩
    rw [holen]
    exact hwalk

/-- A directory to create, a message to the user and a handler for one fault. -/
def sampleOptions : List MetadataOption :=
  [.filestoreRequest ⟨0x5, some ⟨Object.full [0x6C, 0x6F, 0x67, 0x73], 0⟩, 4, none, 0⟩,
    .tlv ⟨0x02, 4, some ⟨Object.full [0x63, 0x66, 0x64, 0x70], 0⟩⟩, .faultHandlerOverride 4 1]

theorem sampleOptions_sourced : ∀ o ∈ sampleOptions, o.Sourced := by
  intro o ho
  simp only [sampleOptions, List.mem_cons, List.not_mem_nil, or_false] at ho
  rcases ho with rfl | rfl | rfl
  · constructor
    · rintro q ⟨⟩
      decide
    · rintro - q ⟨⟩
  · refine ⟨?_, by decide, by decide⟩
    rintro q ⟨⟩
    decide
  · trivial

theorem metadata_options_sample :
    ∃ optionsLen mo', metadataOptionsSerialize 0 (sz 64 : Size .checked32) sampleOptions (sz 0)
        (Object.full (List.replicate 64 0)) = .ok (optionsLen, mo') ∧ optionsLen.toNat = 17 ∧
      let sent := (default : MetadataPdu).withOptions ⟨mo', 0⟩ optionsLen
      ∃ total m', sendPdu sampleDirectiveHeader (.metadata sent : DataField defaultNakCapacity) 0
          (sz 64) (Object.full (List.replicate 64 0)) = .ok (total, m') ∧
        ∀ (p : Ptr) (z : List UInt8) (len : Size .checked32),
          p.Holds (octetsAt (some ⟨m', 0⟩) total.toNat ++ z) →
          (octetsAt (some ⟨m', 0⟩) total.toNat ++ z).length = len.toNat →
          ∃ hdr' md' found, receivePdu defaultNakCapacity (some p) len =
              .ok (some (hdr', .metadata md')) ∧
            metadataOptionsWalk md'.options (sz md'.optionsLen.toNat : Size .checked32)
                (md'.optionsLen.toNat + 1) (sz 0) =
              .ok (some (sz md'.optionsLen.toNat), found) ∧
            List.Forall₂ MetadataOption.ReceivedAs sampleOptions found := by
  have hrange : sampleDirectiveHeader.InRange := by
    constructor <;> decide
  have hsourced : (default : MetadataPdu).Sourced := by
    constructor <;> rintro q ⟨⟩
  have hgiven : (default : MetadataPdu).Given := by
    constructor <;> exact fun _ => rfl
  obtain ⟨optionsLen, mo', hbuilt, _, hlen, hkept, hexchange⟩ := @metadata_options .checked32
    defaultNakCapacity (Nat.le_refl 32) _ hrange rfl _ hsourced hgiven (by decide) _
    sampleOptions_sourced 0 (sz 64) (Object.full (List.replicate 64 0)) (by decide)
    0 (sz 64) (Object.full (List.replicate 64 0)) (by decide)
  have hall : MetadataOption.kept (sz 64 : Size .checked32).toNat sampleOptions = sampleOptions :=
    hkept (by decide) (by decide)
  rw [hall] at hlen hexchange
  have hseventeen : optionsLen.toNat = 17 := hlen
  have hsize : metadataSize ((default : MetadataPdu).withOptions ⟨mo', 0⟩ optionsLen)
      sampleDirectiveHeader.largeFileFlag = 25 := by
    rw [metadataSize, MetadataPdu.withOptions, hseventeen]
    rfl
  obtain ⟨total, m', hsend, _, hreceive⟩ := hexchange (by rw [hseventeen]; decide)
    (by rw [hsize]; decide) (by rw [hsize]; decide)
  refine ⟨optionsLen, mo', hbuilt, hseventeen, total, m', hsend, fun p z len hp hplen => ?_⟩
  obtain ⟨hdr', md', found, hrun, _, hwalk, hfound⟩ := hreceive p z len hp hplen
  exact ⟨hdr', md', found, hrun, hwalk, hfound⟩

end EmbeddedCfdp
