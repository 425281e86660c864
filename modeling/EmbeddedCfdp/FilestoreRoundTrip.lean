import EmbeddedCfdp.TlvDeserialise

/-!
# Filestore responses from sender to receiver

What the receiver reports of a Filestore Response TLV against the response that was
sent: action, status, names and message are the same, as octets.
-/

namespace EmbeddedCfdp

open CMemory

variable {T : Target}

/-- The two fields, each a pointer and a length, stand for the same octets. -/
def SameOctets (field field' : Option Ptr × UInt8) : Prop :=
  field'.2 = field.2 ∧ octetsAt field'.1 field'.2.toNat = octetsAt field.1 field.2.toNat

/-- The decoded response `resp'` says what `resp` says.  The status has four bits on the
    wire, and only some actions carry a second file name. -/
structure FilestoreResponse.ReceivedAs (resp resp' : FilestoreResponse) : Prop where
  actionCode : resp'.actionCode = resp.actionCode
  statusCode : resp'.statusCode = resp.statusCode &&& 0xF ∧
    (resp.statusCode ≤ 15 → resp'.statusCode = resp.statusCode)
  first : SameOctets (resp.firstFilename, resp.firstFilenameLen)
    (resp'.firstFilename, resp'.firstFilenameLen)
  second : NamesSecondFile resp.actionCode →
    SameOctets (resp.secondFilename, resp.secondFilenameLen)
      (resp'.secondFilename, resp'.secondFilenameLen)
  noSecond : ¬ NamesSecondFile resp.actionCode →
    resp'.secondFilename = none ∧ resp'.secondFilenameLen = 0
  message : SameOctets (resp.message, resp.messageLen) (resp'.message, resp'.messageLen)

/-- The decoded request `req'` says what `req` says. -/
structure FilestoreRequest.ReceivedAs (req req' : FilestoreRequest) : Prop where
  actionCode : req'.actionCode = req.actionCode
  first : SameOctets (req.firstFilename, req.firstFilenameLen)
    (req'.firstFilename, req'.firstFilenameLen)
  second : NamesSecondFile req.actionCode →
    SameOctets (req.secondFilename, req.secondFilenameLen)
      (req'.secondFilename, req'.secondFilenameLen)
  noSecond : ¬ NamesSecondFile req.actionCode →
    req'.secondFilename = none ∧ req'.secondFilenameLen = 0

section Fields

variable {p : Ptr}

theorem Lv.sameOctets_field {value : Option Ptr} {valueLen : UInt8} {v : Lv} {k : Nat}
    (hr : Readable value valueLen.toNat) (hv : lvOf value valueLen = some v)
    (h : (p.add k).Holds v.encode) : SameOctets (value, valueLen) (v.field p k) := by
  obtain ⟨_, hoctets, hlength⟩ := lvOf_eq_some hr hv
  have hlen : (v.field p k).2 = valueLen := by
    change UInt8.ofNat v.octets.length = valueLen
    rw [hlength, UInt8.ofNat_toNat]
  have htail := h.tail
  rw [Ptr.add_add] at htail
  have hspan := octetsAt_spanAt htail
  rw [hlength] at hspan
  refine ⟨hlen, ?_⟩
  rw [hlen]
  exact hspan.trans hoctets

/-- What is reported for an LV object stands for it again. -/
theorem Lv.lvOf_field {v : Lv} {k : Nat} (h : (p.add k).Holds v.encode) :
    lvOf (v.field p k).1 (v.field p k).2 = some v ∧
      Readable (v.field p k).1 (v.field p k).2.toNat := by
  have hlen : (v.field p k).2.toNat = v.octets.length := toNat_ofNat_of_le v.short
  have htail := h.tail
  rw [Ptr.add_add] at htail
  have hspan : octetsAt (v.field p k).1 v.octets.length = v.octets := octetsAt_spanAt htail
  -- only an empty field is reported as null
  have hgiven : ¬ ((v.field p k).1.isNone ∧ (v.field p k).2 > 0) := by
    rintro ⟨hnull, hpos⟩
    have hnil : v.octets = [] := spanAt_eq_none.mp (Option.isNone_iff_eq_none.mp hnull)
    rw [toNat_pos_iff, hlen, hnil] at hpos
    exact absurd hpos (by simp)
  constructor
  · rw [lvOf, if_neg hgiven, Option.some.injEq]
    apply Lv.ext
    change octetsAt (v.field p k).1 (v.field p k).2.toNat = v.octets
    rw [hlen, hspan]
  · rw [hlen]
    exact readable_spanAt htail

theorem sameOctets_names {first second : Option Ptr} {firstLen secondLen : UInt8}
    {hasSecond : Bool} {names : Lv × Option Lv} (hfirst : Readable first firstLen.toNat)
    (hsecond : hasSecond = true → Readable second secondLen.toNat)
    (hnames : namesOf first firstLen second secondLen hasSecond = some names)
    (h : p.Holds (namesEncode names)) :
    SameOctets (first, firstLen) (namesView p names).1 ∧
      (hasSecond = true → SameOctets (second, secondLen) (namesView p names).2) ∧
      (hasSecond = false → (namesView p names).2 = (none, 0)) := by
  obtain ⟨v, hv, hnames⟩ := Option.bind_eq_some_iff.mp hnames
  -- the second name is there for the actions that have one
  cases hasSecond with
  | false =>
    rw [if_neg (by simp), Option.some.injEq] at hnames
    subst hnames
    exact ⟨Lv.sameOctets_field hfirst hv h.left, Bool.noConfusion, fun _ => rfl⟩
  | true =>
    rw [if_pos rfl] at hnames
    obtain ⟨v', hv', rfl⟩ := Option.map_eq_some_iff.mp hnames
    exact ⟨Lv.sameOctets_field hfirst hv h.left,
      fun _ => Lv.sameOctets_field (hsecond rfl) hv' h.right, Bool.noConfusion⟩

end Fields

theorem filestoreRequest_receivedAs {req : FilestoreRequest} {item : FilestoreItem false}
    {p : Ptr} (hreq : req.Sourced) (hitem : filestoreRequestOf req = some item)
    (h : p.Holds ((filestoreCodec false).enc item)) :
    req.ReceivedAs (item.fields.request p) := by
  obtain ⟨haction, hitem⟩ := Option.ite_none_right_eq_some.mp hitem
  obtain ⟨names, hnames, hitem⟩ := Option.bind_eq_some_iff.mp hitem
  have hfields := FilestoreItem.ofFields_eq_some.mp hitem
  rw [FilestoreItem.enc_eq, hfields] at h
  have hvalue := h.tail.tail.tail
  rw [Ptr.add_add, Ptr.add_add] at hvalue
  have hsame := sameOctets_names hreq.first hreq.secondFilename hnames hvalue.left
  rw [filestoreActionHasSecondFilename_eq, decide_eq_true_iff, decide_eq_false_iff_not] at hsame
  have hoctet := actionOf_pack haction 0
  rw [UInt8.zero_and, UInt8.or_zero] at hoctet
  rw [hfields]
  refine ⟨hoctet, hsame.1, hsame.2.1, fun hnone => ?_⟩
  have hpair := hsame.2.2 hnone
  exact ⟨congrArg Prod.fst hpair, congrArg Prod.snd hpair⟩

/-- What is decoded from the encoding of a response. -/
theorem filestoreResponse_receivedAs {resp : FilestoreResponse} {item : FilestoreItem true}
    {p : Ptr} (hresp : resp.Sourced) (hitem : filestoreResponseOf resp = some item)
    (h : p.Holds ((filestoreCodec true).enc item)) :
    resp.ReceivedAs (item.fields.response p) := by
  obtain ⟨haction, hitem⟩ := Option.ite_none_right_eq_some.mp hitem
  obtain ⟨names, hnames, hitem⟩ := Option.bind_eq_some_iff.mp hitem
  obtain ⟨message, hmessage, hitem⟩ := Option.bind_eq_some_iff.mp hitem
  have hfields := FilestoreItem.ofFields_eq_some.mp hitem
  rw [FilestoreItem.enc_eq, hfields] at h
  have hvalue := h.tail.tail.tail
  rw [Ptr.add_add, Ptr.add_add] at hvalue
  have hbehind := hvalue.right
  rw [Ptr.add_add] at hbehind
  rw [hfields]
  have hsame := sameOctets_names hresp.first hresp.secondFilename hnames hvalue.left
  rw [filestoreActionHasSecondFilename_eq, decide_eq_true_iff, decide_eq_false_iff_not] at hsame
  have hstatus : ((((resp.actionCode.toUInt8 &&& 0xF) <<< 4) |||
      (resp.statusCode.toUInt8 &&& 0xF)) &&& 0xF : UInt8).toUInt32 = resp.statusCode &&& 0xF := by
    rw [BitFields.low_nibble, BitFields.toUInt32_toUInt8_and]
    rfl
  -- action, status, the two names and the message
  refine ⟨actionOf_pack haction _, ⟨hstatus, fun hle => ?_⟩, hsame.1, hsame.2.1, fun hnone => ?_,
    ?_⟩
  · exact hstatus.trans (le_fifteen_and hle)
  · have hpair := hsame.2.2 hnone
    exact ⟨congrArg Prod.fst hpair, congrArg Prod.snd hpair⟩
  · exact Lv.sameOctets_field hresp.message hmessage hbehind

/-! ### Encodings -/

/-- A call of the serialiser for `resp` has written `enc`. -/
def FilestoreResponse.EncodedAs (T : Target) (resp : FilestoreResponse) (enc : List UInt8) :
    Prop :=
  resp.Sourced ∧ ∃ (i : Nat) (cap n : Size T) (m m' : Object), i + cap.toNat ≤ m.extent ∧
    filestoreResponseTlvSerialize (some resp) (some i) cap m = .ok (n, m') ∧ n ≠ sz 0 ∧
    n.toNat = enc.length ∧ (Ptr.mk m' i).Holds enc

/-- A call of the serialiser for `req` has written `enc`. -/
def FilestoreRequest.EncodedAs (T : Target) (req : FilestoreRequest) (enc : List UInt8) :
    Prop :=
  req.Sourced ∧ ∃ (i : Nat) (cap n : Size T) (m m' : Object), i + cap.toNat ≤ m.extent ∧
    filestoreRequestTlvSerialize (some req) (some i) cap m = .ok (n, m') ∧ n ≠ sz 0 ∧
    n.toNat = enc.length ∧ (Ptr.mk m' i).Holds enc

theorem FilestoreRequest.EncodedAs.item {req : FilestoreRequest} {enc : List UInt8}
    (h : req.EncodedAs T enc) : req.Sourced ∧ ∃ item, filestoreRequestOf req = some item ∧
      enc = (filestoreCodec false).enc item := by
  obtain ⟨hreq, i, cap, n, m, m', hext, hrun, hn, hlength, hholds⟩ := h
  have henc := (filestoreRequestTlvSerialize_encodes hreq).holds_eq hext hrun hn hlength hholds
  obtain ⟨item, hitem, rfl⟩ := Option.map_eq_some_iff.mp henc
  exact ⟨hreq, item, hitem, rfl⟩

theorem FilestoreResponse.EncodedAs.item {resp : FilestoreResponse} {enc : List UInt8}
    (h : resp.EncodedAs T enc) : resp.Sourced ∧ ∃ item, filestoreResponseOf resp = some item ∧
      enc = (filestoreCodec true).enc item := by
  obtain ⟨hresp, i, cap, n, m, m', hext, hrun, hn, hlength, hholds⟩ := h
  have henc := (filestoreResponseTlvSerialize_encodes hresp).holds_eq hext hrun hn hlength hholds
  obtain ⟨item, hitem, rfl⟩ := Option.map_eq_some_iff.mp henc
  exact ⟨hresp, item, hitem, rfl⟩

theorem FilestoreRequest.EncodedAs.of_item {req : FilestoreRequest} {item : FilestoreItem false}
    (hreq : req.Sourced) (h : filestoreRequestOf req = some item) :
    req.EncodedAs T ((filestoreCodec false).enc item) := by
  have hencodes := filestoreRequestTlvSerialize_encodes (T := T) hreq
  have hshort := item.short
  rw [h, Option.map_some] at hencodes
  exact ⟨hreq, hencodes.exists_run (size_lt T (by rw [FilestoreItem.length_enc]; omega))⟩

theorem FilestoreResponse.EncodedAs.of_item {resp : FilestoreResponse}
    {item : FilestoreItem true} (hresp : resp.Sourced)
    (h : filestoreResponseOf resp = some item) :
    resp.EncodedAs T ((filestoreCodec true).enc item) := by
  have hencodes := filestoreResponseTlvSerialize_encodes (T := T) hresp
  have hshort := item.short
  rw [h, Option.map_some] at hencodes
  exact ⟨hresp, hencodes.exists_run (size_lt T (by rw [FilestoreItem.length_enc]; omega))⟩

end EmbeddedCfdp
