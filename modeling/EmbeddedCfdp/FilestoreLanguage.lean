import EmbeddedCfdp.FilestoreRoundTrip
import EmbeddedCfdp.Receiver

/-!
# The language of the filestore TLVs

Which requests and responses are encoded, in how many octets, and that the decoders accept
exactly the encodings.  An accepted TLV is filled by its names and message, octet for octet:
nothing is missing, nothing left over, and nothing reaches behind it.
-/

namespace EmbeddedCfdp

open CMemory

variable {T : Target} {p : Ptr} {xs : List UInt8}

/-! ### Which names are encoded -/

/-- The octets of the file names in a value. -/
def namesSize (firstLen secondLen : UInt8) (hasSecond : Bool) : Nat :=
  (1 + firstLen.toNat) + if hasSecond then 1 + secondLen.toNat else 0

section Names

variable {first second : Option Ptr} {firstLen secondLen : UInt8} {hasSecond : Bool}

theorem namesOf_isSome_iff :
    (∃ names, namesOf first firstLen second secondLen hasSecond = some names) ↔
      (first = none → firstLen = 0) ∧ (hasSecond = true → second = none → secondLen = 0) := by
  rw [← lvOf_isSome, ← lvOf_isSome]
  unfold namesOf
  constructor
  · rintro ⟨names, hnames⟩
    obtain ⟨v, hv, hnames⟩ := Option.bind_eq_some_iff.mp hnames
    refine ⟨⟨v, hv⟩, fun hsecond => ?_⟩
    rw [if_pos hsecond] at hnames
    obtain ⟨v', hv', _⟩ := Option.map_eq_some_iff.mp hnames
    exact ⟨v', hv'⟩
  · rintro ⟨⟨v, hv⟩, hsecond⟩
    -- without a second file name in the action, its pointer and length are not looked at
    cases hasSecond with
    | false => exact ⟨(v, none), by rw [hv, Option.bind_some, if_neg (by simp)]⟩
    | true =>
      obtain ⟨v', hv'⟩ := hsecond rfl
      exact ⟨(v, some v'), by rw [hv, Option.bind_some, if_pos rfl, hv', Option.map_some]⟩

theorem length_namesOf {names : Lv × Option Lv} (hfirst : Readable first firstLen.toNat)
    (hsecond : hasSecond = true → Readable second secondLen.toNat)
    (h : namesOf first firstLen second secondLen hasSecond = some names) :
    (namesEncode names).length = namesSize firstLen secondLen hasSecond := by
  obtain ⟨v, hv, h⟩ := Option.bind_eq_some_iff.mp h
  have hlength := (lvOf_eq_some hfirst hv).2.2
  unfold namesSize
  cases hasSecond with
  | false =>
    rw [if_neg (by simp), Option.some.injEq] at h
    subst h
    rw [if_neg (by simp), namesEncode, List.length_append, Lv.length_encode, hlength,
      Lv.encodeOption, List.length_nil]
    omega
  | true =>
    rw [if_pos rfl] at h
    obtain ⟨v', hv', rfl⟩ := Option.map_eq_some_iff.mp h
    have hlength' := (lvOf_eq_some (hsecond rfl) hv').2.2
    rw [if_pos rfl, namesEncode, List.length_append, Lv.length_encode, hlength, Lv.encodeOption,
      Lv.length_encode, hlength']
    omega

/-- What is reported for file names stands for them again. -/
theorem namesOf_view {names : Lv × Option Lv} (hsome : names.2.isSome = hasSecond)
    (h : p.Holds (namesEncode names)) :
    let view := namesView p names
    namesOf view.1.1 view.1.2 view.2.1 view.2.2 hasSecond = some names ∧
      Readable view.1.1 view.1.2.toNat ∧
      (hasSecond = true → Readable view.2.1 view.2.2.toNat) := by
  obtain ⟨v, v'⟩ := names
  have hfirst : (p.add 0).Holds v.encode := h.left
  obtain ⟨hv, hread⟩ := Lv.lvOf_field hfirst
  unfold namesOf
  dsimp only [namesView]
  rw [hv, Option.bind_some]
  cases v' with
  | none =>
    have hfalse : hasSecond = false := hsome.symm
    rw [hfalse, if_neg (by simp)]
    exact ⟨rfl, hread, Bool.noConfusion⟩
  | some v' =>
    have htrue : hasSecond = true := hsome.symm
    have hsecond : (p.add v.encode.length).Holds v'.encode := h.right
    obtain ⟨hv', hread'⟩ := Lv.lvOf_field hsecond
    dsimp only [Lv.fieldOption]
    rw [htrue, if_pos rfl, hv', Option.map_some]
    exact ⟨rfl, hread, fun _ => hread'⟩

end Names

/-! ### Which requests and responses are encoded -/

/-- The octets of a request's value, however many there are. -/
def FilestoreRequest.valueSize (req : FilestoreRequest) : Nat :=
  1 + namesSize req.firstFilenameLen req.secondFilenameLen
    (decide (NamesSecondFile req.actionCode))

/-- No name that is written is null where its length is not zero. -/
structure FilestoreRequest.Given (req : FilestoreRequest) : Prop where
  first : req.firstFilename = none → req.firstFilenameLen = 0
  second : NamesSecondFile req.actionCode →
    req.secondFilename = none → req.secondFilenameLen = 0

/-- The octets of a response's value, however many there are. -/
def FilestoreResponse.valueSize (resp : FilestoreResponse) : Nat :=
  1 + namesSize resp.firstFilenameLen resp.secondFilenameLen
    (decide (NamesSecondFile resp.actionCode)) + (1 + resp.messageLen.toNat)

/-- No name or message that is written is null where its length is not zero. -/
structure FilestoreResponse.Given (resp : FilestoreResponse) : Prop where
  first : resp.firstFilename = none → resp.firstFilenameLen = 0
  second : NamesSecondFile resp.actionCode →
    resp.secondFilename = none → resp.secondFilenameLen = 0
  message : resp.message = none → resp.messageLen = 0

theorem filestoreActionValid_iff {action : FilestoreAction} :
    filestoreActionValid action = true ↔ action ≤ 8 := decide_eq_true_iff

section Request

variable {req : FilestoreRequest} {item : FilestoreItem false}

theorem filestoreRequestOf_eq_some :
    filestoreRequestOf req = some item ↔ req.actionCode ≤ 8 ∧ ∃ names,
      namesOf req.firstFilename req.firstFilenameLen req.secondFilename req.secondFilenameLen
        (filestoreActionHasSecondFilename req.actionCode) = some names ∧
      item.fields = ⟨(req.actionCode.toUInt8 &&& 0xF) <<< 4, names.1, names.2, none⟩ := by
  rw [← filestoreActionValid_iff, filestoreRequestOf, Option.ite_none_right_eq_some,
    Option.bind_eq_some_iff]
  simp only [FilestoreItem.ofFields_eq_some]

theorem length_filestoreRequestOf (hreq : req.Sourced)
    (h : filestoreRequestOf req = some item) : item.fields.value.length = req.valueSize := by
  obtain ⟨_, names, hnames, hfields⟩ := filestoreRequestOf_eq_some.mp h
  have hlength := length_namesOf hreq.first hreq.secondFilename hnames
  rw [hfields, FilestoreFields.value, FilestoreRequest.valueSize,
    ← filestoreActionHasSecondFilename_eq, List.length_cons,
    List.length_append, hlength, Lv.encodeOption, List.length_nil]
  omega

theorem filestoreRequestOf_isSome (hreq : req.Sourced) :
    (∃ item, filestoreRequestOf req = some item) ↔
      (req.actionCode ≤ 8 ∧ req.Given) ∧ req.valueSize ≤ 255 := by
  constructor
  · rintro ⟨item, h⟩
    have hlength := length_filestoreRequestOf hreq h
    have hshort := item.short
    obtain ⟨haction, names, hnames, _⟩ := filestoreRequestOf_eq_some.mp h
    obtain ⟨hfirst, hsecond⟩ := namesOf_isSome_iff.mp ⟨names, hnames⟩
    exact ⟨⟨haction, hfirst, fun hnamed =>
      hsecond (filestoreActionHasSecondFilename_iff.mpr hnamed)⟩, by omega⟩
  · rintro ⟨⟨haction, hgiven⟩, hfits⟩
    obtain ⟨names, hnames⟩ := namesOf_isSome_iff.mpr
      ⟨hgiven.first, fun hnames => hgiven.second (filestoreActionHasSecondFilename_iff.mp hnames)⟩
    have hvalid := filestoreActionValid_iff.mpr haction
    -- a request has no status: the low half of its action octet is zero
    have hoctet := actionOf_pack hvalid 0
    rw [UInt8.zero_and, UInt8.or_zero] at hoctet
    have hlength := length_namesOf hreq.first hreq.secondFilename hnames
    have hfields : FilestoreFields.Valid
        ⟨(req.actionCode.toUInt8 &&& 0xF) <<< 4, names.1, names.2, none⟩ false := by
      refine ⟨?_, ?_, rfl⟩
      · rw [hoctet, hvalid]
      · rw [hoctet, namesOf_isSome hnames]
    refine ⟨⟨_, hfields, ?_⟩, filestoreRequestOf_eq_some.mpr ⟨haction, names, hnames, rfl⟩⟩
    rw [FilestoreFields.value, List.length_cons, List.length_append, hlength, Lv.encodeOption,
      List.length_nil]
    rw [FilestoreRequest.valueSize, ← filestoreActionHasSecondFilename_eq] at hfits
    omega

end Request

section Response

variable {resp : FilestoreResponse} {item : FilestoreItem true}

theorem filestoreResponseOf_eq_some :
    filestoreResponseOf resp = some item ↔ resp.actionCode ≤ 8 ∧ ∃ names,
      namesOf resp.firstFilename resp.firstFilenameLen resp.secondFilename
        resp.secondFilenameLen (filestoreActionHasSecondFilename resp.actionCode) = some names ∧
      ∃ message, lvOf resp.message resp.messageLen = some message ∧
        item.fields =
          ⟨((resp.actionCode.toUInt8 &&& 0xF) <<< 4) ||| (resp.statusCode.toUInt8 &&& 0xF),
            names.1, names.2, some message⟩ := by
  rw [← filestoreActionValid_iff, filestoreResponseOf, Option.ite_none_right_eq_some,
    Option.bind_eq_some_iff]
  simp only [Option.bind_eq_some_iff, FilestoreItem.ofFields_eq_some]

theorem length_filestoreResponseOf (hresp : resp.Sourced)
    (h : filestoreResponseOf resp = some item) : item.fields.value.length = resp.valueSize := by
  obtain ⟨_, names, hnames, message, hmessage, hfields⟩ := filestoreResponseOf_eq_some.mp h
  have hlength := length_namesOf hresp.first hresp.secondFilename hnames
  have hmessageLength := (lvOf_eq_some hresp.message hmessage).2.2
  rw [hfields, FilestoreFields.value, FilestoreResponse.valueSize,
    ← filestoreActionHasSecondFilename_eq, List.length_cons,
    List.length_append, hlength, Lv.encodeOption, Lv.length_encode, hmessageLength]
  omega

theorem filestoreResponseOf_isSome (hresp : resp.Sourced) :
    (∃ item, filestoreResponseOf resp = some item) ↔
      (resp.actionCode ≤ 8 ∧ resp.Given) ∧ resp.valueSize ≤ 255 := by
  constructor
  · rintro ⟨item, h⟩
    have hlength := length_filestoreResponseOf hresp h
    have hshort := item.short
    obtain ⟨haction, names, hnames, message, hmessage, _⟩ := filestoreResponseOf_eq_some.mp h
    obtain ⟨hfirst, hsecond⟩ := namesOf_isSome_iff.mp ⟨names, hnames⟩
    exact ⟨⟨haction, hfirst, fun hnamed =>
      hsecond (filestoreActionHasSecondFilename_iff.mpr hnamed),
      lvOf_isSome.mp ⟨message, hmessage⟩⟩, by omega⟩
  · rintro ⟨⟨haction, hgiven⟩, hfits⟩
    obtain ⟨names, hnames⟩ := namesOf_isSome_iff.mpr
      ⟨hgiven.first, fun hnames => hgiven.second (filestoreActionHasSecondFilename_iff.mp hnames)⟩
    obtain ⟨message, hmessage⟩ := lvOf_isSome.mpr hgiven.message
    have hvalid := filestoreActionValid_iff.mpr haction
    have hoctet := actionOf_pack hvalid resp.statusCode.toUInt8
    have hlength := length_namesOf hresp.first hresp.secondFilename hnames
    have hmessageLength := (lvOf_eq_some hresp.message hmessage).2.2
    -- the item is legal whatever the sizes; only `short` needs the value to fit its length octet
    have hfields : FilestoreFields.Valid
        ⟨((resp.actionCode.toUInt8 &&& 0xF) <<< 4) ||| (resp.statusCode.toUInt8 &&& 0xF),
          names.1, names.2, some message⟩ true := by
      refine ⟨?_, ?_, rfl⟩
      · rw [hoctet, hvalid]
      · rw [hoctet, namesOf_isSome hnames]
    refine ⟨⟨_, hfields, ?_⟩,
      filestoreResponseOf_eq_some.mpr ⟨haction, names, hnames, message, hmessage, rfl⟩⟩
    rw [FilestoreFields.value, List.length_cons, List.length_append, hlength, Lv.encodeOption,
      Lv.length_encode, hmessageLength]
    rw [FilestoreResponse.valueSize, ← filestoreActionHasSecondFilename_eq] at hfits
    omega

end Response

/-! ### Encoding and decoding back -/

/-- The run of a serialiser for filestore TLVs: it succeeds exactly when its argument is legal
    (`ok`), the value fits its length octet and the whole fits the capacity. -/
theorem FilestoreItem.run_exact {withMessage : Bool} {f : Nat → Size T → Writer (Size T)}
    {enc : Option (FilestoreItem withMessage)} {ok : Prop} {size : Nat}
    (hf : Encodes f (enc.map (filestoreCodec withMessage).enc))
    (hok : (∃ item, enc = some item) ↔ ok ∧ size ≤ 255)
    (hsize : ∀ item, enc = some item → item.fields.value.length = size)
    {i : Nat} {cap : Size T} {m : Object} (hext : i + cap.toNat ≤ m.extent) :
    ∃ n m', f i cap m = .ok (n, m') ∧
      (n ≠ sz 0 ↔ ok ∧ size ≤ 255 ∧ size + 2 ≤ cap.toNat) ∧
      (n ≠ sz 0 → n.toNat = size + 2 ∧ ∃ item, enc = some item ∧
        ((filestoreCodec withMessage).enc item).length = n.toNat ∧
        m' = m.place i ((filestoreCodec withMessage).enc item)) := by
  -- `ok` decides whether there is an encoding, `size` whether it fits the TLV and the buffer
  obtain ⟨n, m', hrun, hiff⟩ := hf.accepts_iff hext
  refine ⟨n, m', hrun, hiff.trans ⟨?_, ?_⟩, ?_⟩
  · rintro ⟨e, he, hle⟩
    obtain ⟨item, hitem, rfl⟩ := Option.map_eq_some_iff.mp he
    obtain ⟨hlegal, hfits⟩ := hok.mp ⟨item, hitem⟩
    rw [FilestoreItem.length_enc, hsize item hitem] at hle
    exact ⟨hlegal, hfits, hle⟩
  · rintro ⟨hlegal, hfits, hle⟩
    obtain ⟨item, hitem⟩ := hok.mpr ⟨hlegal, hfits⟩
    refine ⟨_, by rw [hitem, Option.map_some], ?_⟩
    rwa [FilestoreItem.length_enc, hsize item hitem]
  · intro hn
    obtain ⟨e, he, hle, hlength, hm'⟩ := hf.of_run hext hrun hn
    obtain ⟨item, hitem, rfl⟩ := Option.map_eq_some_iff.mp he
    have htotal : ((filestoreCodec withMessage).enc item).length = n.toNat := by
      rw [hlength, toNat_sz (Nat.lt_of_le_of_lt hle cap.isLt)]
    have hvalue := hsize item hitem
    refine ⟨?_, item, hitem, htotal, hm'⟩
    rw [← htotal, FilestoreItem.length_enc, hvalue]

/-- **Main result.** A filestore request or response is encoded exactly when its action is
    known, what it writes is there, its value fits the length octet and the whole fits the
    capacity.  Whatever follows the encoding, it is decoded as it was given. -/
theorem filestore_exchange :
    (∀ req : FilestoreRequest, req.Sourced →
      ∀ (i : Nat) (cap : Size T) (m : Object), i + cap.toNat ≤ m.extent →
        ∃ n m', filestoreRequestTlvSerialize (some req) (some i) cap m = .ok (n, m') ∧
          (n ≠ sz 0 ↔ (req.actionCode ≤ 8 ∧ req.Given) ∧ req.valueSize ≤ 255 ∧
            req.valueSize + 2 ≤ cap.toNat) ∧
          (n ≠ sz 0 → n.toNat = req.valueSize + 2 ∧
            ∃ e : List UInt8, e.length = n.toNat ∧ m' = m.place i e ∧
              ∀ (p : Ptr) (behind : List UInt8) (len : Size T) (old : FilestoreRequest),
                p.Holds (e ++ behind) → (e ++ behind).length = len.toNat →
                ∃ req', filestoreRequestTlvDeserialize (some p) len (some old) =
                    .ok (n, some req') ∧ req.ReceivedAs req')) ∧
    (∀ resp : FilestoreResponse, resp.statusCode ≤ 15 → resp.Sourced →
      ∀ (i : Nat) (cap : Size T) (m : Object), i + cap.toNat ≤ m.extent →
        ∃ n m', filestoreResponseTlvSerialize (some resp) (some i) cap m = .ok (n, m') ∧
          (n ≠ sz 0 ↔ (resp.actionCode ≤ 8 ∧ resp.Given) ∧ resp.valueSize ≤ 255 ∧
            resp.valueSize + 2 ≤ cap.toNat) ∧
          (n ≠ sz 0 → n.toNat = resp.valueSize + 2 ∧
            ∃ e : List UInt8, e.length = n.toNat ∧ m' = m.place i e ∧
              ∀ (p : Ptr) (behind : List UInt8) (len : Size T) (old : FilestoreResponse),
                p.Holds (e ++ behind) → (e ++ behind).length = len.toNat →
                ∃ resp', filestoreResponseTlvDeserialize (some p) len (some old) =
                    .ok (n, some resp') ∧ resp'.statusCode = resp.statusCode ∧
                  resp.ReceivedAs resp')) := by
  constructor
  · intro req hreq i cap m hext
    obtain ⟨n, m', hrun, hiff, hsent⟩ := FilestoreItem.run_exact
      (filestoreRequestTlvSerialize_encodes (T := T) hreq) (filestoreRequestOf_isSome hreq)
      (fun _ => length_filestoreRequestOf hreq) hext
    refine ⟨n, m', hrun, hiff, fun hn => ?_⟩
    obtain ⟨hsize, item, hitem, hlength, hm'⟩ := hsent hn
    refine ⟨hsize, _, hlength, hm', fun p behind len old hp hlen => ?_⟩
    have hdecode := (filestoreRequestTlvDeserialize_decodes hp hlen old).accepts_exact
      (PrefixCodec.dec_enc _ _ _) hlength
    exact ⟨_, hdecode, filestoreRequest_receivedAs hreq hitem hp.left⟩
  · intro resp hstatus hresp i cap m hext
    obtain ⟨n, m', hrun, hiff, hsent⟩ := FilestoreItem.run_exact
      (filestoreResponseTlvSerialize_encodes (T := T) hresp) (filestoreResponseOf_isSome hresp)
      (fun _ => length_filestoreResponseOf hresp) hext
    refine ⟨n, m', hrun, hiff, fun hn => ?_⟩
    obtain ⟨hsize, item, hitem, hlength, hm'⟩ := hsent hn
    refine ⟨hsize, _, hlength, hm', fun p behind len old hp hlen => ?_⟩
    have hdecode := (filestoreResponseTlvDeserialize_decodes hp hlen old).accepts_exact
      (PrefixCodec.dec_enc _ _ _) hlength
    have hreceived := filestoreResponse_receivedAs hresp hitem hp.left
    exact ⟨_, hdecode, hreceived.statusCode.2 hstatus, hreceived⟩

/-- The response to a file being renamed, or under another action a response that supplies a
    second name for nothing. -/
def twoNamesResponse (actionCode : FilestoreAction) : FilestoreResponse :=
  { actionCode := actionCode
    statusCode := 15
    firstFilename := some ⟨Object.full [0x61], 0⟩
    firstFilenameLen := 1
    secondFilename := some ⟨Object.full [0x62, 0x63], 0⟩
    secondFilenameLen := 2
    message := none
    messageLen := 0 }

theorem twoNamesResponse_sourced (actionCode : FilestoreAction) :
    (twoNamesResponse actionCode).Sourced := by
  constructor
  · rintro q ⟨⟩
    exact Nat.le_refl 1
  · rintro - q ⟨⟩
    exact Nat.le_refl 2
  · rintro q ⟨⟩

theorem twoNamesResponse_given (actionCode : FilestoreAction) :
    (twoNamesResponse actionCode).Given := by
  constructor
  · rintro ⟨⟩
  · rintro - ⟨⟩
  · rintro -
    rfl

/-- What is placed at the start of an object may be read with nothing behind it. -/
theorem place_holds_alone {m : Object} {e : List UInt8} (h : e.length ≤ m.extent) :
    (Ptr.mk (m.place 0 e) 0).Holds (e ++ []) := by
  rw [List.append_nil]
  exact Object.place_holds (by rwa [Nat.zero_add])

/-- The request to rename a file. -/
def renameRequest : FilestoreRequest :=
  { actionCode := CFDP_FS_ACTION_RENAME_FILE
    firstFilename := some ⟨Object.full [0x61], 0⟩
    firstFilenameLen := 1
    secondFilename := some ⟨Object.full [0x62, 0x63], 0⟩
    secondFilenameLen := 2 }

/-- A renaming is sent with both names and received with both.  Where the action names one file
    only, six octets are enough for the response, and five are not. -/
theorem filestore_exchange_sample :
    (∃ m' req', filestoreRequestTlvSerialize (some renameRequest) (some 0)
        (sz 8 : Size .checked32) (Object.full (List.replicate 8 0)) = .ok (sz 8, m') ∧
      filestoreRequestTlvDeserialize (some ⟨m', 0⟩) (sz 8 : Size .checked32) (some default) =
        .ok (sz 8, some req') ∧
      octetsAt req'.secondFilename req'.secondFilenameLen.toNat = [0x62, 0x63]) ∧
    (∃ m' resp', filestoreResponseTlvSerialize
        (some (twoNamesResponse CFDP_FS_ACTION_RENAME_FILE)) (some 0) (sz 9 : Size .checked32)
        (Object.full (List.replicate 9 0)) = .ok (sz 9, m') ∧
      filestoreResponseTlvDeserialize (some ⟨m', 0⟩) (sz 9 : Size .checked32) (some default) =
        .ok (sz 9, some resp') ∧
      octetsAt resp'.secondFilename resp'.secondFilenameLen.toNat = [0x62, 0x63]) ∧
    (∃ n m', filestoreResponseTlvSerialize (some (twoNamesResponse 1)) (some 0)
        (sz 6 : Size .checked32) (Object.full (List.replicate 6 0)) = .ok (n, m') ∧ n ≠ sz 0) ∧
    ∃ n m', filestoreResponseTlvSerialize (some (twoNamesResponse 1)) (some 0)
        (sz 5 : Size .checked32) (Object.full (List.replicate 6 0)) = .ok (n, m') ∧
      n = sz 0 := by
  refine ⟨?_, ?_, ?_, ?_⟩
  · have hsourced : renameRequest.Sourced := by
      constructor
      · rintro q ⟨⟩
        decide
      · rintro - q ⟨⟩
        decide
    have hgiven : renameRequest.Given := by
      constructor
      · rintro ⟨⟩
      · rintro - ⟨⟩
    obtain ⟨n, m', hrun, hiff, hsent⟩ := (filestore_exchange (T := .checked32)).1 renameRequest
      hsourced 0 (sz 8) (Object.full (List.replicate 8 0)) (by decide)
    obtain ⟨hsize, e, hlength, rfl, hreceive⟩ :=
      hsent (hiff.mpr ⟨⟨by decide, hgiven⟩, by decide, by decide⟩)
    have height : n = sz 8 := BitVec.toNat_inj.mp hsize
    subst height
    have hholds := @place_holds_alone (Object.full (List.replicate 8 0)) e
      (by rw [hlength]; decide)
    obtain ⟨req', hdecode, hreceived⟩ := hreceive _ [] (sz 8) default hholds
      (by rw [List.append_nil]; exact hlength)
    exact ⟨_, req', hrun, hdecode, (hreceived.second (by decide)).2⟩
  · obtain ⟨n, m', hrun, hiff, hsent⟩ := (filestore_exchange (T := .checked32)).2
      (twoNamesResponse CFDP_FS_ACTION_RENAME_FILE) (by decide) (twoNamesResponse_sourced _) 0
      (sz 9) (Object.full (List.replicate 9 0)) (by decide)
    obtain ⟨hsize, e, hlength, rfl, hreceive⟩ :=
      hsent (hiff.mpr ⟨⟨by decide, twoNamesResponse_given _⟩, by decide, by decide⟩)
    have hnine : n = sz 9 := BitVec.toNat_inj.mp hsize
    subst hnine
    have hholds := @place_holds_alone (Object.full (List.replicate 9 0)) e
      (by rw [hlength]; decide)
    obtain ⟨resp', hdecode, _, hreceived⟩ := hreceive _ [] (sz 9) default hholds
      (by rw [List.append_nil]; exact hlength)
    exact ⟨_, resp', hrun, hdecode, (hreceived.second (by decide)).2⟩
  · obtain ⟨n, m', hrun, hiff, _⟩ := (filestore_exchange (T := .checked32)).2
      (twoNamesResponse 1) (by decide) (twoNamesResponse_sourced 1) 0 (sz 6)
      (Object.full (List.replicate 6 0)) (by decide)
    exact ⟨n, m', hrun, hiff.mpr ⟨⟨by decide, twoNamesResponse_given 1⟩, by decide, by decide⟩⟩
  · obtain ⟨n, m', hrun, hiff, _⟩ := (filestore_exchange (T := .checked32)).2
      (twoNamesResponse 1) (by decide) (twoNamesResponse_sourced 1) 0 (sz 5)
      (Object.full (List.replicate 6 0)) (by decide)
    refine ⟨n, m', hrun, ?_⟩
    by_contra hn
    exact absurd (hiff.mp hn).2.2 (by decide)

/-! ### Decoding and encoding back -/

/-- A request with its spare bits cleared. -/
def FilestoreItem.cleared (item : FilestoreItem false) : FilestoreItem false where
  fields := { item.fields with octet := item.fields.octet &&& 0xF0 }
  valid := by
    have haction : actionOf (item.fields.octet &&& 0xF0) = actionOf item.fields.octet :=
      congrArg UInt8.toUInt32 (BitFields.high_of_cleared item.fields.octet)
    have hvalid := item.valid
    exact ⟨by rw [haction]; exact hvalid.action, by rw [haction]; exact hvalid.second,
      hvalid.message⟩
  short := item.short

/-- The octets of a request TLV with the spare bits of its action octet cleared. -/
def clearSpare (e : List UInt8) : List UInt8 := e.set 2 (e.getD 2 0 &&& 0xF0)

theorem FilestoreItem.enc_cleared (item : FilestoreItem false) :
    (filestoreCodec false).enc item.cleared = clearSpare ((filestoreCodec false).enc item) := rfl

/-- The other way round, what is an encoding once it is cleared was one before. -/
theorem FilestoreItem.exists_of_clearSpare {e : List UInt8} {item : FilestoreItem false}
    (h : clearSpare e = (filestoreCodec false).enc item) :
    ∃ item', e = (filestoreCodec false).enc item' ∧ item = item'.cleared := by
  obtain ⟨fields, hvalid, hshort⟩ := item
  obtain ⟨octet, first, second, message⟩ := fields
  rw [FilestoreItem.enc_eq] at h
  -- an item has at least three octets; the spare bits are in the third
  rcases e with _ | ⟨type, _ | ⟨len, _ | ⟨o, ys⟩⟩⟩
  · cases h
  · cases h
  · cases h
  · injection h with htype h
    injection h with hlen h
    injection h with hoctet hys
    have hoctet' : octet = o &&& 0xF0 := hoctet.symm
    subst htype hlen hoctet' hys
    have haction : actionOf (o &&& 0xF0) = actionOf o :=
      congrArg UInt8.toUInt32 (BitFields.high_of_cleared o)
    have hvalid' : FilestoreFields.Valid ⟨o, first, second, message⟩ false :=
      ⟨by rw [← haction]; exact hvalid.action, by rw [← haction]; exact hvalid.second,
        hvalid.message⟩
    exact ⟨⟨⟨o, first, second, message⟩, hvalid', hshort⟩, rfl, rfl⟩

/-- What is reported for a request is encoded as that request with its spare bits cleared. -/
theorem filestoreRequestOf_view {item : FilestoreItem false}
    (h : p.Holds ((filestoreCodec false).enc item)) :
    (item.fields.request p).Sourced ∧
      filestoreRequestOf (item.fields.request p) = some item.cleared := by
  have hvalid := item.valid
  rw [FilestoreItem.enc_eq] at h
  have hvalue := h.tail.tail.tail
  rw [Ptr.add_add, Ptr.add_add] at hvalue
  obtain ⟨hnames, hfirst, hsecond⟩ := namesOf_view (p := p.add 3) hvalid.second hvalue.left
  refine ⟨⟨hfirst, fun hnames => hsecond (filestoreActionHasSecondFilename_iff.mpr hnames)⟩,
    filestoreRequestOf_eq_some.mpr
    ⟨filestoreActionValid_iff.mp hvalid.action, _, hnames, ?_⟩⟩
  have hmessage : item.fields.message = none := by
    simpa using hvalid.message
  have hoctet : ((item.fields.request p).actionCode.toUInt8 &&& 0xF) <<< 4 =
      item.fields.octet &&& 0xF0 := BitFields.repack_high item.fields.octet
  rw [hoctet, FilestoreItem.cleared]
  exact FilestoreFields.ext rfl rfl rfl hmessage

/-- What is reported for a response is encoded as that response. -/
theorem filestoreResponseOf_view {item : FilestoreItem true}
    (h : p.Holds ((filestoreCodec true).enc item)) :
    (item.fields.response p).Sourced ∧ (item.fields.response p).statusCode ≤ 15 ∧
      filestoreResponseOf (item.fields.response p) = some item := by
  have hvalid := item.valid
  obtain ⟨message, hmessage⟩ := Option.isSome_iff_exists.mp hvalid.message
  rw [FilestoreItem.enc_eq] at h
  have hvalue := h.tail.tail.tail
  rw [Ptr.add_add, Ptr.add_add, hmessage] at hvalue
  have hbehind := hvalue.right
  rw [Ptr.add_add] at hbehind
  obtain ⟨hnames, hfirst, hsecond⟩ := namesOf_view (p := p.add 3) hvalid.second hvalue.left
  -- a response always carries a message, possibly empty, so the option is `some`
  have hfield : Lv.fieldOption (p.add (3 + (namesEncode (item.fields.first,
      item.fields.second)).length)) 0 item.fields.message = message.field (p.add (3 +
      (namesEncode (item.fields.first, item.fields.second)).length)) 0 := by
    rw [hmessage]
    rfl
  have hholds : ((p.add (3 + (namesEncode (item.fields.first, item.fields.second)).length)).add
      0).Holds message.encode := hbehind
  obtain ⟨hlv, hread⟩ := Lv.lvOf_field hholds
  have hstatus : (item.fields.response p).statusCode ≤ 15 := by
    rw [UInt32.le_iff_toNat_le]
    change (item.fields.octet &&& 0xF).toUInt32.toNat ≤ 15
    rw [UInt8.toNat_toUInt32, UInt8.toNat_and]
    exact Nat.and_le_right
  refine ⟨⟨hfirst, fun hnames => hsecond (filestoreActionHasSecondFilename_iff.mpr hnames), ?_⟩,
    hstatus, filestoreResponseOf_eq_some.mpr
    ⟨filestoreActionValid_iff.mp hvalid.action, _, hnames, message, ?_, ?_⟩⟩
  · dsimp only [FilestoreFields.response]
    rw [hfield]
    exact hread
  · dsimp only [FilestoreFields.response]
    rw [hfield]
    exact hlv
  · have hoctet : (((item.fields.response p).actionCode.toUInt8 &&& 0xF) <<< 4) |||
        ((item.fields.response p).statusCode.toUInt8 &&& 0xF) = item.fields.octet :=
      BitFields.repack item.fields.octet
    rw [hoctet]
    exact FilestoreFields.ext rfl rfl rfl hmessage

/-- A filestore TLV is as long as its second octet says. -/
theorem FilestoreItem.length_of_front {withMessage : Bool} (item : FilestoreItem withMessage)
    (h : (filestoreCodec withMessage).enc item <+: xs) :
    ((filestoreCodec withMessage).enc item).length = (xs.getD 1 0).toNat + 2 := by
  obtain ⟨rest, rfl⟩ := h
  rw [FilestoreItem.length_enc]
  change _ = (UInt8.ofNat item.fields.value.length).toNat + 2
  rw [toNat_ofNat_of_le item.short]

/-- **Main result.** The filestore decoders accept exactly the strings that start with an
    encoding, of a response, or of a request with its spare bits cleared.  What is accepted
    is filled by its names and message, which lie in it, and is encoded again as it came. -/
theorem filestore_language (h : p.Holds xs) {len : Size T} (hlen : xs.length = len.toNat) :
    (∀ old : FilestoreResponse, ∃ n out,
      filestoreResponseTlvDeserialize (some p) len (some old) = .ok (n, out) ∧
        (∀ e : List UInt8, e <+: xs → (n ≠ sz 0 ∧ n.toNat = e.length ↔
          ∃ resp : FilestoreResponse, resp.statusCode ≤ 15 ∧ resp.EncodedAs T e)) ∧
        (n ≠ sz 0 → n.toNat ≤ len.toNat ∧ n.toNat = (xs.getD 1 0).toNat + 2 ∧
          ∃ resp, out = some resp ∧ n.toNat = resp.valueSize + 2 ∧
            (∀ span ∈ resp.spans, span.Inside p n.toNat) ∧
            ∀ (i : Nat) (cap : Size T) (m : Object), i + cap.toNat ≤ m.extent →
              n.toNat ≤ cap.toNat →
              filestoreResponseTlvSerialize (some resp) (some i) cap m =
                .ok (n, m.place i (xs.take n.toNat)))) ∧
    (∀ old : FilestoreRequest, ∃ n out,
      filestoreRequestTlvDeserialize (some p) len (some old) = .ok (n, out) ∧
        (∀ e : List UInt8, e <+: xs → (n ≠ sz 0 ∧ n.toNat = e.length ↔
          ∃ req : FilestoreRequest, req.EncodedAs T (clearSpare e))) ∧
        (n ≠ sz 0 → n.toNat ≤ len.toNat ∧ n.toNat = (xs.getD 1 0).toNat + 2 ∧
          ∃ req, out = some req ∧ n.toNat = req.valueSize + 2 ∧
            (∀ span ∈ req.spans, span.Inside p n.toNat) ∧
            ∀ (i : Nat) (cap : Size T) (m : Object), i + cap.toNat ≤ m.extent →
              n.toNat ≤ cap.toNat →
              filestoreRequestTlvSerialize (some req) (some i) cap m =
                .ok (n, m.place i (clearSpare (xs.take n.toNat))))) := by
  constructor
  -- a response uses every bit, so it re-encodes to the very octets consumed
  · intro old
    obtain ⟨n, out, hrun, hlanguage, haccepted⟩ :=
      (filestoreResponseTlvDeserialize_decodes h hlen old).language (filestoreCodec true)
        (fun item => item.fields.response p) hlen
    refine ⟨n, out, hrun, fun e he => (hlanguage e he).trans ⟨?_, ?_⟩, fun hn => ?_⟩
    · rintro ⟨item, rfl⟩
      obtain ⟨hsourced, hstatus, hitem⟩ := filestoreResponseOf_view (he.trans h)
      exact ⟨_, hstatus, FilestoreResponse.EncodedAs.of_item hsourced hitem⟩
    · rintro ⟨resp, _, henc⟩
      obtain ⟨_, item, _, rfl⟩ := henc.item
      exact ⟨item, rfl⟩
    · obtain ⟨hle, item, rfl, hfront, hsz, hsize, htake⟩ := haccepted hn
      obtain ⟨hsourced, _, hitem⟩ := filestoreResponseOf_view (hfront.trans h)
      refine ⟨hle, hsize.trans (item.length_of_front hfront), _, rfl, ?_, ?_, ?_⟩
      · rw [hsize, FilestoreItem.length_enc, length_filestoreResponseOf hsourced hitem]
      · exact item.fields.inside_response (Nat.le_of_eq hsize.symm)
      · intro i cap m hext hcap
        have hencodes := filestoreResponseTlvSerialize_encodes (T := T) hsourced
        rw [hitem, Option.map_some] at hencodes
        rw [htake, hencodes.writes hext (by rwa [← hsize]), hsz]
  -- of a request the low half of the action octet is spare and comes back cleared
  · intro old
    obtain ⟨n, out, hrun, hlanguage, haccepted⟩ :=
      (filestoreRequestTlvDeserialize_decodes h hlen old).language (filestoreCodec false)
        (fun item => item.fields.request p) hlen
    refine ⟨n, out, hrun, fun e he => (hlanguage e he).trans ⟨?_, ?_⟩, fun hn => ?_⟩
    · rintro ⟨item, rfl⟩
      obtain ⟨hsourced, hitem⟩ := filestoreRequestOf_view (he.trans h)
      rw [← FilestoreItem.enc_cleared]
      exact ⟨_, FilestoreRequest.EncodedAs.of_item hsourced hitem⟩
    · rintro ⟨req, henc⟩
      obtain ⟨_, item, _, hcleared⟩ := henc.item
      obtain ⟨item', rfl, _⟩ := FilestoreItem.exists_of_clearSpare hcleared
      exact ⟨item', rfl⟩
    · obtain ⟨hle, item, rfl, hfront, hsz, hsize, htake⟩ := haccepted hn
      obtain ⟨hsourced, hitem⟩ := filestoreRequestOf_view (hfront.trans h)
      refine ⟨hle, hsize.trans (item.length_of_front hfront), _, rfl, ?_, ?_, ?_⟩
      · rw [hsize, FilestoreItem.length_enc, ← length_filestoreRequestOf hsourced hitem]
        rfl
      · exact item.fields.inside_request (Nat.le_of_eq hsize.symm)
      · intro i cap m hext hcap
        have hencodes := filestoreRequestTlvSerialize_encodes (T := T) hsourced
        rw [hitem, Option.map_some, FilestoreItem.enc_cleared] at hencodes
        have hlength : (clearSpare ((filestoreCodec false).enc item)).length =
            ((filestoreCodec false).enc item).length := List.length_set
        rw [htake, hencodes.writes hext (by rwa [hlength, ← hsize]), hlength, hsz]

/-- A request with its spare bits set, and an octet behind it. -/
def sampleRequestOctets : List UInt8 := [0x00, 0x03, 0x0F, 0x01, 0x61, 0xFF]

theorem filestore_language_sample :
    ∃ n out, filestoreRequestTlvDeserialize (some ⟨Object.full sampleRequestOctets, 0⟩)
        (sz 6 : Size .checked32) (some default) = .ok (n, out) ∧ n = sz 5 ∧
      ∃ req : FilestoreRequest,
        req.EncodedAs .checked32 (clearSpare [0x00, 0x03, 0x0F, 0x01, 0x61]) := by
  have hholds := Object.holds_whole sampleRequestOctets
  obtain ⟨n, out, hrun, hiff, _⟩ :=
    (@filestore_language .checked32 _ _ hholds (sz 6) rfl).2 default
  have hvalue : filestoreRequestTlvDeserialize (some ⟨Object.full sampleRequestOctets, 0⟩)
      (sz 6 : Size .checked32) (some default) = .ok (sz 5, _) := rfl
  have hn : n = sz 5 := congrArg Prod.fst (Except.ok.inj (hrun.symm.trans hvalue))
  have hprefix : [0x00, 0x03, 0x0F, 0x01, 0x61] <+: sampleRequestOctets := ⟨[0xFF], rfl⟩
  refine ⟨n, out, hrun, hn, (hiff _ hprefix).mp ⟨?_, ?_⟩⟩
  · rw [hn]
    decide
  · rw [hn]
    rfl

end EmbeddedCfdp
