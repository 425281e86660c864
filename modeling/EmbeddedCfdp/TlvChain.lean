import EmbeddedCfdp.FilestoreRoundTrip
import EmbeddedCfdp.SpanWalk

/-!
# Chains of TLVs

TLVs are put one after another at a running offset, and a received chain is walked by
advancing through the deserialiser by its return value.  The walk finds what was put there,
and a string that it reads to its end is the chain of what it found: there is no other
reading.
-/

namespace EmbeddedCfdp

open CMemory

variable {T : Target}

/-! ### Building and walking a chain -/

/-- The sender's loop: each TLV behind what has been written so far, on what is left of the
    capacity, giving up where one is refused. -/
def tlvChainSerialize (buf : Nat) (bufLen : Size T) : List Tlv → (pos : Size T) → Writer (Size T)
  | [], pos => return pos
  | tlv :: tlvs, pos => do
      let n ← tlvSerialize (some tlv) (some (buf + pos.toNat)) (← Size.subW bufLen pos)
      if n = sz 0 then return sz 0
      tlvChainSerialize buf bufLen tlvs (pos + n)

/-- The receiver's loop: decode a TLV and advance by what was consumed. -/
def tlvWalk (buf : Ptr) (bufLen : Size T) :
    (fuel : Nat) → (pos : Size T) → Except Fault (Option (Size T) × List Tlv) :=
  walkSpan (fun p n => tlvDeserialize (some p) n (some default)) (some buf) bufLen

/-! ### A single TLV -/

/-- A TLV whose value may be read, and is not null where it is not empty. -/
structure Tlv.Sourced (tlv : Tlv) : Prop where
  value : Readable tlv.value tlv.length.toNat
  given : tlv.value = none → tlv.length = 0

/-- The two TLVs have one type and one value. -/
def Tlv.Same (tlv tlv' : Tlv) : Prop :=
  tlv'.type = tlv.type ∧ SameOctets (tlv.value, tlv.length) (tlv'.value, tlv'.length)

/-- What a TLV stands for. -/
def Tlv.StandsFor (tlv : Tlv) (t : TlvItem) : Prop :=
  Readable tlv.value tlv.length.toNat ∧ tlvOf tlv = some t

theorem Tlv.Sourced.exists_item {tlv : Tlv} (h : tlv.Sourced) : ∃ t, tlv.StandsFor t := by
  obtain ⟨v, hv⟩ := lvOf_isSome.mpr h.given
  exact ⟨_, h.value, by rw [tlvOf, hv, Option.map_some]⟩

section Item

variable {p : Ptr} {tlv tlv' : Tlv} {t : TlvItem}

theorem Tlv.StandsFor.value (h : tlv.StandsFor t) :
    tlv.type = t.type ∧ ∃ v : Lv, lvOf tlv.value tlv.length = some v ∧ v.octets = t.value := by
  obtain ⟨v, hv, rfl⟩ := Option.map_eq_some_iff.mp h.2
  exact ⟨rfl, v, hv, rfl⟩

/-- What is reported for a TLV is what it was. -/
theorem TlvItem.same_view (h : tlv.StandsFor t) (hp : p.Holds t.encode) :
    tlv.Same (t.view p) := by
  obtain ⟨htype, v, hv, hvalue⟩ := h.value
  have hholds : (p.add 1).Holds v.encode := by
    rw [Lv.encode, hvalue]
    exact hp.tail
  have hsame := Lv.sameOctets_field h.1 hv hholds
  unfold Lv.field at hsame
  rw [hvalue] at hsame
  exact ⟨htype.symm, hsame⟩

/-- What is reported for a TLV stands for it again. -/
theorem TlvItem.standsFor_view (hp : p.Holds t.encode) : (t.view p).StandsFor t := by
  have hholds : (p.add 1).Holds (Lv.encode ⟨t.value, t.short⟩) := hp.tail
  obtain ⟨hv, hread⟩ := Lv.lvOf_field hholds
  have hvalue : lvOf (t.view p).value (t.view p).length = some ⟨t.value, t.short⟩ := hv
  refine ⟨hread, ?_⟩
  rw [tlvOf, hvalue, Option.map_some]
  rfl

/-- TLVs that stand for one item are the same. -/
theorem Tlv.StandsFor.same (h : tlv.StandsFor t) (h' : tlv'.StandsFor t) : tlv.Same tlv' := by
  obtain ⟨htype, v, hv, hvalue⟩ := h.value
  obtain ⟨htype', v', hv', hvalue'⟩ := h'.value
  obtain ⟨_, hoctets, hlength⟩ := lvOf_eq_some h.1 hv
  obtain ⟨_, hoctets', hlength'⟩ := lvOf_eq_some h'.1 hv'
  refine ⟨htype'.trans htype.symm, UInt8.toNat_inj.mp ?_, ?_⟩
  · rw [← hlength, ← hlength', hvalue, hvalue']
  · rw [← hoctets, ← hoctets', hvalue, hvalue']

/-- The octets of a TLV: its type, its length and its value. -/
def tlvOctets (tlv : Tlv) : List UInt8 :=
  tlv.type :: tlv.length :: octetsAt tlv.value tlv.length.toNat

theorem Tlv.StandsFor.encode (h : tlv.StandsFor t) : t.encode = tlvOctets tlv := by
  obtain ⟨htype, v, hv, hvalue⟩ := h.value
  obtain ⟨_, hoctets, hlength⟩ := lvOf_eq_some h.1 hv
  rw [hvalue] at hoctets hlength
  rw [TlvItem.encode, tlvOctets, htype, hlength, UInt8.ofNat_toNat, hoctets]

end Item

/-! ### Whole chains -/

section Chain

variable {p : Ptr} {len : Size T}

/-- The sender's loop behind `k` octets, for TLVs that stand for `items`. -/
theorem tlvChainSerialize_run {tlvs : List Tlv} {items : List TlvItem}
    (hitems : List.Forall₂ Tlv.StandsFor tlvs items) {i k : Nat} {m : Object}
    (hfit : k + (tlvCodec.chain items).length ≤ len.toNat) (hext : i + len.toNat ≤ m.extent) :
    tlvChainSerialize i len tlvs (sz k) m = .ok (sz (k + (tlvCodec.chain items).length),
      m.place (i + k) (tlvCodec.chain items)) := by
  have hlt := len.isLt
  -- invariant: `k` octets are written and the rest of the chain still fits
  induction hitems generalizing k m with
  | nil =>
    rw [PrefixCodec.chain_nil, Object.place_nil]
    rfl
  | @cons tlv t tlvs items htlv _ ih =>
    rw [PrefixCodec.chain_cons, List.length_append] at hfit ⊢
    have hk : (sz k : Size T).toNat = k := toNat_sz (by omega)
    have hencodes := tlvSerialize_encodes (T := T) htlv.1
    rw [htlv.2, Option.map_some] at hencodes
    have hle : t.encode.length ≤ (sz (len.toNat - k) : Size T).toNat := by
      rw [toNat_sz_sub]
      have hfirst : (tlvCodec.enc t).length = t.encode.length := rfl
      omega
    have hroom : i + k + (sz (len.toNat - k) : Size T).toNat ≤ m.extent := by
      rw [toNat_sz_sub]
      omega
    have hrun := hencodes.writes hroom hle
    have hsub : Size.subW len (sz k : Size T) m = .ok (sz (len.toNat - k), m) := by
      rw [Size.subW, sub_sz_left (by omega)]
      rfl
    rw [tlvChainSerialize, Writer.bind_ok hsub, hk, Writer.bind_ok hrun,
      if_neg t.size_ne_zero, sz_add]
    have hnext := @ih (k + t.encode.length) (m.place (i + k) t.encode)
      (by rw [Nat.add_assoc]; exact hfit) (by rw [Object.place_extent]; exact hext)
    rw [hnext, ← Nat.add_assoc i, Object.place_place_right rfl, Nat.add_assoc k]
    rfl

/-- The receiver's step takes every TLV off the front. -/
theorem TlvItem.takesOff (t : TlvItem) {R : Tlv → Prop}
    (hview : ∀ p : Ptr, p.Holds t.encode → R (t.view p)) :
    TakesOff (T := T) tlvCodec (fun p n => tlvDeserialize (some p) n (some default)) t R := by
  intro p rest len h hlen
  have hdec : TlvItem.decode (tlvCodec.enc t ++ rest) = some (t, rest) := tlvCodec.dec_enc t rest
  exact ⟨t.view p, (tlvDeserialize_decodes h hlen default).accepts (by rw [hdec]; rfl),
    hview p h.left⟩

/-- A chain is walked to its end. -/
theorem tlvWalk_chain {items : List TlvItem} (hp : p.Holds (tlvCodec.chain items))
    (hlen : (tlvCodec.chain items).length = len.toNat) {fuel : Nat}
    (hfuel : (tlvCodec.chain items).length < fuel) :
    ∃ tlvs, tlvWalk p len fuel (sz 0) = .ok (some len, tlvs) ∧
      List.Forall₂ Tlv.StandsFor tlvs items := by
  have hitems : List.Forall₂ (fun t t' => TakesOff (T := T) tlvCodec
      (fun q n => tlvDeserialize (some q) n (some default)) t' fun tlv => tlv.StandsFor t)
      items items :=
    List.forall₂_same.mpr fun t _ => t.takesOff fun _ h => TlvItem.standsFor_view h
  obtain ⟨tlvs, hwalk, hstands⟩ := walkSpan_chain hitems (Or.inr ⟨p, rfl, hp⟩) hlen hfuel
  exact ⟨tlvs, hwalk, List.Forall₂.flip hstands⟩

/-- Any octets are walked to an end. -/
theorem tlvWalk_any {xs : List UInt8} (hp : p.Holds xs) (hlen : xs.length = len.toNat)
    {fuel : Nat} (hfuel : xs.length < fuel) :
    ∃ items rest tlvs, xs = tlvCodec.chain items ++ rest ∧
      tlvWalk p len fuel (sz 0) = .ok (if rest = [] then some len else none, tlvs) ∧
      List.Forall₂ Tlv.StandsFor tlvs items := by
  have hrefuses : ∀ ys, (∀ t rest, ys = tlvCodec.enc t ++ rest → ¬ True) →
      Refuses (T := T) (fun p n => tlvDeserialize (some p) n (some default)) ys := by
    intro ys hnone q n hq hn
    rcases tlvDeserialize_run hq hn default with ⟨_, hrun⟩ | ⟨t, behind, _, hys, _⟩
    · exact hrun
    · exact (hnone t behind hys trivial).elim
  obtain ⟨items, rest, tlvs, hxs, _, hwalk, hitems⟩ :=
    walkSpan_any (R := fun t tlv => Tlv.StandsFor tlv t)
      (fun t _ => t.takesOff fun _ h => TlvItem.standsFor_view h) hrefuses hp hlen hfuel
  exact ⟨items, rest, tlvs, hxs, hwalk, List.Forall₂.flip hitems⟩

theorem chain_eq_octets {tlvs : List Tlv} {items : List TlvItem}
    (hitems : List.Forall₂ Tlv.StandsFor tlvs items) :
    tlvCodec.chain items = tlvs.flatMap tlvOctets := by
  induction hitems with
  | nil => rfl
  | cons htlv _ ih =>
    rw [PrefixCodec.chain_cons, List.flatMap_cons, ih, ← htlv.encode]
    rfl

theorem same_of_standsFor {tlvs tlvs' : List Tlv} {items : List TlvItem}
    (hitems : List.Forall₂ Tlv.StandsFor tlvs items)
    (hitems' : List.Forall₂ Tlv.StandsFor tlvs' items) : List.Forall₂ Tlv.Same tlvs tlvs' := by
  induction hitems generalizing tlvs' with
  | nil =>
    cases hitems'
    exact List.Forall₂.nil
  | cons htlv _ ih =>
    cases hitems' with
    | cons htlv' hrest => exact List.Forall₂.cons (htlv.same htlv') (ih hrest)

theorem exists_items {tlvs : List Tlv} (h : ∀ tlv ∈ tlvs, tlv.Sourced) :
    ∃ items, List.Forall₂ Tlv.StandsFor tlvs items := by
  induction tlvs with
  | nil => exact ⟨[], List.Forall₂.nil⟩
  | cons tlv tlvs ih =>
    obtain ⟨t, ht⟩ := (h tlv (List.mem_cons_self ..)).exists_item
    obtain ⟨items, hitems⟩ := ih fun tlv' hmem => h tlv' (List.mem_cons_of_mem _ hmem)
    exact ⟨t :: items, List.Forall₂.cons ht hitems⟩

end Chain

/-- **Main result.** Walking a chain gives back the TLVs it was built from, up to its last
    octet.  Every walk ends; where no step failed it ends at the last octet, and building the
    chain of what it found gives the octets back.  Two lists of TLVs that stand in the same
    octets are the same. -/
theorem tlv_chain :
    (∀ tlvs : List Tlv, (∀ tlv ∈ tlvs, tlv.Sourced) →
      (∀ (i : Nat) (cap : Size T) (m : Object), i + cap.toNat ≤ m.extent →
        (tlvs.flatMap tlvOctets).length ≤ cap.toNat →
        tlvChainSerialize i cap tlvs (sz 0) m =
          .ok (sz (tlvs.flatMap tlvOctets).length, m.place i (tlvs.flatMap tlvOctets))) ∧
      ∀ (p : Ptr) (len : Size T), p.Holds (tlvs.flatMap tlvOctets) →
        (tlvs.flatMap tlvOctets).length = len.toNat →
        ∃ tlvs', tlvWalk p len (len.toNat + 1) (sz 0) = .ok (some len, tlvs') ∧
          List.Forall₂ Tlv.Same tlvs tlvs') ∧
    (∀ (p : Ptr) (xs : List UInt8) (len : Size T), p.Holds xs → xs.length = len.toNat →
      ∃ stop tlvs, tlvWalk p len (len.toNat + 1) (sz 0) = .ok (stop, tlvs) ∧
        ∀ pos, stop = some pos → pos = len ∧ xs = tlvs.flatMap tlvOctets ∧
          ∀ (i : Nat) (cap : Size T) (m : Object), i + cap.toNat ≤ m.extent →
            xs.length ≤ cap.toNat →
            tlvChainSerialize i cap tlvs (sz 0) m = .ok (len, m.place i xs)) ∧
    (∀ tlvs tlvs' : List Tlv, (∀ tlv ∈ tlvs, tlv.Sourced) → (∀ tlv ∈ tlvs', tlv.Sourced) →
      tlvs.flatMap tlvOctets = tlvs'.flatMap tlvOctets → List.Forall₂ Tlv.Same tlvs tlvs') := by
  refine ⟨?_, ?_, ?_⟩
  · intro tlvs htlvs
    obtain ⟨items, hitems⟩ := exists_items htlvs
    rw [← chain_eq_octets hitems]
    constructor
    · intro i cap m hext hle
      have hrun := tlvChainSerialize_run (k := 0) (m := m) hitems (by omega) hext
      rwa [Nat.zero_add, Nat.add_zero] at hrun
    · intro p len hp hlen
      obtain ⟨tlvs', hwalk, hitems'⟩ := tlvWalk_chain hp hlen (Nat.lt_succ_of_le
        (Nat.le_of_eq hlen))
      exact ⟨tlvs', hwalk, same_of_standsFor hitems hitems'⟩
  · intro p xs len hp hlen
    obtain ⟨items, rest, tlvs, hxs, hwalk, hstands⟩ := tlvWalk_any hp hlen (Nat.lt_succ_of_le
      (Nat.le_of_eq hlen))
    refine ⟨_, _, hwalk, fun pos hpos => ?_⟩
    obtain ⟨hend, hpos⟩ := Option.ite_none_right_eq_some.mp hpos
    rw [hend, List.append_nil] at hxs
    refine ⟨(Option.some.inj hpos).symm, hxs.trans (chain_eq_octets hstands), ?_⟩
    intro i cap m hext hle
    have hrun := tlvChainSerialize_run (k := 0) (m := m) hstands
      (by rw [← hxs, Nat.zero_add]; exact hle) hext
    rwa [← hxs, Nat.zero_add, Nat.add_zero, hlen, sz_toNat] at hrun
  · intro tlvs tlvs' htlvs htlvs' hsame
    obtain ⟨items, hitems⟩ := exists_items htlvs
    obtain ⟨items', hitems'⟩ := exists_items htlvs'
    rw [← chain_eq_octets hitems, ← chain_eq_octets hitems'] at hsame
    -- equal octets come from equal lists of items, as no item is a prefix of another
    rw [← tlvCodec.chain_injective hsame] at hitems'
    exact same_of_standsFor hitems hitems'

/-- An empty TLV without a value, and one whose value looks like a TLV. -/
def sampleChain : List Tlv :=
  [⟨0x02, 0, none⟩, ⟨0x05, 2, some ⟨Object.full [0x06, 0x00], 0⟩⟩]

theorem tlv_chain_sample :
    ∃ tlvs', tlvWalk ⟨Object.full [0x02, 0x00, 0x05, 0x02, 0x06, 0x00], 0⟩
        (sz 6 : Size .checked32) 7 (sz 0) = .ok (some (sz 6), tlvs') ∧
      List.Forall₂ Tlv.Same sampleChain tlvs' := by
  have hsourced : ∀ tlv ∈ sampleChain, tlv.Sourced := by
    intro tlv hmem
    simp only [sampleChain, List.mem_cons, List.not_mem_nil, or_false] at hmem
    rcases hmem with rfl | rfl
    · constructor
      · rintro q ⟨⟩
      · rintro -
        rfl
    · constructor
      · rintro q ⟨⟩
        decide
      · rintro ⟨⟩
  exact ((tlv_chain (T := .checked32)).1 sampleChain hsourced).2 _ (sz 6)
    (Object.holds_whole [0x02, 0x00, 0x05, 0x02, 0x06, 0x00]) rfl

end EmbeddedCfdp
