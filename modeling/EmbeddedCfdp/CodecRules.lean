import EmbeddedCfdp.CMemory
import EmbeddedCfdp.PrefixCodec

/-!
# Specifications of serialisers and deserialisers

A serialiser gets a destination and its capacity and returns the number of octets
written, or 0.  `Encodes` says that it refines a pure encoder: it writes the encoding
exactly when the encoding exists and fits, and otherwise returns 0 after touching at
most the octets it was given.  A deserialiser `Decodes` to a pure decoder when it
reports what the decoder does, and returns 0 where the decoder fails.

The rules below follow a serialiser through its body: `Puts` is a step that writes a
known string, `Outcome` what a body still has to establish.
-/

namespace CMemory

variable {T : Target} {α β σ : Type}

/-! ### Sizes -/

/-- Every target has 16-bit sizes. -/
theorem size_lt (T : Target) {n : Nat} (h : n < 65536) : n < 2 ^ T.sizeBits :=
  Nat.lt_of_lt_of_le h T.two_pow_ge

theorem toNat_sz_small {n : Nat} (h : n < 65536) : (sz n : Size T).toNat = n :=
  toNat_sz (size_lt T h)

theorem lt_sz_iff {len : Size T} {k : Nat} (hk : k < 2 ^ T.sizeBits) :
    len < sz k ↔ len.toNat < k := by
  rw [BitVec.lt_def, toNat_sz hk]

theorem sz_lt_iff {len : Size T} {k : Nat} (hk : k < 2 ^ T.sizeBits) :
    sz k < len ↔ k < len.toNat := by
  rw [BitVec.lt_def, toNat_sz hk]

theorem eq_sz_iff {len : Size T} {k : Nat} (hk : k < 2 ^ T.sizeBits) :
    len = sz k ↔ len.toNat = k := by
  rw [← BitVec.toNat_inj, toNat_sz hk]

theorem sz_mul (a b : Nat) : (sz a : Size T) * sz b = sz (a * b) := (BitVec.ofNat_mul a b).symm

theorem sz_ne_zero {k : Nat} (hpos : 0 < k) (hk : k < 2 ^ T.sizeBits) :
    (sz k : Size T) ≠ sz 0 := by
  intro h
  rw [sz_inj hk (by omega)] at h
  omega

theorem Size.ne_zero {len : Size T} (h : 0 < len.toNat) : len ≠ sz 0 := by
  rw [← sz_toNat len]
  exact sz_ne_zero h len.isLt

/-- A sum of sizes is exact, or short by one turn of `size_t`. -/
theorem toNat_add_sz (a : Size T) {k : Nat} (hk : k < 2 ^ T.sizeBits) :
    (a + sz k).toNat = a.toNat + k ∨ (a + sz k).toNat + 2 ^ T.sizeBits = a.toNat + k := by
  have ha := a.isLt
  rw [BitVec.toNat_add, toNat_sz hk]
  by_cases hfits : a.toNat + k < 2 ^ T.sizeBits
  · left
    exact Nat.mod_eq_of_lt hfits
  · right
    rw [Nat.mod_eq_sub_mod (Nat.le_of_not_lt hfits), Nat.mod_eq_of_lt (by omega)]
    omega

theorem sub_sz_left {len : Size T} {k : Nat} (hk : k ≤ len.toNat) :
    Size.sub len (sz k) = .ok (sz (len.toNat - k)) := by
  have h := @sub_sz T len.toNat k len.isLt hk
  rwa [sz_toNat] at h

theorem toNat_sz_sub (len : Size T) (k : Nat) :
    (sz (len.toNat - k) : Size T).toNat = len.toNat - k :=
  toNat_sz (Nat.lt_of_le_of_lt (Nat.sub_le _ _) len.isLt)

/-! ### Steps that write a known string -/

theorem length_octetsAt {value : Option Ptr} {n : Nat} (hr : Readable value n)
    (hnull : ¬ (value.isNone ∧ n > 0)) : (octetsAt value n).length = n := by
  cases value with
  | none =>
    have hzero : n = 0 := by simpa using hnull
    simp [hzero]
  | some p => exact hr.length

/-- `x` writes `e` from offset `i` on and returns `a`, wherever `e` fits. -/
def Puts (x : Writer α) (i : Nat) (e : List UInt8) (a : α) : Prop :=
  ∀ m : Object, i + e.length ≤ m.extent → x m = .ok (a, m.place i e)

theorem Puts.pure (a : α) (i : Nat) : Puts (pure a) i [] a := by
  intro m _
  rw [Object.place_nil, Writer.pure_apply]

theorem Puts.congr {x : Writer α} {i : Nat} {e e' : List UInt8} {a a' : α} (hx : Puts x i e a)
    (he : e = e') (ha : a = a') : Puts x i e' a' := by
  subst he ha
  exact hx

theorem Puts.store (i : Nat) (b : UInt8) : Puts (store i b) i [b] () :=
  fun _ h => store_apply h

theorem Puts.memcpy (i : Nat) {src : Option Ptr} {n : Nat} (hsrc : src ≠ none)
    (hr : Readable src n) : Puts (memcpy i src n) i (octetsAt src n) () := by
  intro m h
  cases src with
  | none => exact (hsrc rfl).elim
  | some p =>
    rw [hr.length] at h
    exact memcpy_apply hsrc hr h

theorem Puts.lift {x : Except Fault α} {a : α} (h : x = .ok a) (i : Nat) :
    Puts (liftM x) i [] a := by
  intro m _
  rw [Writer.lift_ok h, Object.place_nil]

theorem Puts.bind {x : Writer α} {f : α → Writer β} {i k : Nat} {e e' : List UInt8} {a : α}
    {b : β} (hx : Puts x i e a) (hf : Puts (f a) k e' b) (hk : k = i + e.length) :
    Puts (x >>= f) i (e ++ e') b := by
  intro m h
  rw [List.length_append] at h
  rw [Writer.bind_ok (hx m (by omega)), hf _ (by rw [Object.place_extent]; omega),
    Object.place_place_right hk]

/-- A copy that is skipped when it is empty. -/
theorem Puts.copy {x y : Writer α} {i k : Nat} {src : Option Ptr} {n : Nat} {e : List UInt8}
    {a : α} {nonempty : Prop} [Decidable nonempty] (hnonempty : nonempty ↔ n > 0)
    (hnull : ¬ (src.isNone ∧ n > 0)) (hr : Readable src n) (hk : k = i + n)
    (hx : Puts x k e a) (hy : n = 0 → y = x) :
    Puts (if nonempty then CMemory.memcpy i src n >>= fun _ => x else y) i
      (octetsAt src n ++ e) a := by
  -- without octets to copy, memcpy is not called at all
  by_cases hpos : nonempty
  · rw [if_pos hpos]
    have hsrc : src ≠ none := by
      rintro rfl
      exact hnull ⟨rfl, hnonempty.mp hpos⟩
    refine Puts.bind (Puts.memcpy i hsrc hr) hx ?_
    rw [length_octetsAt hr hnull, hk]
  · have hzero : n = 0 := Nat.eq_zero_of_not_pos fun h => hpos (hnonempty.mpr h)
    rw [if_neg hpos, hy hzero]
    subst hzero
    subst hk
    simpa using hx

theorem Puts.subW (i : Nat) {len : Size T} {k : Nat} (hk : k ≤ len.toNat) :
    Puts (Size.subW len (sz k)) i [] (sz (len.toNat - k)) := by
  intro m _
  simp only [Size.subW, sub_sz_left hk, Object.place_nil]
  rfl

/-! ### Serialisers -/

/-- What a run of a serialiser with the encoding `enc` may end in, started in `m` with
    the `n` octets from `i` on: the encoding is written, or 0 is returned because there
    is none or it does not fit. -/
def Outcome (enc : Option (List UInt8)) (m : Object) (i n : Nat)
    (r : Except Fault (Size T × Object)) : Prop :=
  (∃ e, enc = some e ∧ e.length ≤ n ∧ r = .ok (sz e.length, m.place i e)) ∨
    (∀ e, enc = some e → n < e.length) ∧
      ∃ m', r = .ok (sz 0, m') ∧ m.SameOutside m' i n

/-- The serialiser `f` refines the encoder whose result is `enc`. -/
structure Encodes (f : Nat → Size T → Writer (Size T)) (enc : Option (List UInt8)) : Prop where
  ne_nil : ∀ {e}, enc = some e → e ≠ []
  outcome : ∀ i len m, i + len.toNat ≤ m.extent → Outcome enc m i len.toNat (f i len m)

section Outcome

variable {enc : Option (List UInt8)} {m : Object} {i j k n : Nat} {w e : List UInt8}

theorem Outcome.start {x : Writer (Size T)} (h : Outcome enc m i n (x (m.place j []))) :
    Outcome enc m i n (x m) := by
  rwa [Object.place_nil] at h

/-- Nothing is written, and nothing was to be. -/
theorem Outcome.refuse_start (h : ∀ e, enc = some e → n < e.length) :
    Outcome enc m i n ((pure (sz 0) : Writer (Size T)) m) :=
  Or.inr ⟨h, m, rfl, Object.SameOutside.refl _ _ _⟩

theorem Outcome.refuse (h : ∀ e, enc = some e → n < e.length) (hi : i ≤ j)
    (hn : j + w.length ≤ i + n) :
    Outcome enc m i n ((pure (sz 0) : Writer (Size T)) (m.place j w)) :=
  Or.inr ⟨h, _, rfl, (Object.sameOutside_place (Nat.le_refl _)).widen hi hn⟩

theorem Outcome.done {s : Size T} (h : enc = some w) (hn : w.length ≤ n)
    (hs : s = sz w.length) :
    Outcome enc m i n ((pure s : Writer (Size T)) (m.place i w)) :=
  Or.inl ⟨w, h, hn, by rw [hs, Writer.pure_apply]⟩

/-- A check before anything is written. -/
theorem Outcome.guard_start {c : Prop} [Decidable c] {x : Writer (Size T)}
    (hrefuse : c → ∀ e, enc = some e → n < e.length)
    (hpass : ¬ c → Outcome enc m i n (x m)) :
    Outcome enc m i n ((if c then pure (sz 0) else x) m) := by
  by_cases hc : c
  · rw [if_pos hc]
    exact Outcome.refuse_start (hrefuse hc)
  · rw [if_neg hc]
    exact hpass hc

/-- A check after `w` has been written. -/
theorem Outcome.guard {c : Prop} [Decidable c] {x : Writer (Size T)} (hi : i ≤ j)
    (hn : j + w.length ≤ i + n) (hrefuse : c → ∀ e, enc = some e → n < e.length)
    (hpass : ¬ c → Outcome enc m i n (x (m.place j w))) :
    Outcome enc m i n ((if c then pure (sz 0) else x) (m.place j w)) := by
  by_cases hc : c
  · rw [if_pos hc]
    exact Outcome.refuse (hrefuse hc) hi hn
  · rw [if_neg hc]
    exact hpass hc

/-- A body that writes the encoding in one go. -/
theorem Outcome.of_puts {x : Writer (Size T)} (hx : Puts x i e (sz e.length))
    (henc : enc = some e) (hn : e.length ≤ n) (hext : i + n ≤ m.extent) :
    Outcome enc m i n (x m) :=
  Or.inl ⟨e, henc, hn, hx m (by omega)⟩

/-- A step right behind what has been written. -/
theorem Outcome.bind {x : Writer α} {f : α → Writer (Size T)} {a : α} (hx : Puts x k e a)
    (hk : k = j + w.length) (hfit : k + e.length ≤ m.extent)
    (hf : Outcome enc m i n (f a (m.place j (w ++ e)))) :
    Outcome enc m i n ((x >>= f) (m.place j w)) := by
  have hext : k + e.length ≤ (m.place j w).extent := by rwa [Object.place_extent]
  rwa [Writer.bind_ok (hx _ hext), Object.place_place_right hk]

/-- A copy right behind what has been written, skipped when it is empty. -/
theorem Outcome.copy {x y : Writer (Size T)} {src : Option Ptr} {l : Nat} {nonempty : Prop}
    [Decidable nonempty] (hnonempty : nonempty ↔ l > 0) (hnull : ¬ (src.isNone ∧ l > 0))
    (hr : Readable src l) (hk : k = j + w.length) (hfit : k + l ≤ m.extent)
    (hy : l = 0 → y = x) (hf : Outcome enc m i n (x (m.place j (w ++ octetsAt src l)))) :
    Outcome enc m i n
      ((if nonempty then CMemory.memcpy k src l >>= fun _ => x else y) (m.place j w)) := by
  by_cases hpos : nonempty
  · rw [if_pos hpos]
    have hsrc : src ≠ none := by
      rintro rfl
      exact hnull ⟨rfl, hnonempty.mp hpos⟩
    exact Outcome.bind (Puts.memcpy k hsrc hr) hk (by rwa [length_octetsAt hr hnull]) hf
  · have hzero : l = 0 := Nat.eq_zero_of_not_pos fun h => hpos (hnonempty.mpr h)
    rw [if_neg hpos, hy hzero]
    rwa [hzero, octetsAt_zero, List.append_nil] at hf

/-- A body that completes the encoding right in front of what has been written. -/
theorem Outcome.done_left {x : Writer (Size T)} {s : Size T} (hx : Puts x i e s)
    (hj : j = i + e.length) (hext : j ≤ m.extent) (henc : enc = some (e ++ w))
    (hn : (e ++ w).length ≤ n) (hs : s = sz (e ++ w).length) :
    Outcome enc m i n (x (m.place j w)) := by
  refine Or.inl ⟨e ++ w, henc, hn, ?_⟩
  rw [hx _ (by rw [Object.place_extent]; omega), Object.place_place_left hj, hs]

/-- A serialiser called right behind what has been written, on the rest of the
    capacity; the caller gives up when it returns 0. -/
theorem Outcome.bind_encodes {g : Nat → Size T → Writer (Size T)} {enc' : Option (List UInt8)}
    {f : Size T → Writer (Size T)} {s : Size T} (hg : Encodes g enc') (hk : k = j + w.length)
    (hs : k + s.toNat = i + n) (hi : i ≤ j) (hext : i + n ≤ m.extent)
    (hnone : ∀ e, enc = some e → ∃ e', enc' = some e' ∧ k + e'.length ≤ i + e.length)
    (hsome : ∀ e', enc' = some e' → e'.length ≤ s.toNat →
      Outcome enc m i n (f (sz e'.length) (m.place j (w ++ e')))) :
    Outcome enc m i n
      ((g k s >>= fun r => if r = sz 0 then pure (sz 0) else f r) (m.place j w)) := by
  -- either the inner string stands behind the outer one, or the caller gives up
  rcases hg.outcome k s (m.place j w) (by rw [Object.place_extent, hs]; exact hext) with
    ⟨e', henc, hle, hrun⟩ | ⟨hbig, m', hrun, hsame⟩
  · have hpos : 0 < e'.length := List.length_pos_iff.mpr (hg.ne_nil henc)
    have hlt := s.isLt
    rw [Writer.bind_ok hrun, Object.place_place_right hk, if_neg (sz_ne_zero hpos (by omega))]
    exact hsome e' henc hle
  · rw [Writer.bind_ok hrun, if_pos rfl]
    refine Or.inr ⟨?_, m', rfl, ?_⟩
    -- the inner string did not fit, so the whole does not either
    · intro e he
      obtain ⟨e', he', hlen⟩ := hnone e he
      have := hbig e' he'
      omega
    · have hfirst : m.SameOutside (m.place j w) i n :=
        (Object.sameOutside_place (Nat.le_refl _)).widen hi (by omega)
      exact hfirst.trans (hsame.widen (by omega) (by omega))

/-- The same with the rest of the capacity computed by the caller, when everything so
    far was written from the start on. -/
theorem Outcome.bind_rest {g : Nat → Size T → Writer (Size T)} {enc' : Option (List UInt8)}
    {f : Size T → Writer (Size T)} {len pos : Size T} (hg : Encodes g enc')
    (hpos : pos.toNat = w.length) (hroom : w.length ≤ len.toNat)
    (hext : i + len.toNat ≤ m.extent)
    (hnone : ∀ e, enc = some e → ∃ e', enc' = some e' ∧ w.length + e'.length ≤ e.length)
    (hsome : ∀ e', enc' = some e' → w.length + e'.length ≤ len.toNat →
      Outcome enc m i len.toNat (f (sz e'.length) (m.place i (w ++ e')))) :
    Outcome enc m i len.toNat
      ((Size.subW len pos >>= fun rest => g (i + pos.toNat) rest >>= fun r =>
        if r = sz 0 then pure (sz 0) else f r) (m.place i w)) := by
  have hsz : pos = sz w.length := by rw [← hpos, sz_toNat]
  rw [hpos, hsz]
  refine Outcome.bind (Puts.subW (i + w.length) hroom) rfl
    (by simp only [List.length_nil]; omega) ?_
  rw [List.append_nil]
  refine Outcome.bind_encodes hg rfl (by rw [toNat_sz_sub]; omega) (Nat.le_refl i) hext ?_ ?_
  · intro e he
    obtain ⟨e', he', hle⟩ := hnone e he
    exact ⟨e', he', by omega⟩
  · intro e' he' hle
    rw [toNat_sz_sub] at hle
    exact hsome e' he' (by omega)

end Outcome

section Encodes

variable {f : Nat → Size T → Writer (Size T)} {enc : Option (List UInt8)} {e : List UInt8}

/-- A serialiser that refuses its argument. -/
theorem Encodes.refused : Encodes (fun _ _ => (pure (sz 0) : Writer (Size T))) none := by
  constructor
  · rintro e ⟨⟩
  · intro i len m _
    exact Outcome.refuse_start fun _ he => nomatch he

/-- A serialiser that can write `e` does so wherever `e` fits the capacity. -/
theorem Encodes.writes (h : Encodes f (some e)) {i : Nat} {len : Size T} {m : Object}
    (hext : i + len.toNat ≤ m.extent) (hle : e.length ≤ len.toNat) :
    f i len m = .ok (sz e.length, m.place i e) := by
  rcases h.outcome i len m hext with ⟨e', henc, _, hrun⟩ | ⟨hbig, _⟩
  · rw [Option.some.injEq] at henc
    rw [henc, hrun]
  · have := hbig e rfl
    omega

/-- A serialiser returns something else than 0 exactly where there is an encoding that fits. -/
theorem Encodes.accepts_iff (h : Encodes f enc) {i : Nat} {len : Size T} {m : Object}
    (hext : i + len.toNat ≤ m.extent) :
    ∃ n m', f i len m = .ok (n, m') ∧
      (n ≠ sz 0 ↔ ∃ e, enc = some e ∧ e.length ≤ len.toNat) := by
  rcases h.outcome i len m hext with ⟨e, henc, hle, hrun⟩ | ⟨hbig, m', hrun, _⟩
  · have hpos : 0 < e.length := List.length_pos_iff.mpr (h.ne_nil henc)
    refine ⟨_, _, hrun, iff_of_true ?_ ⟨e, henc, hle⟩⟩
    exact sz_ne_zero hpos (Nat.lt_of_le_of_lt hle len.isLt)
  · refine ⟨_, _, hrun, iff_of_false (fun hne => hne rfl) ?_⟩
    rintro ⟨e, henc, hle⟩
    exact Nat.not_lt.mpr hle (hbig e henc)

/-- A serialiser that returned something else than 0 has written its encoding. -/
theorem Encodes.of_run (h : Encodes f enc) {i : Nat} {len s : Size T} {m m' : Object}
    (hext : i + len.toNat ≤ m.extent) (hrun : f i len m = .ok (s, m')) (hs : s ≠ sz 0) :
    ∃ e, enc = some e ∧ e.length ≤ len.toNat ∧ s = sz e.length ∧ m' = m.place i e := by
  rcases h.outcome i len m hext with ⟨e, henc, hle, hrun'⟩ | ⟨_, m'', hrun', _⟩
  · rw [hrun, Except.ok.injEq, Prod.mk.injEq] at hrun'
    exact ⟨e, henc, hle, hrun'.1, hrun'.2⟩
  · rw [hrun, Except.ok.injEq, Prod.mk.injEq] at hrun'
    exact (hs hrun'.1).elim

/-- A serialiser always returns, and stays inside the buffer that it was given. -/
theorem Encodes.stays_inside (h : Encodes f enc) {i : Nat} {len : Size T} {m : Object}
    (hext : i + len.toNat ≤ m.extent) :
    ∃ n m', f i len m = .ok (n, m') ∧ m.SameOutside m' i len.toNat := by
  rcases h.outcome i len m hext with ⟨e, _, hle, hrun⟩ | ⟨_, m', hrun, hsame⟩
  · exact ⟨_, _, hrun, Object.sameOutside_place hle⟩
  · exact ⟨_, m', hrun, hsame⟩

/-- An encoding that a size can count is written somewhere. -/
theorem Encodes.exists_run (h : Encodes f (some e)) (hfits : e.length < 2 ^ T.sizeBits) :
    ∃ (i : Nat) (cap n : Size T) (m m' : Object), i + cap.toNat ≤ m.extent ∧
      f i cap m = .ok (n, m') ∧ n ≠ sz 0 ∧ n.toNat = e.length ∧ (Ptr.mk m' i).Holds e := by
  have hcap : (sz e.length : Size T).toNat = e.length := toNat_sz hfits
  have hpos : 0 < e.length := List.length_pos_iff.mpr (h.ne_nil rfl)
  have hextent : (Object.full (List.replicate e.length 0)).extent = e.length :=
    List.length_replicate
  refine ⟨0, sz e.length, sz e.length, Object.full (List.replicate e.length 0), _, ?_,
    h.writes ?_ ?_, sz_ne_zero hpos hfits, hcap, Object.place_holds ?_⟩
  · rw [hcap, hextent, Nat.zero_add]
  · rw [hcap, hextent, Nat.zero_add]
  · rw [hcap]
  · rw [hextent, Nat.zero_add]

/-- The octets that a successful run leaves behind are its encoding. -/
theorem Encodes.holds_eq (h : Encodes f enc) {i : Nat} {cap n : Size T} {m m' : Object}
    (hext : i + cap.toNat ≤ m.extent) (hrun : f i cap m = .ok (n, m')) (hn : n ≠ sz 0)
    (hlength : n.toNat = e.length) (hholds : (Ptr.mk m' i).Holds e) : enc = some e := by
  obtain ⟨e', he, hle, hsize, hm'⟩ := h.of_run hext hrun hn
  subst hm' hsize
  rw [toNat_sz (Nat.lt_of_le_of_lt hle cap.isLt)] at hlength
  have hwritten : (Ptr.mk (m.place i e') i).Holds e' := Object.place_holds (by omega)
  rw [he, Option.some.injEq]
  exact ((List.prefix_of_prefix_length_le hholds hwritten
    (Nat.le_of_eq hlength.symm)).eq_of_length hlength.symm).symm

end Encodes

/-! ### Deserialisers -/

/-- The run `r` of a deserialiser reports what the decoder's result `d` says: the octets
    consumed and the decoded value, or 0 where there is none. -/
structure Decodes (r : Except Fault (Size T × σ)) (d : Option (Nat × σ)) : Prop where
  accepts : ∀ {n s}, d = some (n, s) → r = .ok (sz n, s)
  refuses : d = none → ∃ s, r = .ok (sz 0, s)

@[simp] theorem ok_bind (a : α) (f : α → Except Fault β) : (Except.ok a >>= f) = f a := rfl

theorem bind_eq_ok {x : Except Fault α} {f : α → Except Fault β} {b : β} :
    (x >>= f) = .ok b ↔ ∃ a, x = .ok a ∧ f a = .ok b := by
  cases x <;> simp [bind, Except.bind]

section Decodes

variable {d : Option (Nat × σ)} {r : Except Fault (Size T × σ)}

theorem Decodes.accept {n : Nat} {s : σ} (h : d = some (n, s)) :
    Decodes (T := T) (pure (sz n, s)) d := by
  subst h
  constructor
  · rintro _ _ ⟨⟩
    rfl
  · rintro ⟨⟩

theorem Decodes.refuse {s : σ} (h : d = none) : Decodes (T := T) (pure (sz 0, s)) d := by
  subst h
  constructor
  · rintro _ _ ⟨⟩
  · rintro _
    exact ⟨s, rfl⟩

theorem Decodes.guard {c : Prop} [Decidable c] {s : σ} (hrefuse : c → d = none)
    (hpass : ¬ c → Decodes r d) : Decodes (if c then pure (sz 0, s) else r) d := by
  by_cases hc : c
  · rw [if_pos hc]
    exact Decodes.refuse (hrefuse hc)
  · rw [if_neg hc]
    exact hpass hc

/-- A deserialiser called first, where the caller fails when it does. -/
theorem Decodes.bind {d' : Option (Nat × β)} {f : Size T × σ → Except Fault (Size T × β)}
    (hr : Decodes r d) (hnone : d = none → ∀ s, Decodes (f (sz 0, s)) d')
    (hsome : ∀ n s, d = some (n, s) → Decodes (f (sz n, s)) d') : Decodes (r >>= f) d' := by
  cases hd : d with
  | none =>
    obtain ⟨s, hs⟩ := hr.refuses hd
    rw [hs]
    exact hnone hd s
  | some v =>
    rw [hr.accepts hd]
    exact hsome v.1 v.2 hd

theorem Decodes.run (h : Decodes r d) :
    (∃ n s, d = some (n, s) ∧ r = .ok (sz n, s)) ∨ (d = none ∧ ∃ s, r = .ok (sz 0, s)) := by
  cases hd : d with
  | none => exact Or.inr ⟨rfl, h.refuses hd⟩
  | some v => exact Or.inl ⟨v.1, v.2, rfl, h.accepts hd⟩

/-- Where all the octets are consumed, their number is returned. -/
theorem Decodes.accepts_exact {γ : Type} {d : Option γ} {g : γ → Nat × σ} {a : γ} {len : Size T}
    (h : Decodes r (d.map g)) (ha : d = some a) (hlen : (g a).1 = len.toNat) :
    r = .ok (len, (g a).2) := by
  have hrun := h.accepts (by rw [ha, Option.map_some])
  rwa [hlen, sz_toNat] at hrun

/-- A deserialiser whose object goes into a larger one. -/
theorem Decodes.wrap {τ γ : Type} {r : Except Fault (Size T × Option σ)} {d : Option γ}
    {n : γ → Nat} {view : γ → σ} (h : Decodes r (d.map fun a => (n a, some (view a))))
    (wrap : σ → τ) :
    Decodes (r.map fun out => (out.1, out.2.map wrap))
      ((d.map fun a => (n a, wrap (view a))).map fun a => (a.1, some a.2)) := by
  cases d with
  | none =>
    obtain ⟨s, hs⟩ := h.refuses rfl
    rw [hs]
    exact Decodes.refuse rfl
  | some a =>
    rw [h.accepts rfl]
    exact Decodes.accept rfl

/-- A run that returned something else than 0 has decoded something. -/
theorem Decodes.of_run {γ : Type} {d : Option γ} {g : γ → Nat × σ} {n : Size T} {s : σ}
    (h : Decodes r (d.map g)) (hrun : r = .ok (n, s)) (hn : n ≠ sz 0) :
    ∃ a, d = some a ∧ n = sz (g a).1 ∧ s = (g a).2 := by
  rcases h.run with ⟨k, s', hsome, hrun'⟩ | ⟨_, s', hrun'⟩
  · obtain ⟨a, ha, heq⟩ := Option.map_eq_some_iff.mp hsome
    rw [hrun, Except.ok.injEq, Prod.mk.injEq] at hrun'
    exact ⟨a, ha, by rw [heq]; exact hrun'.1, by rw [heq]; exact hrun'.2⟩
  · rw [hrun, Except.ok.injEq, Prod.mk.injEq] at hrun'
    exact (hn hrun'.1).elim

end Decodes

/-! ### Prior contents of the output -/

/-- Whatever the output struct held before, the deserialiser returns the same value and,
    unless that is 0, leaves contents that are the `same`. -/
def Forgets (f : Option σ → Except Fault (Size T × Option σ)) (same : σ → σ → Prop) : Prop :=
  ∀ old old', ∃ n out out', f (some old) = .ok (n, out) ∧ f (some old') = .ok (n, out') ∧
    (n ≠ sz 0 → ∃ s s', out = some s ∧ out' = some s' ∧ same s s')

section Forgets

variable {f : Option σ → Except Fault (Size T × Option σ)} {same : σ → σ → Prop}

/-- A deserialiser that refuses leaves the struct as it was. -/
theorem Forgets.refuse (h : ∀ old, f (some old) = .ok (sz 0, some old)) : Forgets f same := by
  intro old old'
  refine ⟨sz 0, some old, some old', h old, h old', ?_⟩
  intro hn
  exact (hn rfl).elim

/-- A decoder that does not read the struct decides what is returned; its prior contents can
    only show in how the decoded value is reported. -/
theorem Forgets.of_decodes {γ : Type} {d : Option γ} {size : γ → Nat} {view : σ → γ → σ}
    (h : ∀ old, Decodes (f (some old)) (d.map fun a => (size a, some (view old a))))
    (hsame : ∀ a, d = some a → ∀ old old', same (view old a) (view old' a)) :
    Forgets f same := by
  intro old old'
  -- the decoder looks at the octets only, so both runs go the same way
  cases hd : d with
  | none =>
    obtain ⟨out, hrun⟩ := (h old).refuses (by rw [hd, Option.map_none])
    obtain ⟨out', hrun'⟩ := (h old').refuses (by rw [hd, Option.map_none])
    refine ⟨sz 0, out, out', hrun, hrun', ?_⟩
    intro hn
    exact (hn rfl).elim
  | some a =>
    have hrun := (h old).accepts (by rw [hd, Option.map_some])
    have hrun' := (h old').accepts (by rw [hd, Option.map_some])
    refine ⟨_, _, _, hrun, hrun', ?_⟩
    intro _
    exact ⟨_, _, rfl, rfl, hsame a hd old old'⟩

/-- Nothing shows where the report is made of the decoded value alone. -/
theorem Forgets.of_view {γ : Type} {d : Option γ} {size : γ → Nat} {view : γ → σ}
    (h : ∀ old, Decodes (f (some old)) (d.map fun a => (size a, some (view a)))) :
    Forgets f Eq := by
  apply Forgets.of_decodes h
  intro a _ old old'
  rfl

/-- The buffer is null, or holds the octets its length announces. -/
theorem Forgets.of_buffer {f : Option Ptr → Option σ → Except Fault (Size T × Option σ)}
    {buf : Option Ptr} {len : Size T} (hr : Readable buf len.toNat)
    (hnull : ∀ old, f none (some old) = .ok (sz 0, some old))
    (hheld : ∀ p xs, p.Holds xs → xs.length = len.toNat → Forgets (f (some p)) same) :
    Forgets (f buf) same := by
  cases buf with
  | none => exact Forgets.refuse hnull
  | some p => exact hheld p _ holds_octetsAt hr.length

end Forgets

/-! ### Decoders of a prefix codec -/

theorem eq_of_prefix_of_length {xs e e' : List UInt8} (h : e <+: xs) (h' : e' <+: xs)
    (hlength : e.length = e'.length) : e = e' :=
  (List.prefix_of_prefix_length_le h h' (Nat.le_of_eq hlength)).eq_of_length hlength

/-- A deserialiser that computes the decoder of a prefix codec accepts exactly the strings
    that start with an encoding, and consumes that. -/
theorem Decodes.language {α β : Type} (c : PrefixCodec UInt8 α) (view : α → β) {len : Size T}
    {xs : List UInt8} {r : Except Fault (Size T × Option β)}
    (h : Decodes r ((c.dec xs).map fun a => ((c.enc a.1).length, some (view a.1))))
    (hlen : xs.length = len.toNat) :
    ∃ n out, r = .ok (n, out) ∧
      (∀ e : List UInt8, e <+: xs → (n ≠ sz 0 ∧ n.toNat = e.length ↔ ∃ a, e = c.enc a)) ∧
      (n ≠ sz 0 → n.toNat ≤ len.toNat ∧ ∃ a, out = some (view a) ∧ c.enc a <+: xs ∧
        n = sz (c.enc a).length ∧ n.toNat = (c.enc a).length ∧ xs.take n.toNat = c.enc a) := by
  rcases h.run with ⟨k, out, hd, hrun⟩ | ⟨hd, out, hrun⟩
  · obtain ⟨⟨a, rest⟩, hdec, heq⟩ := Option.map_eq_some_iff.mp hd
    rw [Prod.mk.injEq] at heq
    obtain ⟨rfl, rfl⟩ := heq
    have hxs := c.dec_eq_some.mp hdec
    have hle := c.length_enc_le hdec
    have hlt := len.isLt
    have hpos := List.length_pos_of_ne_nil (c.enc_ne_nil a)
    have hsize : (sz (c.enc a).length : Size T).toNat = (c.enc a).length := toNat_sz (by omega)
    have hne : (sz (c.enc a).length : Size T) ≠ sz 0 := sz_ne_zero hpos (by omega)
    have hconsumed : (sz (c.enc a).length : Size T).toNat ≤ len.toNat := by omega
    have hfront : c.enc a <+: xs := ⟨rest, hxs.symm⟩
    refine ⟨_, _, hrun, fun e he => ⟨?_, ?_⟩, fun _ => ⟨hconsumed, a, rfl, hfront, rfl, hsize,
      ?_⟩⟩
    -- two prefixes of one length are the same
    · rintro ⟨_, hlength⟩
      rw [hsize] at hlength
      exact ⟨a, (eq_of_prefix_of_length hfront he hlength).symm⟩
    · rintro ⟨a', rfl⟩
      obtain ⟨rest', hdec'⟩ := c.dec_of_front he
      rw [hdec, Option.some.injEq, Prod.mk.injEq] at hdec'
      exact ⟨hne, by rw [hsize, hdec'.1]⟩
    · rw [hsize, hxs, List.take_left]
  · refine ⟨_, out, hrun, fun e he => iff_of_false (fun hne => hne.1 rfl) ?_,
      fun hne => (hne rfl).elim⟩
    -- where nothing is decoded, no prefix is an encoding
    rintro ⟨a, rfl⟩
    obtain ⟨rest, hdec⟩ := c.dec_of_front he
    rw [hdec, Option.map_some] at hd
    cases hd

/-! ### Fields and spans of a received string -/

/-- The `n` octets from index `k` on. -/
def slice (xs : List UInt8) (k n : Nat) : List UInt8 := (xs.drop k).take n

/-- The pointer reported for a stretch of the input: null when it is empty. -/
def spanAt (p : Ptr) (k : Nat) (xs : List UInt8) : Option Ptr :=
  if xs = [] then none else some (p.add k)

section Input

variable {p : Ptr} {xs ys : List UInt8} {k n : Nat}

theorem length_slice (h : k + n ≤ xs.length) : (slice xs k n).length = n := by
  simp only [slice, List.length_take, List.length_drop]
  omega

theorem slice_append {pre post : List UInt8} (hk : k = pre.length) (hn : n = ys.length) :
    slice (pre ++ (ys ++ post)) k n = ys := by
  rw [slice, hk, List.drop_left, hn, List.take_left]

theorem slice_append_slice (m : Nat) :
    slice xs k m ++ slice xs (k + m) n = slice xs k (m + n) := by
  simp only [slice]
  rw [← List.drop_drop, ← List.take_add]

theorem slice_two (h : k + 2 ≤ xs.length) :
    slice xs k 2 = [xs.getD k 0, xs.getD (k + 1) 0] := by
  have hk : k < xs.length := by omega
  have hk' : k + 1 < xs.length := by omega
  rw [slice, List.drop_eq_getElem_cons hk, List.drop_eq_getElem_cons hk',
    List.getD_eq_getElem?_getD, List.getD_eq_getElem?_getD, List.getElem?_eq_getElem hk,
    List.getElem?_eq_getElem hk']
  rfl

theorem getD_of_agree (h : ys.take n = xs.take n) (hk : k < n) : ys.getD k 0 = xs.getD k 0 := by
  rw [List.getD_eq_getElem?_getD, List.getD_eq_getElem?_getD, ← List.getElem?_take_of_lt hk, h,
    List.getElem?_take_of_lt hk]

theorem slice_of_agree {l : Nat} (h : ys.take n = xs.take n) (hk : k + l ≤ n) :
    slice ys k l = slice xs k l := by
  have hcut : ∀ zs : List UInt8, slice zs k l = slice (zs.take n) k l := by
    intro zs
    rw [slice, slice, List.drop_take, List.take_take, Nat.min_eq_left (by omega)]
  rw [hcut ys, h, ← hcut xs]

theorem Ptr.Holds.slice (h : p.Holds xs) (hk : k + n ≤ xs.length) :
    (p.add k).Holds (slice xs k n) :=
  (h.drop k (by omega)).take n

theorem Ptr.Holds.load_getD (h : p.Holds xs) (hk : k < xs.length) :
    p.load k = .ok (xs.getD k 0) := by
  rw [h.load (List.getElem?_eq_getElem hk), List.getD_eq_getElem?_getD,
    List.getElem?_eq_getElem hk, Option.getD_some]

theorem octetsAt_spanAt (h : (p.add k).Holds ys) : octetsAt (spanAt p k ys) ys.length = ys := by
  unfold spanAt
  by_cases hys : ys = []
  · rw [if_pos hys, hys]
    rfl
  · rw [if_neg hys]
    exact h.octetsAt

theorem readable_spanAt (h : (p.add k).Holds ys) : Readable (spanAt p k ys) ys.length := by
  unfold spanAt
  by_cases hys : ys = []
  · rw [if_pos hys, hys]
    rintro q ⟨⟩
  · rw [if_neg hys]
    exact h.readable (Nat.le_refl _)

/-- The test in the C code is on the length octet. -/
theorem spanAt_of_length {len : UInt8} (h : ys.length = len.toNat) :
    (if len > 0 then some (p.add k) else none) = spanAt p k ys := by
  have hpos : len > 0 ↔ 0 < len.toNat := UInt8.lt_iff_toNat_lt
  unfold spanAt
  by_cases hlen : len > 0
  · have hlt := hpos.mp hlen
    rw [if_pos hlen, if_neg]
    exact List.ne_nil_of_length_pos (by omega)
  · have hnot := mt hpos.mpr hlen
    rw [if_neg hlen, if_pos]
    exact List.eq_nil_of_length_eq_zero (by omega)

/-- The test in the C code is on the octets that remain behind index `k`. -/
theorem spanAt_of_rest {len : Size T} (hk : k + ys.length = len.toNat) :
    (if len > sz k then some (p.add (sz k : Size T).toNat) else none) = spanAt p k ys := by
  have hlt := len.isLt
  have hpos : len > sz k ↔ 0 < ys.length := by
    rw [gt_iff_lt, sz_lt_iff (by omega)]
    omega
  rw [toNat_sz (by omega), spanAt]
  by_cases hmore : 0 < ys.length
  · rw [if_pos (hpos.mpr hmore), if_neg (List.ne_nil_of_length_pos hmore)]
  · have hnil : ys = [] := List.eq_nil_of_length_eq_zero (by omega)
    rw [if_neg (mt hpos.mp hmore), if_pos hnil]

theorem spanAt_add (j : Nat) : spanAt (p.add j) k ys = spanAt p (j + k) ys := by
  simp only [spanAt, Ptr.add_add]

theorem spanAt_eq_none : spanAt p k ys = none ↔ ys = [] := by
  unfold spanAt
  by_cases hys : ys = []
  · simp [hys]
  · simp [hys]

end Input

/-! ### What a deserialiser reads and reports -/

/-- A stretch of memory reported to the caller. -/
structure Span where
  ptr : Option Ptr
  len : Nat

/-- The span lies in the `n` octets at `p`, or is null and empty. -/
def Span.Inside (span : Span) (p : Ptr) (n : Nat) : Prop :=
  match span.ptr with
  | none => span.len = 0
  | some q => ∃ k, q = p.add k ∧ k + span.len ≤ n

/-- The run `r` ended without a fault; it consumed at most `len` octets, and on success
    the spans it reports lie in what it consumed. -/
def Within (p : Ptr) (len : Size T) (r : Except Fault (Size T × List Span)) : Prop :=
  ∃ n spans, r = .ok (n, spans) ∧ n.toNat ≤ len.toNat ∧
    (n ≠ sz 0 → ∀ span ∈ spans, span.Inside p n.toNat)

/-- The deserialiser `f` on `len` octets at `p`: it needs no octet behind them, and stays
    within them in what it reports. -/
structure SafeAt (f : Ptr → Except Fault (Size T × List Span)) (p : Ptr) (len : Size T) :
    Prop where
  bounded : Within (p.limit len.toNat) len (f (p.limit len.toNat))
  within : Within p len (f p)

section Reports

variable {p : Ptr} {xs ys : List UInt8} {k m n : Nat} {len : Size T}

theorem Span.inside_spanAt (hm : m ≤ ys.length) (hn : ys = [] ∨ k + ys.length ≤ n) :
    (Span.mk (spanAt p k ys) m).Inside p n := by
  by_cases hys : ys = []
  · rw [spanAt, if_pos hys]
    rw [hys, List.length_nil] at hm
    exact Nat.le_zero.mp hm
  · rw [spanAt, if_neg hys]
    have hfit := hn.resolve_left hys
    exact ⟨k, rfl, by change k + m ≤ n; omega⟩

theorem Within.refused {spans : List Span} : Within p len (.ok (sz 0, spans)) := by
  refine ⟨sz 0, spans, rfl, ?_, fun hne => (hne rfl).elim⟩
  rw [toNat_sz (Nat.two_pow_pos _)]
  exact Nat.zero_le _

/-- From a decoder with a bound on what it consumes and reports. -/
theorem Decodes.within {γ : Type} {r : Except Fault (Size T × σ)} {d : Option γ}
    {g : γ → Nat × σ} (h : Decodes r (d.map g)) (spans : σ → List Span)
    (hd : ∀ a, d = some a →
      (g a).1 ≤ len.toNat ∧ ∀ span ∈ spans (g a).2, span.Inside p (g a).1) :
    Within p len (r.map fun out => (out.1, spans out.2)) := by
  rcases h.run with ⟨n, s, hsome, hrun⟩ | ⟨_, s, hrun⟩
  · obtain ⟨a, ha, heq⟩ := Option.map_eq_some_iff.mp hsome
    obtain ⟨hle, hspans⟩ := hd a ha
    rw [heq] at hle hspans
    have hn : (sz n : Size T).toNat = n := toNat_sz (Nat.lt_of_le_of_lt hle len.isLt)
    refine ⟨sz n, spans s, by rw [hrun]; rfl, by rwa [hn], fun _ => ?_⟩
    rwa [hn]
  · rw [hrun]
    exact Within.refused

/-- What holds wherever the octets are readable holds where nothing else is. -/
theorem SafeAt.of_within {f : Ptr → Except Fault (Size T × List Span)}
    (hlen : len.toNat ≤ p.readable.length)
    (h : ∀ (q : Ptr) (xs : List UInt8), q.Holds xs → xs.length = len.toNat →
      Within q len (f q)) : SafeAt f p len := by
  have hlength : (p.readable.take len.toNat).length = len.toNat := List.length_take_of_le hlen
  constructor
  · refine h _ (p.readable.take len.toNat) ?_ hlength
    unfold Ptr.Holds
    rw [Ptr.readable_limit]
  · exact h _ _ (List.take_prefix _ _) hlength

end Reports

end CMemory
