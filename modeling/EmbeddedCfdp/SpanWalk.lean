import EmbeddedCfdp.CodecRules

/-!
# Walking a span of items

A receiver runs over encoded items that stand one after another by decoding an item and
advancing by what was consumed.  All that the loop needs to know of its decoding step is
which items it takes off the front of what is left, and what it returns 0 for.
-/

namespace CMemory

variable {T : Target} {α β γ : Type}

/-- The receiver's loop over a span.  It ends at the end of the octets, with the position, or
    where a step returned 0, with none. -/
def walkSpan (step : Ptr → Size T → Except Fault (Size T × Option β)) (span : Option Ptr)
    (len : Size T) : (fuel : Nat) → (pos : Size T) → Except Fault (Option (Size T) × List β)
  | 0, _ => .error .unfinished
  | fuel + 1, pos =>
      if ¬ pos < len then return (some pos, [])
      else do
        let (n, item) ← step ((← deref span).add pos.toNat) (← Size.sub len pos)
        if n = sz 0 then return (none, [])
        let (stop, items) ← walkSpan step span len fuel (pos + n)
        return (stop, item.toList ++ items)

/-- Wherever the encoding of `t` stands, the step takes it off and finds something with `R`. -/
def TakesOff (c : PrefixCodec UInt8 α) (step : Ptr → Size T → Except Fault (Size T × Option β))
    (t : α) (R : β → Prop) : Prop :=
  ∀ (p : Ptr) (rest : List UInt8) (len : Size T), p.Holds (c.enc t ++ rest) →
    (c.enc t ++ rest).length = len.toNat →
    ∃ b, step p len = .ok (sz (c.enc t).length, some b) ∧ R b

/-- Wherever `xs` stands, the step returns 0. -/
def Refuses (step : Ptr → Size T → Except Fault (Size T × Option β)) (xs : List UInt8) : Prop :=
  ∀ (p : Ptr) (len : Size T), p.Holds xs → xs.length = len.toNat →
    ∃ out, step p len = .ok (sz 0, out)

section Walk

variable {c : PrefixCodec UInt8 α} {step : Ptr → Size T → Except Fault (Size T × Option β)}
  {p : Ptr} {len : Size T} {k fuel : Nat}

theorem walkSpan_end (span : Option Ptr) (hk : k = len.toNat) :
    walkSpan step span len (fuel + 1) (sz k) = .ok (some len, []) := by
  have hself : (sz k : Size T) = len := by rw [hk, sz_toNat]
  have hdone : ¬ len < len := BitVec.lt_irrefl len
  rw [walkSpan, hself, if_pos hdone]
  rfl

/-- Before the end, the step decides. -/
theorem walkSpan_before (hk : k < len.toNat) :
    walkSpan step (some p) len (fuel + 1) (sz k) = (do
      let (n, item) ← step (p.add k) (sz (len.toNat - k))
      if n = sz 0 then return (none, [])
      let (stop, items) ← walkSpan step (some p) len fuel (sz k + n)
      return (stop, item.toList ++ items)) := by
  have hlt := len.isLt
  have hpos : (sz k : Size T).toNat = k := toNat_sz (by omega)
  have hmore : ¬ ¬ (sz k : Size T) < len := by
    rw [not_not, sz_lt_iff (by omega)]
    exact hk
  rw [walkSpan, if_neg hmore, deref, ok_bind, sub_sz_left (Nat.le_of_lt hk), ok_bind, hpos]

/-- **Main result.** The loop from `k` on, where a chain of items that the step takes off is
    followed by `rest`: it finds the items in order, and gets behind the chain only if that is
    the end. -/
theorem walkSpan_run {R : γ → β → Prop} {xs : List γ} {items : List α}
    (hitems : List.Forall₂ (fun x t => TakesOff c step t (R x)) xs items) {rest : List UInt8}
    (h : (p.add k).Holds (c.chain items ++ rest))
    (hlen : k + (c.chain items ++ rest).length = len.toNat) (hstop : rest = [] ∨ Refuses step rest)
    (hfuel : items.length < fuel) :
    ∃ found, walkSpan step (some p) len fuel (sz k) =
      .ok (if rest = [] then some len else none, found) ∧ List.Forall₂ R xs found := by
  have hlt := len.isLt
  induction hitems generalizing k fuel with
  | nil =>
    obtain ⟨fuel, rfl⟩ := Nat.exists_eq_succ_of_ne_zero (Nat.ne_zero_of_lt hfuel)
    rw [PrefixCodec.chain_nil, List.nil_append] at h hlen
    refine ⟨[], ?_, List.Forall₂.nil⟩
    -- behind the chain there is the end of the span, or what the step returns 0 for
    rcases hstop with rfl | hrefuses
    · rw [if_pos rfl]
      exact walkSpan_end _ hlen
    · by_cases hend : rest = []
      · subst hend
        rw [if_pos rfl]
        exact walkSpan_end _ hlen
      · have hpos := List.length_pos_of_ne_nil hend
        obtain ⟨out, hrun⟩ := hrefuses _ (sz (len.toNat - k)) h (by rw [toNat_sz_sub]; omega)
        rw [walkSpan_before (by omega), hrun, ok_bind, if_neg hend]
        dsimp only
        rw [if_pos rfl]
        rfl
  | @cons x t xs items htakes _ ih =>
    obtain ⟨fuel, rfl⟩ := Nat.exists_eq_succ_of_ne_zero (Nat.ne_zero_of_lt hfuel)
    rw [List.length_cons] at hfuel
    rw [PrefixCodec.chain_cons, List.append_assoc] at h hlen
    have hsum : (c.enc t ++ (c.chain items ++ rest)).length =
        (c.enc t).length + (c.chain items ++ rest).length := List.length_append
    have hhead : 0 < (c.enc t).length := List.length_pos_of_ne_nil (c.enc_ne_nil t)
    obtain ⟨b, hrun, hb⟩ := htakes _ _ (sz (len.toNat - k)) h (by rw [toNat_sz_sub]; omega)
    have hbehind := h.right
    rw [Ptr.add_add] at hbehind
    obtain ⟨found, hwalk, hfound⟩ :=
      @ih (k + (c.enc t).length) fuel hbehind (by omega) (by omega)
    refine ⟨b :: found, ?_, List.Forall₂.cons hb hfound⟩
    rw [walkSpan_before (by omega), hrun, ok_bind]
    dsimp only
    rw [if_neg (sz_ne_zero hhead (by omega)), sz_add, hwalk, ok_bind]
    rfl

/-- A chain is walked to its end, from a pointer that may be null where there are no items. -/
theorem walkSpan_chain {R : γ → β → Prop} {xs : List γ} {items : List α} {span : Option Ptr}
    (hitems : List.Forall₂ (fun x t => TakesOff c step t (R x)) xs items)
    (hspan : c.chain items = [] ∨ ∃ p, span = some p ∧ p.Holds (c.chain items))
    (hlen : (c.chain items).length = len.toNat) (hfuel : (c.chain items).length < fuel) :
    ∃ found, walkSpan step span len fuel (sz 0) = .ok (some len, found) ∧
      List.Forall₂ R xs found := by
  rcases hspan with hnil | ⟨p, rfl, hholds⟩
  · obtain ⟨fuel, rfl⟩ := Nat.exists_eq_succ_of_ne_zero (Nat.ne_zero_of_lt hfuel)
    rw [hnil, List.length_nil] at hlen
    rw [PrefixCodec.chain_eq_nil] at hnil
    subst hnil
    rw [List.forall₂_nil_right_iff.mp hitems]
    exact ⟨[], walkSpan_end span hlen, List.Forall₂.nil⟩
  · have hcount := c.length_le_chain items
    have hwalk := @walkSpan_run T α β γ c step p len 0 fuel R xs items hitems []
      (by rw [List.append_nil]; exact hholds) (by rw [List.append_nil, Nat.zero_add, hlen])
      (Or.inl rfl) (by omega)
    rwa [if_pos rfl] at hwalk

/-- The loop comes to an end on any octets, if its step takes off the items with `P` and
    returns 0 for everything else. -/
theorem walkSpan_any {P : α → Prop} {R : α → β → Prop}
    (htakes : ∀ t, P t → TakesOff c step t (R t))
    (hrefuses : ∀ xs, (∀ t rest, xs = c.enc t ++ rest → ¬ P t) → Refuses step xs)
    {xs : List UInt8} (h : p.Holds xs) (hlen : xs.length = len.toNat)
    (hfuel : xs.length < fuel) :
    ∃ items rest found, xs = c.chain items ++ rest ∧ (∀ t ∈ items, P t) ∧
      walkSpan step (some p) len fuel (sz 0) =
        .ok (if rest = [] then some len else none, found) ∧ List.Forall₂ R items found := by
  obtain ⟨items, rest, rfl, hall, hstop⟩ := c.exists_chain_of P xs
  have hcount := c.length_le_chain items
  rw [List.length_append] at hfuel
  have hitems : List.Forall₂ (fun t t' => TakesOff c step t' (R t)) items items :=
    List.forall₂_same.mpr fun t ht => htakes t (hall t ht)
  obtain ⟨found, hwalk, hfound⟩ := @walkSpan_run T α β α c step p len 0 fuel R items items hitems
    rest h (by rw [Nat.zero_add, hlen]) (hstop.imp_right fun hnone => hrefuses rest hnone)
    (by omega)
  exact ⟨items, rest, found, rfl, hall, hwalk, hfound⟩

end Walk

end CMemory
