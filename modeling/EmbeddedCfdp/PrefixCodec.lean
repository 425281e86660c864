import Mathlib.Tactic

/-!
# Prefix codecs and their chains

A prefix codec is an encoder together with a decoder that reads exactly one
encoding off the front of its input: it succeeds precisely on the strings that
start with an encoding, and what it leaves is what follows.  Such a code is
uniquely decodable, so a string is a chain of encodings in at most one way.

`walk` runs over a chain from left to right, updating a state with each decoded
item, the way a receiving loop does; `walk_eq_some` splits it into parsing the
whole chain first and folding over the parsed items afterwards.
-/

/-- An encoder and a decoder for single items at the front of a string. -/
structure PrefixCodec (σ α : Type) where
  enc : α → List σ
  dec : List σ → Option (α × List σ)
  dec_eq_some : ∀ {xs : List σ} {a : α} {rest : List σ},
    dec xs = some (a, rest) ↔ xs = enc a ++ rest
  enc_ne_nil : ∀ a : α, enc a ≠ []

namespace PrefixCodec

variable {σ α β : Type} (c : PrefixCodec σ α)

theorem dec_enc (a : α) (rest : List σ) : c.dec (c.enc a ++ rest) = some (a, rest) :=
  c.dec_eq_some.mpr rfl

theorem dec_of_front {a : α} {xs : List σ} (h : c.enc a <+: xs) :
    ∃ rest, c.dec xs = some (a, rest) := by
  obtain ⟨rest, rfl⟩ := h
  exact ⟨rest, c.dec_enc a rest⟩

theorem length_enc_le {xs rest : List σ} {a : α} (h : c.dec xs = some (a, rest)) :
    (c.enc a).length ≤ xs.length := by
  rw [c.dec_eq_some.mp h, List.length_append]
  exact Nat.le_add_right _ _

/-- The encodings of a list of items, one after another. -/
def chain (items : List α) : List σ := items.flatMap c.enc

@[simp] theorem chain_nil : c.chain [] = [] := rfl

@[simp] theorem chain_cons (a : α) (items : List α) :
    c.chain (a :: items) = c.enc a ++ c.chain items := rfl

@[simp] theorem chain_append (items items' : List α) :
    c.chain (items ++ items') = c.chain items ++ c.chain items' :=
  List.flatMap_append

theorem chain_eq_nil {items : List α} : c.chain items = [] ↔ items = [] := by
  cases items with
  | nil => simp
  | cons a items => simp [c.enc_ne_nil a]

theorem length_le_chain (items : List α) : items.length ≤ (c.chain items).length := by
  induction items with
  | nil => exact Nat.le_refl 0
  | cons a items ih =>
    have hpos : 0 < (c.enc a).length := List.length_pos_iff.mpr (c.enc_ne_nil a)
    rw [chain_cons, List.length_cons, List.length_append]
    omega

/-- A string is a chain in at most one way. -/
theorem chain_injective {items items' : List α} (h : c.chain items = c.chain items') :
    items = items' := by
  induction items generalizing items' with
  | nil => exact (c.chain_eq_nil.mp h.symm).symm
  | cons a items ih =>
    cases items' with
    | nil => exact (c.enc_ne_nil a (List.append_eq_nil_iff.mp h).1).elim
    | cons a' items' =>
      have hdec := c.dec_enc a (c.chain items)
      rw [← chain_cons, h, chain_cons, c.dec_enc] at hdec
      simp only [Option.some.injEq, Prod.mk.injEq] at hdec
      obtain ⟨rfl, hrest⟩ := hdec
      rw [ih hrest.symm]

/-- A chain that starts with a chain goes on with a chain. -/
theorem chain_eq_append {items front : List α} {ys : List σ}
    (h : c.chain items = c.chain front ++ ys) :
    ∃ back, items = front ++ back ∧ c.chain back = ys := by
  induction front generalizing items with
  | nil => exact ⟨items, rfl, h⟩
  | cons a front ih =>
    cases items with
    | nil => exact (c.enc_ne_nil a (List.append_eq_nil_iff.mp
        (List.append_eq_nil_iff.mp h.symm).1).1).elim
    | cons a' items =>
      have hdec := c.dec_enc a' (c.chain items)
      rw [← chain_cons, h, chain_cons, List.append_assoc, c.dec_enc] at hdec
      simp only [Option.some.injEq, Prod.mk.injEq] at hdec
      obtain ⟨rfl, hrest⟩ := hdec
      obtain ⟨back, rfl, hback⟩ := ih hrest.symm
      exact ⟨back, rfl, hback⟩

/-- Behind a chain in front of it, a chain that has not ended decodes. -/
theorem dec_of_chain {items : List α} {ys : List σ} (h : c.chain items = ys) (hne : ys ≠ []) :
    ∃ a back, items = a :: back ∧ c.dec ys = some (a, c.chain back) := by
  cases items with
  | nil => exact (hne h.symm).elim
  | cons a back => exact ⟨a, back, rfl, by rw [← h, chain_cons, c.dec_enc]⟩

/-- Every string starts with a chain that goes as far as there is anything to decode. -/
theorem exists_chain (xs : List σ) :
    ∃ items rest, xs = c.chain items ++ rest ∧ (rest = [] ∨ c.dec rest = none) := by
  induction hn : xs.length using Nat.strong_induction_on generalizing xs with
  | _ n ih =>
    cases hdec : c.dec xs with
    | none => exact ⟨[], xs, rfl, Or.inr hdec⟩
    | some r =>
      obtain ⟨a, ys⟩ := r
      have hxs := c.dec_eq_some.mp hdec
      have hpos : 0 < (c.enc a).length := List.length_pos_iff.mpr (c.enc_ne_nil a)
      have hshort : ys.length < n := by
        rw [← hn, hxs, List.length_append]
        omega
      obtain ⟨items, rest, hys, hstop⟩ := ih ys.length hshort ys rfl
      exact ⟨a :: items, rest, by rw [hxs, hys, chain_cons, List.append_assoc], hstop⟩

/-! ### Narrowing a codec -/

/-- The codec for those items of `c` that are the image of some `a` under `print`,
    with `parse` as the partial inverse of `print`. -/
def refine {γ : Type} (print : γ → α) (parse : α → Option γ)
    (hparse : ∀ {a g}, parse a = some g ↔ a = print g) : PrefixCodec σ γ where
  enc g := c.enc (print g)
  dec xs := (c.dec xs).bind fun r => (parse r.1).map fun g => (g, r.2)
  dec_eq_some := by
    intro xs g rest
    constructor
    · intro h
      obtain ⟨⟨a, rest'⟩, hdec, hmap⟩ := Option.bind_eq_some_iff.mp h
      obtain ⟨g', hg, hpair⟩ := Option.map_eq_some_iff.mp hmap
      rw [Prod.mk.injEq] at hpair
      obtain ⟨rfl, rfl⟩ := hpair
      have ha : a = print g' := hparse.mp hg
      rw [c.dec_eq_some.mp hdec, ha]
    · rintro rfl
      simp [c.dec_enc, hparse.mpr rfl]
  enc_ne_nil g := c.enc_ne_nil (print g)

theorem chain_refine {γ : Type} {print : γ → α} {parse : α → Option γ}
    {hparse : ∀ {a g}, parse a = some g ↔ a = print g} (items : List γ) :
    (c.refine print parse hparse).chain items = c.chain (items.map print) := by
  simp only [chain, List.flatMap_map]
  rfl

/-- Every string starts with a chain of items with `P` that goes as far as there are any. -/
theorem exists_chain_of (P : α → Prop) (xs : List σ) :
    ∃ items rest, xs = c.chain items ++ rest ∧ (∀ a ∈ items, P a) ∧
      (rest = [] ∨ ∀ a rest', rest = c.enc a ++ rest' → ¬ P a) := by
  classical
  have hparse : ∀ {a : α} {g : Subtype P},
      (if h : P a then some (⟨a, h⟩ : Subtype P) else none) = some g ↔ a = g.val := by
    intro a g
    rw [Option.dite_none_right_eq_some]
    constructor
    · rintro ⟨_, hg⟩
      exact congrArg Subtype.val (Option.some.inj hg)
    · rintro rfl
      exact ⟨g.property, rfl⟩
  obtain ⟨items, rest, hxs, hstop⟩ :=
    (c.refine Subtype.val (fun a => if h : P a then some ⟨a, h⟩ else none) hparse).exists_chain xs
  refine ⟨items.map Subtype.val, rest, ?_, ?_, hstop.imp_right ?_⟩
  · rw [hxs, chain_refine]
  · intro a ha
    obtain ⟨g, _, rfl⟩ := List.mem_map.mp ha
    exact g.property
  · rintro hnone a rest' rfl hP
    -- an item with `P` would have been decoded
    have hdec := (c.refine Subtype.val _ hparse).dec_enc ⟨a, hP⟩ rest'
    have hsame : (c.refine Subtype.val _ hparse).enc ⟨a, hP⟩ = c.enc a := rfl
    rw [hsame, hnone] at hdec
    cases hdec

/-! ### Walking a chain -/

/-- Decode items off the front until the string is used up, updating a state with
    each; `fuel` bounds the number of items. -/
def walk (step : β → α → Option β) : Nat → List σ → β → Option β
  | _, [], s => some s
  | 0, _ :: _, _ => none
  | fuel + 1, x :: xs, s =>
      match c.dec (x :: xs) with
      | none => none
      | some (a, rest) =>
          match step s a with
          | none => none
          | some s' => walk step fuel rest s'

theorem walk_chain (step : β → α → Option β) (items : List α) (fuel : Nat) (s : β)
    (hfuel : (c.chain items).length ≤ fuel) :
    c.walk step fuel (c.chain items) s = items.foldlM step s := by
  induction items generalizing fuel s with
  | nil => cases fuel <;> rfl
  | cons a items ih =>
    have hpos : 0 < (c.enc a).length := List.length_pos_iff.mpr (c.enc_ne_nil a)
    rw [chain_cons, List.length_append] at hfuel
    obtain ⟨x, xs, hx⟩ : ∃ x xs, c.chain (a :: items) = x :: xs :=
      List.exists_cons_of_ne_nil fun h => by simpa using c.chain_eq_nil.mp h
    cases fuel with
    | zero => omega
    | succ fuel =>
      have hdec : c.dec (x :: xs) = some (a, c.chain items) := by
        rw [← hx, chain_cons, c.dec_enc]
      rw [hx, List.foldlM_cons]
      simp only [walk, hdec]
      cases hstep : step s a with
      | none => rfl
      | some s' => exact ih fuel s' (by omega)

/-- A walk that succeeds has read a chain and folded over its items. -/
theorem walk_eq_some {step : β → α → Option β} {fuel : Nat} {xs : List σ} {s s' : β}
    (hfuel : xs.length ≤ fuel) :
    c.walk step fuel xs s = some s' ↔
      ∃ items, xs = c.chain items ∧ items.foldlM step s = some s' := by
  constructor
  · intro h
    clear hfuel
    induction fuel generalizing xs s with
    | zero =>
      cases xs with
      | nil => exact ⟨[], rfl, h⟩
      | cons x xs => simp [walk] at h
    | succ fuel ih =>
      cases xs with
      | nil => exact ⟨[], rfl, h⟩
      | cons x xs =>
        rw [walk] at h
        cases hdec : c.dec (x :: xs) with
        | none => simp [hdec] at h
        | some r =>
          obtain ⟨a, rest⟩ := r
          cases hstep : step s a with
          | none => simp [hdec, hstep] at h
          | some s₁ =>
            simp only [hdec, hstep] at h
            obtain ⟨items, rfl, hfold⟩ := ih h
            refine ⟨a :: items, ?_, ?_⟩
            · rw [chain_cons, c.dec_eq_some.mp hdec]
            · rw [List.foldlM_cons, hstep]
              exact hfold
  · rintro ⟨items, rfl, hfold⟩
    rw [c.walk_chain step items fuel s hfuel, hfold]

end PrefixCodec
