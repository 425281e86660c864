import Mathlib.Tactic
import Mathlib.Algebra.Polynomial.Div
import Mathlib.Algebra.Polynomial.FieldDivision
import Mathlib.Data.ZMod.Basic

/-!
# Shift registers as remainders over GF(2)

A CRC of width `n` is a register of `n` bits that is shifted left once per message
bit and, when a one falls out, combined with the generator polynomial by exclusive
or.  This module reads registers and messages as polynomials over `ZMod 2` and
proves that the register computes a remainder modulo `X ^ n + g`.  From that follow
the two classical detection properties: a generator with constant term one divides
no non-zero burst of at most `n` bits, and a generator with an even number of terms
divides no polynomial with an odd number of terms.

Registers, generators and messages are arbitrary; the width is a parameter.
-/

namespace CrcRegister

open Polynomial

/-! ### The register -/

variable {n : Nat}

/-- One shift of the register: the generator is subtracted when a one falls out. -/
def shift (g c : BitVec n) : BitVec n := if c.msb then (c <<< 1) ^^^ g else c <<< 1

/-- `k` shifts. -/
def shifts (g : BitVec n) : Nat → BitVec n → BitVec n
  | 0, c => c
  | k + 1, c => shifts g k (shift g c)

/-- Feed one `k`-bit symbol, aligned with the top of the register. -/
def feed (g : BitVec n) {k : Nat} (c : BitVec n) (d : BitVec k) : BitVec n :=
  shifts g k (c ^^^ (d.setWidth n <<< (n - k)))

/-- Feed a message, symbol after symbol. -/
def run (g : BitVec n) {k : Nat} (c : BitVec n) (ds : List (BitVec k)) : BitVec n :=
  ds.foldl (feed g) c

/-! ### Bits as polynomials -/

noncomputable section

/-- A bit as an element of the field with two elements. -/
def bit (b : Bool) : ZMod 2 := if b then 1 else 0

@[simp] theorem bit_false : bit false = 0 := rfl

@[simp] theorem bit_true : bit true = 1 := rfl

theorem bit_xor (a b : Bool) : bit (a ^^ b) = bit a + bit b := by
  cases a <;> cases b <;> decide

/-- The polynomial of a register, bit `i` being the coefficient of `X ^ i`. -/
def toPoly (c : BitVec n) : (ZMod 2)[X] := ∑ i ∈ Finset.range n, C (bit (c.getLsbD i)) * X ^ i

theorem coeff_toPoly (c : BitVec n) (i : Nat) : (toPoly c).coeff i = bit (c.getLsbD i) := by
  simp only [toPoly, finsetSum_coeff, coeff_C_mul_X_pow]
  rw [Finset.sum_ite_eq (Finset.range n) i]
  by_cases hi : i < n
  · simp [hi]
  · simp [hi, BitVec.getLsbD_of_ge c i (by omega)]

theorem toPoly_zero : toPoly (0#n) = 0 := by
  ext i
  simp [coeff_toPoly]

theorem toPoly_xor (c d : BitVec n) : toPoly (c ^^^ d) = toPoly c + toPoly d := by
  ext i
  rw [coeff_add, coeff_toPoly, coeff_toPoly, coeff_toPoly, BitVec.getLsbD_xor, bit_xor]

theorem degree_toPoly_lt (c : BitVec n) : (toPoly c).degree < n := by
  rw [degree_lt_iff_coeff_zero]
  intro i hi
  rw [coeff_toPoly, BitVec.getLsbD_of_ge c i hi, bit_false]

theorem toPoly_injective : Function.Injective (toPoly (n := n)) := by
  intro c d h
  apply BitVec.eq_of_getLsbD_eq
  intro i _
  have hcoeff : bit (c.getLsbD i) = bit (d.getLsbD i) := by
    rw [← coeff_toPoly, ← coeff_toPoly, h]
  revert hcoeff
  cases c.getLsbD i <;> cases d.getLsbD i <;> decide

/-- A symbol aligned with the top of a wider register. -/
theorem toPoly_align {k : Nat} (hk : k ≤ n) (d : BitVec k) :
    toPoly (d.setWidth n <<< (n - k)) = X ^ (n - k) * toPoly d := by
  ext i
  rw [coeff_X_pow_mul', coeff_toPoly, BitVec.getLsbD_shiftLeft, BitVec.getLsbD_setWidth]
  by_cases hi : n - k ≤ i
  · rw [if_pos hi, coeff_toPoly]
    by_cases hn : i < n
    · have hlt : ¬ i < n - k := by omega
      have hsub : i - (n - k) < n := by omega
      simp [hn, hlt, hsub]
    · simp [hn, BitVec.getLsbD_of_ge d (i - (n - k)) (by omega)]
  · rw [if_neg hi]
    have hlt : i < n - k := by omega
    simp [hlt]

/-- The polynomial of a bit string, the first bit being the leading coefficient. -/
def bitsPoly : List Bool → (ZMod 2)[X]
  | [] => 0
  | b :: bs => C (bit b) * X ^ bs.length + bitsPoly bs

theorem bitsPoly_append (xs ys : List Bool) :
    bitsPoly (xs ++ ys) = X ^ ys.length * bitsPoly xs + bitsPoly ys := by
  induction xs with
  | nil => simp [bitsPoly]
  | cons b xs ih =>
    simp only [List.cons_append, bitsPoly, ih, List.length_append]
    ring

theorem degree_bitsPoly_lt (bs : List Bool) : (bitsPoly bs).degree < bs.length := by
  induction bs with
  | nil => simp [bitsPoly]
  | cons b bs ih =>
    have hhead : (C (bit b) * X ^ bs.length).degree ≤ (bs.length : WithBot Nat) :=
      degree_C_mul_X_pow_le _ _
    have hlt : (bs.length : WithBot Nat) < (bs.length + 1 : Nat) := by
      exact_mod_cast Nat.lt_succ_self bs.length
    rw [bitsPoly, List.length_cons]
    exact lt_of_le_of_lt (degree_add_le _ _) (max_lt (lt_of_le_of_lt hhead hlt) (ih.trans hlt))

theorem bitsPoly_of_all_false {bs : List Bool} (h : ∀ b ∈ bs, b = false) : bitsPoly bs = 0 := by
  induction bs with
  | nil => rfl
  | cons b bs ih =>
    have hb : b = false := h b (by simp)
    rw [bitsPoly, hb, ih fun a ha => h a (by simp [ha])]
    simp

theorem all_false_of_bitsPoly {bs : List Bool} (h : bitsPoly bs = 0) : ∀ b ∈ bs, b = false := by
  induction bs with
  | nil => simp
  | cons b bs ih =>
    -- the leading bit is the leading coefficient
    have hcoeff : (bitsPoly (b :: bs)).coeff bs.length = bit b := by
      rw [bitsPoly, coeff_add, coeff_C_mul_X_pow, if_pos rfl,
        coeff_eq_zero_of_degree_lt (degree_bitsPoly_lt bs), add_zero]
    have hb : b = false := by
      rw [h, coeff_zero] at hcoeff
      cases b
      · rfl
      · exact absurd hcoeff (by decide)
    have hrest : bitsPoly bs = 0 := by
      rw [bitsPoly, hb] at h
      simpa using h
    intro a ha
    rcases List.mem_cons.mp ha with rfl | ha
    · exact hb
    · exact ih hrest a ha

/-- Evaluated at one, a bit string counts its ones modulo two. -/
theorem eval_one_bitsPoly (bs : List Bool) : (bitsPoly bs).eval 1 = (bs.count true : ZMod 2) := by
  induction bs with
  | nil => simp [bitsPoly]
  | cons b bs ih =>
    rw [bitsPoly, eval_add, ih]
    cases b <;> simp [add_comm]

theorem coeff_bitsPoly (bs : List Bool) (j : Nat) :
    (bitsPoly bs).coeff j = bit (bs.reverse.getD j false) := by
  induction bs with
  | nil => simp [bitsPoly]
  | cons b bs ih =>
    rw [bitsPoly, coeff_add, ih, coeff_C_mul_X_pow, List.reverse_cons,
      List.getD_eq_getElem?_getD, List.getD_eq_getElem?_getD]
    rcases lt_trichotomy j bs.length with hj | rfl | hj
    · rw [if_neg (by omega), List.getElem?_append_left (by simpa using hj), zero_add]
    · rw [if_pos rfl, List.getElem?_eq_none (by simp), List.getElem?_append_right (by simp)]
      simp
    · rw [if_neg (by omega), List.getElem?_eq_none (by simp; omega),
        List.getElem?_eq_none (by simp; omega), zero_add]

/-- The bits of a symbol in wire order, most significant first. -/
def symbolBits {k : Nat} (d : BitVec k) : List Bool := (List.range k).map d.getMsbD

@[simp] theorem length_symbolBits {k : Nat} (d : BitVec k) : (symbolBits d).length = k := by
  simp [symbolBits]

theorem bitsPoly_symbolBits {k : Nat} (d : BitVec k) : bitsPoly (symbolBits d) = toPoly d := by
  ext j
  rw [coeff_bitsPoly, coeff_toPoly, List.getD_eq_getElem?_getD]
  by_cases hj : j < k
  · have hlen : j < (symbolBits d).length := by simpa using hj
    have hmsb : k - 1 - j < k := by omega
    have hidx : k - 1 - (k - 1 - j) = j := by omega
    rw [List.getElem?_reverse hlen, length_symbolBits, symbolBits, List.getElem?_map,
      List.getElem?_range hmsb, Option.map_some, Option.getD_some, BitVec.getMsbD]
    simp [hmsb, hidx]
  · rw [List.getElem?_eq_none (by simp; omega), BitVec.getLsbD_of_ge d j (by omega)]
    rfl

/-- The bits of a message in wire order. -/
def messageBits {k : Nat} (ds : List (BitVec k)) : List Bool := ds.flatMap symbolBits

theorem messageBits_cons {k : Nat} (d : BitVec k) (ds : List (BitVec k)) :
    messageBits (d :: ds) = symbolBits d ++ messageBits ds := rfl

@[simp] theorem length_messageBits {k : Nat} (ds : List (BitVec k)) :
    (messageBits ds).length = k * ds.length := by
  induction ds with
  | nil => simp [messageBits]
  | cons d ds ih =>
    rw [messageBits_cons, List.length_append, length_symbolBits, ih, List.length_cons,
      Nat.mul_succ, Nat.add_comm]

/-- The message as a polynomial, the first bit being the leading coefficient. -/
def messagePoly {k : Nat} (ds : List (BitVec k)) : (ZMod 2)[X] := bitsPoly (messageBits ds)

theorem messagePoly_cons {k : Nat} (d : BitVec k) (ds : List (BitVec k)) :
    messagePoly (d :: ds) = X ^ (k * ds.length) * toPoly d + messagePoly ds := by
  rw [messagePoly, messageBits_cons, bitsPoly_append, length_messageBits, bitsPoly_symbolBits,
    messagePoly]

theorem messagePoly_zipWith_xor {k : Nat} {ds es : List (BitVec k)}
    (hlen : ds.length = es.length) :
    messagePoly (List.zipWith (· ^^^ ·) ds es) = messagePoly ds + messagePoly es := by
  induction ds generalizing es with
  | nil =>
    have hes : es = [] := List.eq_nil_of_length_eq_zero hlen.symm
    rw [hes, List.zipWith_nil_left]
    simp [messagePoly, messageBits, bitsPoly]
  | cons d ds ih =>
    cases es with
    | nil => simp at hlen
    | cons e es =>
      have htail : ds.length = es.length := by simpa using hlen
      rw [List.zipWith_cons_cons, messagePoly_cons, messagePoly_cons, messagePoly_cons, ih htail,
        toPoly_xor, List.length_zipWith, htail, min_self]
      ring

/-- The polynomial of two joined registers. -/
theorem toPoly_append {k : Nat} (c : BitVec n) (d : BitVec k) :
    toPoly (c ++ d) = X ^ k * toPoly c + toPoly d := by
  ext j
  rw [coeff_toPoly, coeff_add, coeff_X_pow_mul', coeff_toPoly, BitVec.getLsbD_append]
  by_cases hj : j < k
  · have hlt : ¬ k ≤ j := by omega
    rw [if_pos hj, if_neg hlt, zero_add, coeff_toPoly]
  · have hge : k ≤ j := by omega
    rw [if_neg hj, if_pos hge, coeff_toPoly, BitVec.getLsbD_of_ge d j hge, bit_false, add_zero]

/-! ### The register is a remainder -/

/-- The generator polynomial, whose leading term the register leaves implicit. -/
def generator (g : BitVec n) : (ZMod 2)[X] := X ^ n + toPoly g

theorem generator_monic (g : BitVec n) : (generator g).Monic :=
  monic_X_pow_add (degree_toPoly_lt g)

theorem degree_generator (g : BitVec n) : (generator g).degree = n := by
  have hlt : (toPoly g).degree < (X ^ n : (ZMod 2)[X]).degree := by
    rw [degree_X_pow]
    exact degree_toPoly_lt g
  rw [generator, degree_add_eq_left_of_degree_lt hlt, degree_X_pow]

theorem toPoly_shiftLeft_one (hn : 0 < n) (c : BitVec n) :
    toPoly (c <<< 1) = X * toPoly c + C (bit c.msb) * X ^ n := by
  ext j
  rw [coeff_add, coeff_C_mul_X_pow, coeff_toPoly, BitVec.getLsbD_shiftLeft]
  cases j with
  | zero => simp [hn.ne]
  | succ j =>
    rw [coeff_X_mul, coeff_toPoly]
    -- only the top bit leaves the register; it turns up at the power n
    rcases lt_trichotomy (j + 1) n with hj | hj | hj
    · have hne : ¬ j + 1 = n := by omega
      simp [hj, hne]
    · have hlast : n - 1 = j := by omega
      have hmsb : c.msb = c.getLsbD j := by rw [BitVec.msb_eq_getLsbD_last, hlast]
      have hnot : ¬ j + 1 < n := by omega
      rw [if_pos hj, hmsb]
      simp only [hnot, decide_false, Bool.false_and, bit_false]
      cases c.getLsbD j <;> decide
    · have hne : ¬ j + 1 = n := by omega
      have hnot : ¬ j + 1 < n := by omega
      simp [hnot, hne, BitVec.getLsbD_of_ge c j (by omega)]

/-- Shifting multiplies by `X` modulo the generator. -/
theorem toPoly_shift (hn : 0 < n) (g c : BitVec n) :
    toPoly (shift g c) = X * toPoly c + C (bit c.msb) * generator g := by
  unfold shift
  by_cases h : c.msb = true
  · rw [if_pos h, toPoly_xor, toPoly_shiftLeft_one hn, h, generator]
    simp only [bit_true, map_one, one_mul]
    ring
  · rw [if_neg h, toPoly_shiftLeft_one hn, Bool.eq_false_iff.mpr h]
    simp

theorem toPoly_shifts (hn : 0 < n) (g : BitVec n) (k : Nat) (c : BitVec n) :
    ∃ q, toPoly (shifts g k c) = X ^ k * toPoly c + q * generator g := by
  induction k generalizing c with
  | zero => exact ⟨0, by simp [shifts]⟩
  | succ k ih =>
    obtain ⟨q, hq⟩ := ih (shift g c)
    refine ⟨X ^ k * C (bit c.msb) + q, ?_⟩
    rw [shifts, hq, toPoly_shift hn]
    ring

theorem toPoly_feed (hn : 0 < n) (g : BitVec n) {k : Nat} (hk : k ≤ n) (c : BitVec n)
    (d : BitVec k) :
    ∃ q, toPoly (feed g c d) = X ^ k * toPoly c + X ^ n * toPoly d + q * generator g := by
  obtain ⟨q, hq⟩ := toPoly_shifts hn g k (c ^^^ (d.setWidth n <<< (n - k)))
  refine ⟨q, ?_⟩
  have hpow : (X : (ZMod 2)[X]) ^ n = X ^ k * X ^ (n - k) := by
    rw [← pow_add, Nat.add_sub_cancel' hk]
  rw [feed, hq, toPoly_xor, toPoly_align hk, hpow]
  ring

/-- After a whole message the register is congruent to the shifted message. -/
theorem toPoly_run (hn : 0 < n) (g : BitVec n) {k : Nat} (hk : k ≤ n) (c : BitVec n)
    (ds : List (BitVec k)) :
    ∃ q, toPoly (run g c ds) =
      X ^ (k * ds.length) * toPoly c + X ^ n * messagePoly ds + q * generator g := by
  induction ds generalizing c with
  | nil => exact ⟨0, by simp [run, messagePoly, messageBits, bitsPoly]⟩
  | cons d ds ih =>
    obtain ⟨q, hq⟩ := toPoly_feed hn g hk c d
    obtain ⟨r, hr⟩ := ih (feed g c d)
    refine ⟨X ^ (k * ds.length) * q + r, ?_⟩
    have hpow : (X : (ZMod 2)[X]) ^ (k * (d :: ds).length) = X ^ (k * ds.length) * X ^ k := by
      rw [List.length_cons, Nat.mul_succ, pow_add]
    change toPoly (run g (feed g c d) ds) = _
    rw [hr, hq, messagePoly_cons, hpow]
    ring

/-- **The register computes the remainder** of the message, shifted by the width and
    combined with the initial contents, modulo the generator. -/
theorem toPoly_run_eq_modByMonic (hn : 0 < n) (g : BitVec n) {k : Nat} (hk : k ≤ n)
    (c : BitVec n) (ds : List (BitVec k)) :
    toPoly (run g c ds) =
      (X ^ (k * ds.length) * toPoly c + X ^ n * messagePoly ds) %ₘ generator g := by
  obtain ⟨q, hq⟩ := toPoly_run hn g hk c ds
  have hdegree : (toPoly (run g c ds)).degree < (generator g).degree := by
    rw [degree_generator]
    exact degree_toPoly_lt _
  have hself := (modByMonic_eq_self_iff (generator_monic g)).mpr hdegree
  rw [← hself, hq, add_modByMonic, mul_self_modByMonic (generator_monic g), add_zero]

/-! ### Undetected errors -/

/-- The generator has no factor `X` when its constant term is one. -/
theorem dvd_of_dvd_X_pow_mul {g : BitVec n} (hg : g.getLsbD 0 = true) {r : Nat}
    {p : (ZMod 2)[X]} (h : generator g ∣ X ^ r * p) : generator g ∣ p := by
  have hn : 0 < n := by
    rcases Nat.eq_zero_or_pos n with rfl | hn
    · rw [BitVec.getLsbD_of_ge g 0 (Nat.le_refl 0)] at hg
      exact absurd hg (by decide)
    · exact hn
  have hcoeff : (generator g).coeff 0 = 1 := by
    rw [generator, coeff_add, coeff_X_pow, if_neg hn.ne, coeff_toPoly, hg, bit_true, zero_add]
  have hnot : ¬ X ∣ generator g := by
    rw [X_dvd_iff, hcoeff]
    decide
  have hcoprime : IsCoprime (X ^ r) (generator g) :=
    (irreducible_X.coprime_iff_not_dvd.mpr hnot).pow_left
  exact hcoprime.symm.dvd_of_dvd_mul_left h

/-- A message as wide as the register clears it exactly when it equals its contents. -/
theorem run_eq_zero_iff {g : BitVec n} (hg : g.getLsbD 0 = true) (hn : 0 < n) {k : Nat}
    (hk : k ≤ n) {c : BitVec n} {ds : List (BitVec k)} (hwidth : k * ds.length = n) :
    run g c ds = 0#n ↔ messagePoly ds = toPoly c := by
  obtain ⟨q, hq⟩ := toPoly_run hn g hk c ds
  rw [hwidth] at hq
  constructor
  -- the sum is a multiple of the generator, and shorter, so it is zero
  · intro hzero
    rw [hzero, toPoly_zero] at hq
    have hdvd : generator g ∣ X ^ n * (toPoly c + messagePoly ds) := by
      have htwo : q * generator g + q * generator g = 0 := CharTwo.add_self_eq_zero _
      exact ⟨q, by linear_combination (-1) * hq - htwo⟩
    have hshort : (toPoly c + messagePoly ds).degree < (generator g).degree := by
      rw [degree_generator]
      have hmessage : (messagePoly ds).degree < n := by
        have h := degree_bitsPoly_lt (messageBits ds)
        rwa [length_messageBits, hwidth] at h
      exact lt_of_le_of_lt (degree_add_le _ _) (max_lt (degree_toPoly_lt c) hmessage)
    have hsum : toPoly c + messagePoly ds = 0 := by
      by_contra hne
      exact (generator_monic g).not_dvd_of_degree_lt hne hshort (dvd_of_dvd_X_pow_mul hg hdvd)
    have htwo : toPoly c + toPoly c = 0 := CharTwo.add_self_eq_zero _
    linear_combination hsum - htwo
  -- over GF(2) the two cancel, and the register is a multiple of the generator
  · intro heq
    have htwo : X ^ n * toPoly c + X ^ n * toPoly c = 0 := CharTwo.add_self_eq_zero _
    rw [heq, htwo, zero_add] at hq
    have hdegree : (toPoly (run g c ds)).degree < (generator g).degree := by
      rw [degree_generator]
      exact degree_toPoly_lt _
    have hzero : toPoly (run g c ds) = 0 := by
      by_contra hne
      exact (generator_monic g).not_dvd_of_degree_lt hne hdegree ⟨q, by rw [hq, mul_comm]⟩
    exact toPoly_injective (by rw [hzero, toPoly_zero])

/-- Two messages of one length that leave the same register differ by a multiple of
    the generator. -/
theorem generator_dvd_of_run_eq {g : BitVec n} (hg : g.getLsbD 0 = true) (hn : 0 < n) {k : Nat}
    (hk : k ≤ n) {c : BitVec n} {ds es : List (BitVec k)} (hlen : ds.length = es.length)
    (h : run g c ds = run g c es) :
    generator g ∣ messagePoly (List.zipWith (· ^^^ ·) ds es) := by
  obtain ⟨q, hq⟩ := toPoly_run hn g hk c ds
  obtain ⟨r, hr⟩ := toPoly_run hn g hk c es
  rw [h, hr, hlen] at hq
  apply @dvd_of_dvd_X_pow_mul n g hg n
  refine ⟨q + r, ?_⟩
  rw [messagePoly_zipWith_xor hlen]
  have hdiff : X ^ n * messagePoly ds + X ^ n * messagePoly es =
      q * generator g + r * generator g := by
    have htwo : ∀ p : (ZMod 2)[X], p + p = 0 := CharTwo.add_self_eq_zero
    linear_combination hq + htwo (X ^ n * messagePoly ds) - htwo (r * generator g)
  rw [mul_add, hdiff]
  ring

/-- **Short bursts.** No non-zero bit string whose ones lie within `n` consecutive
    positions is a multiple of a generator of degree `n` with constant term one. -/
theorem not_generator_dvd_burst {g : BitVec n} (hg : g.getLsbD 0 = true) {bs : List Bool}
    {start : Nat} (hburst : ∀ i, bs[i]? = some true → start ≤ i ∧ i < start + n)
    (hne : true ∈ bs) : ¬ generator g ∣ bitsPoly bs := by
  intro hdvd
  have hpre : ∀ b ∈ bs.take start, b = false := by
    intro b hb
    obtain ⟨i, hi⟩ := List.mem_iff_getElem?.mp hb
    rw [List.getElem?_take] at hi
    by_cases hlt : i < start
    · rw [if_pos hlt] at hi
      cases b
      · rfl
      · have := hburst i hi
        omega
    · simp [hlt] at hi
  have hpost : ∀ b ∈ (bs.drop start).drop n, b = false := by
    intro b hb
    obtain ⟨i, hi⟩ := List.mem_iff_getElem?.mp hb
    rw [List.getElem?_drop, List.getElem?_drop] at hi
    cases b
    · rfl
    · have := hburst _ hi
      omega
  -- only the window of the burst counts, shifted by what follows it
  have hsplit : bitsPoly bs =
      X ^ ((bs.drop start).drop n).length * bitsPoly ((bs.drop start).take n) := by
    conv_lhs => rw [← List.take_append_drop start bs, ← List.take_append_drop n (bs.drop start)]
    rw [bitsPoly_append, bitsPoly_append, bitsPoly_of_all_false hpre,
      bitsPoly_of_all_false hpost]
    ring
  rw [hsplit] at hdvd
  -- what is left is shorter than the generator, so it is zero
  have hzero : bitsPoly ((bs.drop start).take n) = 0 := by
    by_contra hne'
    refine (generator_monic g).not_dvd_of_degree_lt hne' ?_ (dvd_of_dvd_X_pow_mul hg hdvd)
    rw [degree_generator]
    refine lt_of_lt_of_le (degree_bitsPoly_lt _) ?_
    exact_mod_cast List.length_take_le n (bs.drop start)
  have hall : ∀ b ∈ bs, b = false := by
    intro b hb
    rw [← List.take_append_drop start bs, ← List.take_append_drop n (bs.drop start)] at hb
    rcases List.mem_append.mp hb with hb | hb
    · exact hpre b hb
    · rcases List.mem_append.mp hb with hb | hb
      · exact all_false_of_bitsPoly hzero b hb
      · exact hpost b hb
  exact absurd (hall true hne) (by decide)

/-- **Odd errors.** A generator with an even number of terms divides no bit string
    with an odd number of ones. -/
theorem not_generator_dvd_odd {g : BitVec n} (hg : (generator g).eval 1 = 0) {bs : List Bool}
    (hodd : bs.count true % 2 = 1) : ¬ generator g ∣ bitsPoly bs := by
  rintro ⟨q, hq⟩
  have heval := eval_one_bitsPoly bs
  rw [hq, eval_mul, hg, zero_mul] at heval
  have heven : bs.count true % 2 = 0 :=
    Nat.mod_eq_zero_of_dvd ((ZMod.natCast_eq_zero_iff _ 2).mp heval.symm)
  omega

end

end CrcRegister
