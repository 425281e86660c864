import EmbeddedCfdp.CrcRegister
import Mathlib.GroupTheory.OrderOfElement
import Mathlib.RingTheory.AdjoinRoot

/-!
# The order of `X` modulo a generator

Which errors a CRC misses is decided in the ring of remainders modulo its generator: an
error in two places is missed exactly when their distance is a multiple of the order of
`X`, and the only burst of one bit more than the width that is missed is the generator.
The powers of `X` are computed in the register itself, by shifting and squaring, so that
the order of a given generator can be checked.
-/

namespace CrcRegister

open Polynomial

variable {n : Nat}

/-! ### Squares and powers in the register -/

/-- The square of a register: its bits, with a zero behind each. -/
def square (g c : BitVec n) : BitVec n :=
  (symbolBits c).foldl
    (fun r b => if b then shift g (shift g r) ^^^ 1#n else shift g (shift g r)) 0#n

/-- The number with the binary digits `bs`, the most significant in front. -/
def binary (bs : List Bool) : Nat := bs.foldl (fun k b => 2 * k + b.toNat) 0

/-- The register of `X ^ binary bs`. -/
def power (g : BitVec n) (bs : List Bool) : BitVec n :=
  bs.foldl (fun r b => if b then shift g (square g r) else square g r) 1#n

noncomputable section

/-- The remainder that a register stands for. -/
def residue (g c : BitVec n) : AdjoinRoot (generator g) := AdjoinRoot.mk (generator g) (toPoly c)

theorem residue_injective (g : BitVec n) : Function.Injective (residue g) := by
  intro c d h
  have hdvd : generator g ∣ toPoly c - toPoly d := AdjoinRoot.mk_eq_mk.mp h
  have hdegree : (toPoly c - toPoly d).degree < (generator g).degree := by
    rw [degree_generator]
    exact lt_of_le_of_lt (degree_sub_le _ _) (max_lt (degree_toPoly_lt c) (degree_toPoly_lt d))
  apply toPoly_injective
  by_contra hne
  exact (generator_monic g).not_dvd_of_degree_lt (sub_ne_zero.mpr hne) hdegree hdvd

theorem toPoly_one (hn : 0 < n) : toPoly (1#n) = 1 := by
  ext i
  rw [coeff_toPoly, coeff_one, BitVec.getLsbD_one]
  by_cases hi : i = 0
  · simp [hi, hn]
  · simp [hi]

theorem residue_one (hn : 0 < n) (g : BitVec n) : residue g 1#n = 1 := by
  rw [residue, toPoly_one hn, map_one]

theorem residue_zero (g : BitVec n) : residue g 0#n = 0 := by
  rw [residue, toPoly_zero, map_zero]

theorem residue_xor (g c d : BitVec n) : residue g (c ^^^ d) = residue g c + residue g d := by
  rw [residue, toPoly_xor, map_add]
  rfl

/-- Shifting multiplies the remainder by `X`. -/
theorem residue_shift (hn : 0 < n) (g c : BitVec n) :
    residue g (shift g c) = AdjoinRoot.root (generator g) * residue g c := by
  rw [residue, toPoly_shift hn, map_add, map_mul, map_mul, AdjoinRoot.mk_X, AdjoinRoot.mk_self,
    mul_zero, add_zero]
  rfl

/-- Squaring as the register does it, behind bits that have been squared. -/
theorem mk_square_step (hn : 0 < n) (g : BitVec n) (bs : List Bool) {r : BitVec n}
    {p : (ZMod 2)[X]} (hr : residue g r = AdjoinRoot.mk (generator g) (p ^ 2)) :
    residue g (bs.foldl
        (fun r b => if b then shift g (shift g r) ^^^ 1#n else shift g (shift g r)) r) =
      AdjoinRoot.mk (generator g) ((X ^ bs.length * p + bitsPoly bs) ^ 2) := by
  -- invariant: the register holds the square of the polynomial of the bits read so far
  induction bs generalizing r p with
  | nil =>
    rw [List.foldl_nil, hr, List.length_nil, bitsPoly, pow_zero, one_mul, add_zero]
  | cons b bs ih =>
    have hnext : residue g (if b then shift g (shift g r) ^^^ 1#n else shift g (shift g r)) =
        AdjoinRoot.mk (generator g) ((X * p + C (bit b)) ^ 2) := by
      -- squaring is additive, as twice anything is zero
      have htwo : (2 : (ZMod 2)[X]) = 0 := CharTwo.two_eq_zero
      have hshifted : residue g (shift g (shift g r)) =
          AdjoinRoot.mk (generator g) (X ^ 2 * p ^ 2) := by
        rw [residue_shift hn, residue_shift hn, hr, map_mul, map_pow, map_pow, AdjoinRoot.mk_X]
        ring
      cases b with
      | false =>
        have hsquare : (X * p + C (bit false)) ^ 2 = X ^ 2 * p ^ 2 := by
          rw [bit_false, map_zero]
          ring
        rw [if_neg (by decide), hshifted, hsquare]
      | true =>
        have hsquare : (X * p + C (bit true)) ^ 2 = X ^ 2 * p ^ 2 + 1 := by
          rw [bit_true, map_one]
          linear_combination (X * p) * htwo
        rw [if_pos rfl, residue_xor, hshifted, residue_one hn, hsquare, map_add, map_one]
    have hrest : X ^ (b :: bs).length * p + bitsPoly (b :: bs) =
        X ^ bs.length * (X * p + C (bit b)) + bitsPoly bs := by
      rw [List.length_cons, bitsPoly]
      ring
    rw [List.foldl_cons, ih hnext, hrest]

theorem residue_square (hn : 0 < n) (g c : BitVec n) :
    residue g (square g c) = residue g c ^ 2 := by
  have hzero : residue g 0#n = AdjoinRoot.mk (generator g) (0 ^ 2) := by
    rw [residue_zero, zero_pow (by decide), map_zero]
  rw [square, mk_square_step hn g (symbolBits c) hzero, mul_zero, zero_add, bitsPoly_symbolBits,
    map_pow]
  rfl

/-- The computed power is a power of `X`. -/
theorem residue_power (hn : 0 < n) (g : BitVec n) (bs : List Bool) :
    residue g (power g bs) = AdjoinRoot.root (generator g) ^ binary bs := by
  -- the last binary digit is the one multiplied in last
  induction bs using List.reverseRecOn with
  | nil => exact residue_one hn g
  | append_singleton bs b ih =>
    have hpower : power g (bs ++ [b]) =
        if b then shift g (square g (power g bs)) else square g (power g bs) := by
      rw [power, List.foldl_append]
      rfl
    have hbinary : binary (bs ++ [b]) = 2 * binary bs + b.toNat := by
      rw [binary, List.foldl_append]
      rfl
    rw [hpower, hbinary]
    cases b with
    | false =>
      rw [if_neg (by decide), residue_square hn, ih, ← pow_mul, Bool.toNat_false, add_zero,
        mul_comm]
    | true =>
      rw [if_pos rfl, residue_shift hn, residue_square hn, ih, ← pow_mul, Bool.toNat_true,
        pow_succ, mul_comm 2, mul_comm]

theorem root_pow_eq_one_iff (hn : 0 < n) (g : BitVec n) (bs : List Bool) :
    AdjoinRoot.root (generator g) ^ binary bs = 1 ↔ power g bs = 1#n := by
  rw [← residue_power hn, ← residue_one hn g]
  exact (residue_injective g).eq_iff

/-! ### Errors in two places -/

/-- A string with ones in two places only. -/
theorem bitsPoly_pair {bs : List Bool} {i j : Nat} (hij : i < j)
    (hbits : ∀ k, bs[k]? = some true ↔ k = i ∨ k = j) :
    bitsPoly bs = X ^ (bs.length - 1 - j) * (X ^ (j - i) + 1) := by
  have hj : j < bs.length := (List.getElem?_eq_some_iff.mp ((hbits j).mpr (Or.inr rfl))).1
  have hsum : bs.length - 1 - j + (j - i) = bs.length - 1 - i := by omega
  rw [mul_add, ← pow_add, hsum, mul_one]
  ext k
  rw [coeff_bitsPoly, coeff_add, coeff_X_pow, coeff_X_pow, List.getD_eq_getElem?_getD]
  by_cases hk : k < bs.length
  · rw [List.getElem?_reverse hk]
    -- the coefficient of degree `k` is the bit at that distance from the end
    by_cases hset : bs[bs.length - 1 - k]? = some true
    · rw [hset, Option.getD_some, bit_true]
      rcases (hbits _).mp hset with heq | heq
      · rw [if_pos (by omega), if_neg (by omega), add_zero]
      · rw [if_neg (by omega), if_pos (by omega), zero_add]
    · have hclear : bs[bs.length - 1 - k]?.getD false = false := by
        cases hget : bs[bs.length - 1 - k]? with
        | none => rfl
        | some b =>
          cases b with
          | false => rfl
          | true => exact (hset hget).elim
      have hother : ¬ (bs.length - 1 - k = i ∨ bs.length - 1 - k = j) :=
        fun h => hset ((hbits _).mpr h)
      rw [hclear, bit_false, if_neg (by omega), if_neg (by omega), add_zero]
  · rw [List.getElem?_eq_none (by rw [List.length_reverse]; omega), Option.getD_none, bit_false,
      if_neg (by omega), if_neg (by omega), add_zero]

theorem mk_X_pow_add_one (g : BitVec n) (k : Nat) :
    generator g ∣ X ^ k + 1 ↔ AdjoinRoot.root (generator g) ^ k = 1 := by
  have htwo : (X ^ k + 1 : (ZMod 2)[X]) = X ^ k - 1 := CharTwo.sub_eq_add _ _ |>.symm
  rw [htwo, ← AdjoinRoot.mk_eq_mk, map_pow, AdjoinRoot.mk_X, map_one]

/-- **Errors in two places.** They are missed exactly at distances that are multiples of the
    order of `X`. -/
theorem generator_dvd_pair {g : BitVec n} (hg : g.getLsbD 0 = true) {bs : List Bool} {i j : Nat}
    (hij : i < j) (hbits : ∀ k, bs[k]? = some true ↔ k = i ∨ k = j) :
    generator g ∣ bitsPoly bs ↔ orderOf (AdjoinRoot.root (generator g)) ∣ j - i := by
  rw [bitsPoly_pair hij hbits, orderOf_dvd_iff_pow_eq_one, ← mk_X_pow_add_one]
  constructor
  · intro h
    exact dvd_of_dvd_X_pow_mul hg h
  · intro h
    exact Dvd.dvd.mul_left h _

/-! ### Bursts of one bit more -/

theorem bitsPoly_injective {xs ys : List Bool} (hlen : xs.length = ys.length)
    (h : bitsPoly xs = bitsPoly ys) : xs = ys := by
  induction xs generalizing ys with
  | nil => exact (List.eq_nil_of_length_eq_zero hlen.symm).symm
  | cons b xs ih =>
    cases ys with
    | nil => simp at hlen
    | cons b' ys =>
      have htail : xs.length = ys.length := Nat.succ.inj hlen
      -- the leading bits are the coefficients of the highest degree; the rest has a smaller one
      have hlead : bit b = bit b' := by
        have hcoeff : (bitsPoly (b :: xs)).coeff xs.length =
            (bitsPoly (b' :: ys)).coeff xs.length := by rw [h]
        rwa [bitsPoly, bitsPoly, coeff_add, coeff_add, coeff_C_mul_X_pow, coeff_C_mul_X_pow,
          if_pos rfl, if_pos htail, coeff_eq_zero_of_degree_lt (degree_bitsPoly_lt xs), add_zero,
          htail, coeff_eq_zero_of_degree_lt (degree_bitsPoly_lt ys), add_zero] at hcoeff
      have hb : b = b' := by
        revert hlead
        cases b <;> cases b' <;> decide
      rw [bitsPoly, bitsPoly, hb, htail] at h
      rw [hb, ih htail (add_left_cancel h)]

/-- The generator in wire order. -/
def generatorBits (g : BitVec n) : List Bool := true :: symbolBits g

theorem bitsPoly_generatorBits (g : BitVec n) : bitsPoly (generatorBits g) = generator g := by
  rw [generatorBits, bitsPoly, bitsPoly_symbolBits, length_symbolBits, bit_true, map_one, one_mul,
    generator]

/-- **Bursts of one bit more.** Of the strings whose ones lie within one bit more than the
    width, only the generator is missed. -/
theorem generator_dvd_longer_burst {g : BitVec n} (hg : g.getLsbD 0 = true)
    {pre burst post : List Bool} (hpre : ∀ b ∈ pre, b = false) (hpost : ∀ b ∈ post, b = false)
    (hwidth : burst.length = n + 1) (hne : true ∈ burst) :
    generator g ∣ bitsPoly (pre ++ burst ++ post) ↔ burst = generatorBits g := by
  have hparts : bitsPoly (pre ++ burst ++ post) = X ^ post.length * bitsPoly burst := by
    rw [bitsPoly_append, bitsPoly_append, bitsPoly_of_all_false hpre, bitsPoly_of_all_false hpost]
    ring
  rw [hparts]
  constructor
  · intro h
    obtain ⟨q, hq⟩ := dvd_of_dvd_X_pow_mul hg h
    have hnonzero : bitsPoly burst ≠ 0 := by
      intro hzero
      exact absurd (all_false_of_bitsPoly hzero true hne) (by decide)
    have hqne : q ≠ 0 := by
      rintro rfl
      exact hnonzero (by rw [hq, mul_zero])
    -- the quotient is a constant, and the only one that is not zero is one
    have hdegree : (bitsPoly burst).natDegree = n + q.natDegree := by
      rw [hq, (generator_monic g).natDegree_mul' hqne, natDegree_eq_of_degree_eq_some
        (degree_generator g)]
    have hshort : (bitsPoly burst).natDegree < n + 1 := by
      rw [natDegree_lt_iff_degree_lt hnonzero, ← hwidth]
      exact degree_bitsPoly_lt burst
    have hconst : q = C (q.coeff 0) := eq_C_of_natDegree_eq_zero (by omega)
    have hcoeff : q.coeff 0 = 1 := by
      have hcases : ∀ a : ZMod 2, a = 0 ∨ a = 1 := by decide
      rcases hcases (q.coeff 0) with hzero | hone
      · rw [hzero, map_zero] at hconst
        exact (hqne hconst).elim
      · exact hone
    rw [hcoeff, map_one] at hconst
    rw [hconst, mul_one, ← bitsPoly_generatorBits] at hq
    refine bitsPoly_injective ?_ hq
    rw [hwidth, generatorBits, List.length_cons, length_symbolBits]
  · intro h
    rw [h, bitsPoly_generatorBits]
    exact dvd_mul_left _ _

/-! ### Two messages with one remainder -/

/-- Two messages of one length leave the same register exactly when they differ by a
    multiple of the generator. -/
theorem run_eq_run_iff {g : BitVec n} (hg : g.getLsbD 0 = true) (hn : 0 < n) {k : Nat}
    (hk : k ≤ n) {c : BitVec n} {ds es : List (BitVec k)} (hlen : ds.length = es.length) :
    run g c ds = run g c es ↔ generator g ∣ messagePoly (List.zipWith (· ^^^ ·) ds es) := by
  constructor
  · exact generator_dvd_of_run_eq hg hn hk hlen
  · rintro ⟨q, hq⟩
    rw [messagePoly_zipWith_xor hlen] at hq
    have hdouble : messagePoly es + messagePoly es = 0 := CharTwo.add_self_eq_zero _
    have hds : X ^ n * messagePoly ds = X ^ n * messagePoly es + (X ^ n * q) * generator g := by
      linear_combination X ^ n * hq - X ^ n * hdouble
    apply toPoly_injective
    rw [toPoly_run_eq_modByMonic hn g hk, toPoly_run_eq_modByMonic hn g hk, hlen, hds, ← add_assoc,
      add_modByMonic, mul_self_modByMonic (generator_monic g), add_zero]

end

end CrcRegister
