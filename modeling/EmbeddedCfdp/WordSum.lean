import EmbeddedCfdp.BigEndian

/-!
# Sums of words

An octet string laid out in big-endian words of `n` octets: an octet weighs
`256 ^ (n - 1 - lane)`, where the lane is its position modulo `n`.  The sum over the
octets, each with the weight of its lane, is the sum of the words, once the last word
has been filled up with zero octets.
-/

namespace WordSum

/-- The weight of the octet at position `pos`. -/
def laneWeight (n pos : Nat) : Nat := 256 ^ (n - 1 - pos % n)

/-- The sum over an octet string that starts at position `pos`. -/
def laneSum (n : Nat) : Nat → List UInt8 → Nat
  | _, [] => 0
  | pos, b :: xs => b.toNat * laneWeight n pos + laneSum n (pos + 1) xs

/-- `xs` with zero octets behind it, up to a multiple of `n`. -/
def padded (n : Nat) (xs : List UInt8) : List UInt8 :=
  xs ++ List.replicate ((n - xs.length % n) % n) 0

/-- The sum of the words of `n` octets. -/
def wordSum (n : Nat) (xs : List UInt8) : Nat :=
  ∑ k ∈ Finset.range (xs.length / n), BigEndian.decode ((xs.drop (n * k)).take n)

variable {n : Nat}

theorem laneWeight_of_mod_eq {pos pos' : Nat} (h : pos % n = pos' % n) :
    laneWeight n pos = laneWeight n pos' := by
  rw [laneWeight, laneWeight, h]

/-- Only the lanes count, not where the words start. -/
theorem laneSum_of_mod_eq {pos pos' : Nat} (h : pos % n = pos' % n) (xs : List UInt8) :
    laneSum n pos xs = laneSum n pos' xs := by
  induction xs generalizing pos pos' with
  | nil => rfl
  | cons b xs ih =>
    have hnext : (pos + 1) % n = (pos' + 1) % n := by rw [Nat.add_mod, h, ← Nat.add_mod]
    simp only [laneSum, laneWeight_of_mod_eq h, ih hnext]

theorem laneSum_append (pos : Nat) (xs ys : List UInt8) :
    laneSum n pos (xs ++ ys) = laneSum n pos xs + laneSum n (pos + xs.length) ys := by
  induction xs generalizing pos with
  | nil => simp [laneSum]
  | cons b xs ih =>
    have hpos : pos + 1 + xs.length = pos + (b :: xs).length := by
      rw [List.length_cons]
      omega
    rw [List.cons_append, laneSum, ih, hpos, laneSum, Nat.add_assoc]

/-- The sum, octet by octet. -/
theorem laneSum_eq_sum (pos : Nat) (xs : List UInt8) :
    laneSum n pos xs =
      ∑ i ∈ Finset.range xs.length, (xs.getD i 0).toNat * laneWeight n (pos + i) := by
  induction xs generalizing pos with
  | nil => simp [laneSum]
  | cons b xs ih =>
    rw [laneSum, ih, List.length_cons, Finset.sum_range_succ', Nat.add_comm]
    simp only [List.getD_cons_succ, List.getD_cons_zero, Nat.add_zero, Nat.add_right_comm,
      Nat.add_assoc]

theorem laneSum_replicate_zero (pos k : Nat) : laneSum n pos (List.replicate k 0) = 0 := by
  induction k generalizing pos with
  | zero => rfl
  | succ k ih => simp [List.replicate_succ, laneSum, ih]

theorem laneSum_append_zeros (pos : Nat) (xs : List UInt8) (k : Nat) :
    laneSum n pos (xs ++ List.replicate k 0) = laneSum n pos xs := by
  rw [laneSum_append, laneSum_replicate_zero, Nat.add_zero]

/-! ### Words -/

/-- The rest of a word, from lane `pos` on. -/
theorem laneSum_word {pos : Nat} {xs : List UInt8} (h : pos + xs.length = n) :
    laneSum n pos xs = BigEndian.decode xs := by
  induction xs generalizing pos with
  | nil => rfl
  | cons b xs ih =>
    rw [List.length_cons] at h
    have hlane : n - 1 - pos % n = xs.length := by
      rw [Nat.mod_eq_of_lt (by omega)]
      omega
    rw [laneSum, laneWeight, hlane, ih (by omega), BigEndian.decode_cons]

theorem laneSum_words {k : Nat} {xs : List UInt8} (h : xs.length = n * k) :
    laneSum n 0 xs =
      ∑ j ∈ Finset.range k, BigEndian.decode ((xs.drop (n * j)).take n) := by
  induction k generalizing xs with
  | zero =>
    have hnil : xs = [] := List.eq_nil_of_length_eq_zero (by simpa using h)
    rw [hnil]
    rfl
  | succ k ih =>
    rw [Nat.mul_succ] at h
    have hfirst : (xs.take n).length = n := List.length_take_of_le (by omega)
    have hrest : (xs.drop n).length = n * k := by
      rw [List.length_drop]
      omega
    have hword : laneSum n 0 (xs.take n) = BigEndian.decode (xs.take n) :=
      laneSum_word (by rw [hfirst, Nat.zero_add])
    have hlanes : laneSum n (0 + n) (xs.drop n) = laneSum n 0 (xs.drop n) :=
      laneSum_of_mod_eq (by simp) _
    have hsplit := @laneSum_append n 0 (xs.take n) (xs.drop n)
    rw [List.take_append_drop, hfirst, hlanes, hword, ih hrest] at hsplit
    rw [hsplit, Finset.sum_range_succ', Nat.add_comm]
    simp only [List.drop_drop, Nat.mul_succ, Nat.mul_zero, List.drop_zero, Nat.add_comm n]

theorem dvd_length_padded (hpos : 0 < n) (xs : List UInt8) : n ∣ (padded n xs).length := by
  have hlt : xs.length % n < n := Nat.mod_lt xs.length hpos
  rw [padded, List.length_append, List.length_replicate]
  apply Nat.dvd_of_mod_eq_zero
  rw [Nat.add_mod_mod, ← Nat.mod_add_mod, Nat.add_sub_cancel' (Nat.le_of_lt hlt), Nat.mod_self]

/-- **Main result.** The sum over the lanes is the sum of the words of the padded string. -/
theorem laneSum_eq_wordSum (hpos : 0 < n) (xs : List UInt8) :
    laneSum n 0 xs = wordSum n (padded n xs) := by
  obtain ⟨k, hk⟩ := dvd_length_padded hpos xs
  have hpad : laneSum n 0 (padded n xs) = laneSum n 0 xs := by
    rw [padded, laneSum_append, laneSum_replicate_zero, Nat.add_zero]
  rw [wordSum, hk, Nat.mul_div_cancel_left k hpos, ← laneSum_words hk, hpad]

/-! ### Short strings -/

/-- Octets from position `pos` on, at most a word, as they stand in the lanes of one word:
    those behind the end of the word come round to its front. -/
def wrapped (n pos : Nat) (xs : List UInt8) : List UInt8 :=
  let front := xs.drop (n - pos % n)
  let back := xs.take (n - pos % n)
  front ++ (List.replicate (pos % n - front.length) 0 ++
    (back ++ List.replicate (n - pos % n - back.length) 0))

theorem length_wrapped (hpos : 0 < n) (pos : Nat) {xs : List UInt8} (h : xs.length ≤ n) :
    (wrapped n pos xs).length = n := by
  have hlane := Nat.mod_lt pos hpos
  simp only [wrapped, List.length_append, List.length_replicate, List.length_drop,
    List.length_take]
  omega

theorem decode_wrapped (hpos : 0 < n) (pos : Nat) {xs : List UInt8} (h : xs.length ≤ n) :
    BigEndian.decode (wrapped n pos xs) = laneSum n pos xs := by
  have hlane := Nat.mod_lt pos hpos
  have hword := @laneSum_word n 0 (wrapped n pos xs)
    (by rw [length_wrapped hpos pos h, Nat.zero_add])
  -- the octets up to the end of the word, then those that wrap round to its start
  have hsplit := @laneSum_append n pos (xs.take (n - pos % n)) (xs.drop (n - pos % n))
  rw [List.take_append_drop] at hsplit
  have hlength : (xs.drop (n - pos % n)).length ≤ pos % n := by
    rw [List.length_drop]
    omega
  have hback : laneSum n (0 + (xs.drop (n - pos % n)).length +
      (List.replicate (pos % n - (xs.drop (n - pos % n)).length) (0 : UInt8)).length)
        (xs.take (n - pos % n)) = laneSum n pos (xs.take (n - pos % n)) := by
    apply laneSum_of_mod_eq
    rw [List.length_replicate, Nat.zero_add, Nat.add_sub_cancel' hlength, Nat.mod_mod]
  have hfront : laneSum n (pos + (xs.take (n - pos % n)).length) (xs.drop (n - pos % n)) =
      laneSum n 0 (xs.drop (n - pos % n)) := by
    -- unless nothing wraps round, the second part starts at lane 0
    by_cases hnil : xs.drop (n - pos % n) = []
    · rw [hnil]
      rfl
    · have hlong : n - pos % n ≤ xs.length :=
        Nat.le_of_not_le fun hle => hnil (List.drop_eq_nil_of_le hle)
      apply laneSum_of_mod_eq
      rw [List.length_take_of_le hlong, Nat.zero_mod, ← Nat.mod_add_mod,
        Nat.add_sub_cancel' (Nat.le_of_lt hlane), Nat.mod_self]
  rw [← hword, wrapped, laneSum_append, laneSum_append, laneSum_append_zeros,
    laneSum_replicate_zero, hback, Nat.zero_add, hsplit, hfront, Nat.add_comm]

theorem wrapped_injective {pos : Nat} {xs ys : List UInt8} (hlen : xs.length = ys.length)
    (h : wrapped n pos xs = wrapped n pos ys) : xs = ys := by
  have hdrop : (xs.drop (n - pos % n)).length = (ys.drop (n - pos % n)).length := by
    rw [List.length_drop, List.length_drop, hlen]
  have htake : (xs.take (n - pos % n)).length = (ys.take (n - pos % n)).length := by
    rw [List.length_take, List.length_take, hlen]
  obtain ⟨hfront, hrest⟩ := List.append_inj h hdrop
  obtain ⟨_, hrest⟩ := List.append_inj hrest
    (by rw [List.length_replicate, List.length_replicate, hdrop])
  obtain ⟨hback, _⟩ := List.append_inj hrest htake
  rw [← List.take_append_drop (n - pos % n) xs, hback, hfront, List.take_append_drop]

/-- Strings of up to a word are told apart by their sum, even modulo the words. -/
theorem laneSum_injective (hpos : 0 < n) {pos : Nat} {xs ys : List UInt8}
    (hlen : xs.length = ys.length) (hle : xs.length ≤ n)
    (h : laneSum n pos xs % 256 ^ n = laneSum n pos ys % 256 ^ n) : xs = ys := by
  have hsmall : ∀ zs : List UInt8, zs.length ≤ n → laneSum n pos zs < 256 ^ n := by
    intro zs hzs
    have hlt := BigEndian.decode_lt (wrapped n pos zs)
    rwa [length_wrapped hpos pos hzs, decode_wrapped hpos pos hzs] at hlt
  have hle' : ys.length ≤ n := hlen ▸ hle
  rw [Nat.mod_eq_of_lt (hsmall xs hle), Nat.mod_eq_of_lt (hsmall ys hle'),
    ← decode_wrapped hpos pos hle, ← decode_wrapped hpos pos hle'] at h
  apply wrapped_injective hlen
  apply BigEndian.decode_injective _ h
  rw [length_wrapped hpos pos hle, length_wrapped hpos pos hle']

end WordSum
