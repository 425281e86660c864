import EmbeddedCfdp.ChecksumWords

/-!
# The errors the modular checksum misses

The checksum that an EOF carries is compared with the one of the file that was put together.
The two agree although the files do not where the differences, each with the weight of its
lane, cancel modulo `2 ^ 32`; inside of four octets in a row they never do.  Zero octets
behind the file do not count, so its size has to be compared as well.
-/

namespace EmbeddedCfdp

open CMemory

variable {T : Target}

section Errors

variable {xs ys : List UInt8} {checksum : UInt32} {offset : UInt64} {sum sum' : UInt32}

/-- Two checksums that were continued from one agree where the sums over the lanes do. -/
theorem checksum_eq_iff {a b : Nat} (hsum : sum.toNat = (checksum.toNat + a) % 2 ^ 32)
    (hsum' : sum'.toNat = (checksum.toNat + b) % 2 ^ 32) : sum = sum' ↔ a ≡ b [MOD 2 ^ 32] := by
  rw [← UInt32.toNat_inj, hsum, hsum']
  constructor
  · intro h
    exact Nat.ModEq.add_left_cancel' checksum.toNat h
  · intro h
    exact h.add_left checksum.toNat

/-- The difference of two sums over the lanes, octet by octet. -/
theorem laneSum_sub (pos : Nat) (hlen : xs.length = ys.length) :
    (WordSum.laneSum 4 pos ys : ℤ) - WordSum.laneSum 4 pos xs =
      ∑ i ∈ Finset.range xs.length,
        (((ys.getD i 0).toNat : ℤ) - (xs.getD i 0).toNat) * 2 ^ (8 * (3 - (pos + i) % 4)) := by
  rw [WordSum.laneSum_eq_sum, WordSum.laneSum_eq_sum, ← hlen, Nat.cast_sum, Nat.cast_sum,
    ← Finset.sum_sub_distrib]
  apply Finset.sum_congr rfl
  intro i _
  rw [laneWeight_four, Nat.cast_mul, Nat.cast_mul, ← sub_mul, Nat.cast_pow, Nat.cast_ofNat]

/-- Strings that differ inside of a word's length are told apart by the sum. -/
theorem eq_of_laneSum {pos i : Nat} (hlen : xs.length = ys.length) (hfront : xs.take i = ys.take i)
    (hback : xs.drop (i + 4) = ys.drop (i + 4))
    (h : WordSum.laneSum 4 pos xs ≡ WordSum.laneSum 4 pos ys [MOD 2 ^ 32]) : xs = ys := by
  have hsplit : ∀ zs : List UInt8,
      zs = zs.take i ++ ((zs.drop i).take 4 ++ zs.drop (i + 4)) := by
    intro zs
    rw [← List.drop_drop, List.take_append_drop, List.take_append_drop]
  have hmiddle : ((xs.drop i).take 4).length = ((ys.drop i).take 4).length := by
    rw [List.length_take, List.length_take, List.length_drop, List.length_drop, hlen]
  rw [hsplit xs, hsplit ys, ← hfront, ← hback, WordSum.laneSum_append, WordSum.laneSum_append,
    WordSum.laneSum_append, WordSum.laneSum_append, hmiddle] at h
  have hsame := Nat.ModEq.add_right_cancel' _ (Nat.ModEq.add_left_cancel' _ h)
  have hfour : ((xs.drop i).take 4).length ≤ 4 := by
    rw [List.length_take]
    exact Nat.min_le_left _ _
  have hwords := WordSum.laneSum_injective (n := 4) (by decide) hmiddle hfour hsame
  rw [hsplit xs, hsplit ys, hfront, hwords, hback]

end Errors

/-- **Main result.** Of two files of one size, however the checksums were continued before, the
    checksums agree exactly where the weighted differences cancel.  Two files that differ
    inside of four octets in a row have different checksums; a file and the same file with
    zero octets behind it have one. -/
theorem checksum_errors {p q : Ptr} {xs ys : List UInt8} {len : Size T} (hp : p.Holds xs)
    (hq : q.Holds ys) (hx : xs.length = len.toNat) (hy : ys.length = len.toNat)
    (checksum : UInt32) (offset : UInt64) :
    ∃ sum sum', checksumUpdate checksum offset (some p) len = .ok sum ∧
      checksumUpdate checksum offset (some q) len = .ok sum' ∧
      (sum = sum' ↔ (2 ^ 32 : ℤ) ∣ ∑ i ∈ Finset.range len.toNat,
        (((ys.getD i 0).toNat : ℤ) - (xs.getD i 0).toNat) *
          2 ^ (8 * (3 - (offset.toNat + i) % 4))) ∧
      (∀ i, xs.take i = ys.take i → xs.drop (i + 4) = ys.drop (i + 4) → sum = sum' → xs = ys) ∧
      (∀ (r : Ptr) (k : Nat) (len' : Size T), r.Holds (xs ++ List.replicate k 0) →
        xs.length + k = len'.toNat → checksumUpdate checksum offset (some r) len' = .ok sum) := by
  have hlen : xs.length = ys.length := hx.trans hy.symm
  obtain ⟨sum, hrun, hsum⟩ := checksumUpdate_laneSum (hp.readable (Nat.le_of_eq hx.symm))
    checksum offset
  obtain ⟨sum', hrun', hsum'⟩ := checksumUpdate_laneSum (hq.readable (Nat.le_of_eq hy.symm))
    checksum offset
  rw [← hx, hp.octetsAt] at hsum
  rw [← hy, hq.octetsAt] at hsum'
  have hagree := checksum_eq_iff hsum hsum'
  refine ⟨sum, sum', hrun, hrun', ?_, ?_, ?_⟩
  · rw [hagree, ← Int.natCast_modEq_iff, Int.modEq_iff_dvd, laneSum_sub _ hlen, hx]
    rfl
  · intro i hfront hback heq
    exact eq_of_laneSum hlen hfront hback (hagree.mp heq)
  -- zeros behind the string add nothing to any lane
  · intro r k len' hr hlen'
    have hpadded : (xs ++ List.replicate k 0).length = len'.toNat := by
      rw [List.length_append, List.length_replicate, hlen']
    obtain ⟨sum'', hrun'', hsum''⟩ :=
      checksumUpdate_laneSum (hr.readable (Nat.le_of_eq hpadded.symm)) checksum offset
    rw [← hpadded, hr.octetsAt, WordSum.laneSum_append_zeros, ← hsum] at hsum''
    rw [hrun'', UInt32.toNat_inj.mp hsum'']

/-- Two words interchanged are missed, and one octet moved by one lane is not. -/
theorem checksum_errors_sample :
    (∃ sum sum', checksumUpdate 0 0 (some ⟨Object.full [1, 2, 3, 4, 5, 6, 7, 8], 0⟩)
        (sz 8 : Size .checked32) = .ok sum ∧
      checksumUpdate 0 0 (some ⟨Object.full [5, 6, 7, 8, 1, 2, 3, 4], 0⟩)
        (sz 8 : Size .checked32) = .ok sum' ∧ sum = sum') ∧
    ∃ sum sum', checksumUpdate 0 0 (some ⟨Object.full [0, 0, 0, 1, 0, 0], 0⟩)
        (sz 6 : Size .checked32) = .ok sum ∧
      checksumUpdate 0 0 (some ⟨Object.full [0, 0, 0, 0, 1, 0], 0⟩)
        (sz 6 : Size .checked32) = .ok sum' ∧ sum ≠ sum' := by
  constructor
  · obtain ⟨sum, sum', hrun, hrun', hagree, _, _⟩ := @checksum_errors .checked32 _ _ _ _ (sz 8)
      (Object.holds_whole [1, 2, 3, 4, 5, 6, 7, 8]) (Object.holds_whole [5, 6, 7, 8, 1, 2, 3, 4])
      rfl rfl 0 0
    exact ⟨sum, sum', hrun, hrun', hagree.mpr (by decide)⟩
  · obtain ⟨sum, sum', hrun, hrun', _, hshort, _⟩ := @checksum_errors .checked32 _ _ _ _ (sz 6)
      (Object.holds_whole [0, 0, 0, 1, 0, 0]) (Object.holds_whole [0, 0, 0, 0, 1, 0]) rfl rfl 0 0
    refine ⟨sum, sum', hrun, hrun', fun heq => ?_⟩
    have hsame := hshort 2 rfl rfl heq
    exact absurd hsame (by decide)

end EmbeddedCfdp
