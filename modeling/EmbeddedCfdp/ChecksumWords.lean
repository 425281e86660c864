import EmbeddedCfdp.Checksum
import EmbeddedCfdp.WordSum

/-!
# The modular checksum as a sum of words

`cfdp_checksum_update` picks the byte lane of an octet from its offset in the file.  Lane
by lane this is the sum, modulo `2 ^ 32`, of the file's big-endian words of four octets,
the last one filled up with zero octets.
-/

namespace EmbeddedCfdp

open CMemory

variable {T : Target}

theorem and_three (pos : UInt64) : pos &&& 0x3 = UInt64.ofNat (pos.toNat % 4) := by
  apply UInt64.toNat_inj.mp
  have hmask : pos.toNat &&& (2 ^ 2 - 1) = pos.toNat % 2 ^ 2 :=
    Nat.and_two_pow_sub_one_eq_mod _ _
  rw [UInt64.toNat_and, UInt64.toNat_ofNat']
  change pos.toNat &&& (2 ^ 2 - 1) = pos.toNat % 4 % 2 ^ 64
  rw [hmask]
  omega

theorem toUInt32_shiftLeft (octet : UInt8) {shift : UInt32} (h : shift.toNat < 32) :
    octet.toUInt32 <<< shift = UInt32.ofNat (octet.toNat * 2 ^ shift.toNat) := by
  apply UInt32.toNat_inj.mp
  rw [UInt32.toNat_shiftLeft, UInt32.toNat_ofNat', UInt8.toNat_toUInt32, Nat.mod_eq_of_lt h,
    Nat.shiftLeft_eq]

theorem laneWeight_four (pos : Nat) : WordSum.laneWeight 4 pos = 2 ^ (8 * (3 - pos % 4)) := by
  rw [WordSum.laneWeight, Nat.pow_mul]

/-- The shift of `cfdp_checksum_update` gives the octet the weight of its lane. -/
theorem checksumLane_eq (pos : UInt64) (octet : UInt8) :
    checksumLane pos octet = UInt32.ofNat (octet.toNat * WordSum.laneWeight 4 pos.toNat) := by
  have hlane : pos.toNat % 4 < 4 := Nat.mod_lt _ (by decide)
  have hshift : ∀ lane < 4, (8 * (3 - (UInt64.ofNat lane).toUInt8)).toUInt32.toNat =
      8 * (3 - lane) := by decide
  rw [checksumLane, and_three, toUInt32_shiftLeft octet (by rw [hshift _ hlane]; omega),
    hshift _ hlane, laneWeight_four]

theorem checksumSum_eq (pos : UInt64) (xs : List UInt8) :
    checksumSum pos xs = UInt32.ofNat (WordSum.laneSum 4 pos.toNat xs) := by
  induction xs generalizing pos with
  | nil => rfl
  | cons octet xs ih =>
    -- a position past `2 ^ 64` has wrapped, which keeps its lane
    have hwrap : (pos + 1).toNat % 4 = (pos.toNat + 1) % 4 := by
      rw [UInt64.toNat_add]
      change (pos.toNat + 1) % 2 ^ 64 % 4 = (pos.toNat + 1) % 4
      omega
    rw [checksumSum, checksumLane_eq, ih, WordSum.laneSum, WordSum.laneSum_of_mod_eq hwrap,
      UInt32.ofNat_add]

/-- What `cfdp_checksum_update` returns, as a number. -/
theorem checksumUpdate_laneSum {data : Option Ptr} {len : Size T} (hr : Readable data len.toNat)
    (checksum : UInt32) (offset : UInt64) :
    ∃ sum, checksumUpdate checksum offset data len = .ok sum ∧
      sum.toNat =
        (checksum.toNat + WordSum.laneSum 4 offset.toNat (octetsAt data len.toNat)) % 2 ^ 32 := by
  refine ⟨_, checksumUpdate_octetsAt hr checksum offset, ?_⟩
  rw [checksumSum_eq, UInt32.toNat_add, UInt32.toNat_ofNat', Nat.add_mod_mod]

/-- **Main result.** An octet counts `2 ^ (8 * (3 - lane))` times, at every offset, and the
    checksum of a file is the sum of its words. -/
theorem checksum_word_sum :
    (∀ (checksum : UInt32) (offset : UInt64) (data : Option Ptr) (len : Size T),
      Readable data len.toNat →
      ∃ sum, checksumUpdate checksum offset data len = .ok sum ∧
        sum.toNat = (checksum.toNat + ∑ i ∈ Finset.range (octetsAt data len.toNat).length,
          ((octetsAt data len.toNat).getD i 0).toNat *
            2 ^ (8 * (3 - (offset.toNat + i) % 4))) % 2 ^ 32) ∧
    (∀ (data : Option Ptr) (len : Size T), Readable data len.toNat →
      ∃ sum, checksumCompute data len = .ok sum ∧
        sum.toNat = WordSum.wordSum 4 (WordSum.padded 4 (octetsAt data len.toNat)) % 2 ^ 32) := by
  constructor
  · intro checksum offset data len hr
    obtain ⟨sum, hrun, hsum⟩ := checksumUpdate_laneSum hr checksum offset
    refine ⟨sum, hrun, ?_⟩
    rw [hsum, WordSum.laneSum_eq_sum]
    simp only [laneWeight_four]
  · intro data len hr
    obtain ⟨sum, hrun, hsum⟩ := checksumUpdate_laneSum hr 0 0
    refine ⟨sum, hrun, ?_⟩
    have hoffset : (0 : UInt64).toNat = 0 := rfl
    have hstart : (0 : UInt32).toNat = 0 := rfl
    rw [hsum, hoffset, hstart, Nat.zero_add, WordSum.laneSum_eq_wordSum (by decide)]

/-- Five octets: two words, the second one padded. -/
theorem checksum_word_sum_sample :
    ∃ sum, checksumCompute (some ⟨Object.full [0x01, 0x02, 0x03, 0x04, 0x05], 0⟩)
        (sz 5 : Size .checked32) = .ok sum ∧ sum.toNat = 0x06020304 := by
  have hreadable : Readable (some (Ptr.mk (Object.full [0x01, 0x02, 0x03, 0x04, 0x05]) 0))
      (sz 5 : Size .checked32).toNat :=
    (Object.holds_whole _).readable (by decide)
  obtain ⟨sum, hrun, hsum⟩ := checksum_word_sum.2 _ _ hreadable
  refine ⟨sum, hrun, ?_⟩
  rw [hsum]
  decide

end EmbeddedCfdp
