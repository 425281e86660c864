import EmbeddedCfdp.CodecRules
import EmbeddedCfdp.BigEndian

/-!
# Big-endian helpers (`cfdp_endian.h`)

`cfdp_write_uint` consumes its value from the low end and fills the field from its
last octet backwards; `cfdp_read_uint` accumulates from the first octet on.  Both
agree with `BigEndian`: writing places the base-256 digits, reading yields the
number they denote (modulo `2 ^ 64`, which only matters beyond eight octets).
-/

namespace EmbeddedCfdp

open CMemory

/-- The loop of `cfdp_write_uint`, with `left = nbytes - i` octets still to write:
    the next one goes to index `nbytes - 1 - i`. -/
def writeUintLoop (buf : Nat) : (left : Nat) → (value : UInt64) → Writer Unit
  | 0, _ => pure ()
  | left + 1, value => do
      store (buf + left) (value &&& 0xFF).toUInt8
      writeUintLoop buf left (value >>> 8)

def writeUint (buf : Nat) (value : UInt64) (nbytes : UInt8) : Writer Unit :=
  writeUintLoop buf nbytes.toNat value

/-- The loop of `cfdp_read_uint` at index `i`, with `left = nbytes - i` octets to go. -/
def readUintLoop (buf : Ptr) : (left i : Nat) → (value : UInt64) → Except Fault UInt64
  | 0, _, value => return value
  | left + 1, i, value => do
      let octet ← buf.load i
      readUintLoop buf left (i + 1) ((value <<< 8) ||| octet.toUInt64)

def readUint (buf : Ptr) (nbytes : UInt8) : Except Fault UInt64 :=
  readUintLoop buf nbytes.toNat 0 0

/-! ### Writing -/

theorem toUInt8_and_mask (value : UInt64) :
    (value &&& 0xFF).toUInt8 = UInt8.ofNat value.toNat := by
  apply UInt8.toNat_inj.mp
  rw [UInt64.toNat_toUInt8, UInt64.toNat_and, UInt8.toNat_ofNat']
  have hmask : value.toNat &&& (2 ^ 8 - 1) = value.toNat % 2 ^ 8 :=
    Nat.and_two_pow_sub_one_eq_mod _ _
  change (value.toNat &&& (2 ^ 8 - 1)) % 2 ^ 8 = value.toNat % 2 ^ 8
  rw [hmask, Nat.mod_mod]

theorem toNat_shiftRight_eight (value : UInt64) : (value >>> 8).toNat = value.toNat / 256 := by
  rw [UInt64.toNat_shiftRight]
  change value.toNat >>> 8 = value.toNat / 256
  rw [Nat.shiftRight_eq_div_pow]

theorem writeUintLoop_apply (buf left : Nat) (value : UInt64) (m : Object)
    (h : buf + left ≤ m.extent) :
    writeUintLoop buf left value m =
      .ok ((), m.place buf (BigEndian.encode left value.toNat)) := by
  induction left generalizing value m with
  | zero => simp [writeUintLoop, BigEndian.encode]
  | succ left ih =>
    have hstore : store (buf + left) (value &&& 0xFF).toUInt8 m =
        .ok ((), m.place (buf + left) [UInt8.ofNat value.toNat]) := by
      rw [store_apply (by omega), toUInt8_and_mask]
    have hrest := ih (value >>> 8) (m.place (buf + left) [UInt8.ofNat value.toNat])
      (by rw [Object.place_extent]; omega)
    rw [writeUintLoop, Writer.bind_ok hstore, hrest, toNat_shiftRight_eight,
      Object.place_place_left (by rw [BigEndian.length_encode]), BigEndian.encode]

theorem writeUint_apply (buf : Nat) (value : UInt64) (nbytes : UInt8) (m : Object)
    (h : buf + nbytes.toNat ≤ m.extent) :
    writeUint buf value nbytes m =
      .ok ((), m.place buf (BigEndian.encode nbytes.toNat value.toNat)) :=
  writeUintLoop_apply buf nbytes.toNat value m h

/-- A write that returns has stayed inside the object. -/
theorem writeUintLoop_eq_ok {buf left : Nat} {value : UInt64} {m : Object} {r : Unit × Object}
    (h : writeUintLoop buf left value m = .ok r) (hleft : 0 < left) : buf + left ≤ m.extent := by
  cases left with
  | zero => exact absurd hleft (Nat.lt_irrefl 0)
  | succ left =>
    obtain ⟨_, m₁, hstore, -⟩ := Writer.bind_eq_ok.mp h
    unfold store at hstore
    by_cases hin : buf + left < m.extent
    · exact hin
    · rw [if_neg hin] at hstore
      cases hstore

/-- Only the low octets of the value count, whether or not the write succeeds. -/
theorem writeUintLoop_congr {buf left : Nat} {value value' : UInt64}
    (h : value.toNat % 256 ^ left = value'.toNat % 256 ^ left) :
    writeUintLoop buf left value = writeUintLoop buf left value' := by
  induction left generalizing value value' with
  | zero => rfl
  | succ left ih =>
    have hdvd : 256 ∣ 256 ^ (left + 1) := dvd_pow_self 256 (Nat.succ_ne_zero left)
    have hlow : value.toNat % 256 = value'.toNat % 256 := by
      rw [← Nat.mod_mod_of_dvd _ hdvd, h, Nat.mod_mod_of_dvd _ hdvd]
    have hoctet : (value &&& 0xFF).toUInt8 = (value' &&& 0xFF).toUInt8 := by
      rw [toUInt8_and_mask, toUInt8_and_mask]
      apply UInt8.toNat_inj.mp
      rw [UInt8.toNat_ofNat', UInt8.toNat_ofNat']
      exact hlow
    have hhigh : (value >>> 8).toNat % 256 ^ left = (value' >>> 8).toNat % 256 ^ left := by
      rw [Nat.pow_succ, Nat.mul_comm] at h
      rw [toNat_shiftRight_eight, toNat_shiftRight_eight, ← Nat.mod_mul_right_div_self, h,
        Nat.mod_mul_right_div_self]
    -- the last octet is the value modulo 256, the ones before it the quotient
    rw [writeUintLoop, writeUintLoop, hoctet, ih hhigh]

theorem writeUint_puts (buf : Nat) (value : UInt64) (nbytes : UInt8) :
    Puts (writeUint buf value nbytes) buf (BigEndian.encode nbytes.toNat value.toNat) () := by
  intro m h
  rw [BigEndian.length_encode] at h
  exact writeUint_apply buf value nbytes m h

/-! ### Reading -/

/-- One round of the reading loop appends a base-256 digit. -/
theorem shiftLeft_or_ofNat (n : Nat) (octet : UInt8) :
    (UInt64.ofNat n <<< 8) ||| octet.toUInt64 = UInt64.ofNat (n * 256 + octet.toNat) := by
  apply UInt64.toNat_inj.mp
  have hoctet : octet.toNat < 2 ^ 8 := octet.toNat_lt
  have hshift : (UInt64.ofNat n <<< 8).toNat = (n % 2 ^ 56) <<< 8 := by
    rw [UInt64.toNat_shiftLeft, UInt64.toNat_ofNat']
    change (n % 2 ^ 64) <<< 8 % 2 ^ 64 = (n % 2 ^ 56) <<< 8
    rw [Nat.shiftLeft_eq, Nat.shiftLeft_eq]
    omega
  rw [UInt64.toNat_or, UInt8.toNat_toUInt64, hshift, ← Nat.shiftLeft_add_eq_or_of_lt hoctet,
    UInt64.toNat_ofNat', Nat.shiftLeft_eq]
  omega

theorem readUintLoop_eq {buf : Ptr} {pre xs : List UInt8} (h : buf.Holds (pre ++ xs)) :
    readUintLoop buf xs.length pre.length (UInt64.ofNat (BigEndian.decode pre)) =
      .ok (UInt64.ofNat (BigEndian.decode (pre ++ xs))) := by
  induction xs generalizing pre with
  | nil => simp [readUintLoop, pure, Except.pure]
  | cons octet xs ih =>
    have hload : buf.load pre.length = .ok octet := h.load (by simp)
    have hstep := @ih (pre ++ [octet]) (by simpa using h)
    rw [List.length_append, List.length_singleton, BigEndian.decode_concat,
      ← shiftLeft_or_ofNat, List.append_assoc, List.singleton_append] at hstep
    rw [List.length_cons, readUintLoop, hload]
    exact hstep

/-- `cfdp_read_uint` yields the number its octets denote. -/
theorem readUint_eq {buf : Ptr} {xs : List UInt8} {nbytes : UInt8} (h : buf.Holds xs)
    (hlen : xs.length = nbytes.toNat) :
    readUint buf nbytes = .ok (UInt64.ofNat (BigEndian.decode xs)) := by
  rw [readUint, ← hlen]
  exact @readUintLoop_eq buf [] xs h

/-- A read that returns has stayed inside the object. -/
theorem readUintLoop_eq_ok {buf : Ptr} {left i : Nat} {value value' : UInt64}
    (h : readUintLoop buf left i value = .ok value') (hleft : 0 < left) :
    i + left ≤ buf.readable.length := by
  induction left generalizing i value with
  | zero => exact absurd hleft (Nat.lt_irrefl 0)
  | succ left ih =>
    rw [readUintLoop] at h
    unfold Ptr.load at h
    cases hoctet : buf.readable[i]? with
    | none =>
      rw [hoctet] at h
      cases h
    | some octet =>
      rw [hoctet] at h
      have hi : i < buf.readable.length := (List.getElem?_eq_some_iff.mp hoctet).1
      -- the last octet read is the one that has to be there
      rcases Nat.eq_zero_or_pos left with rfl | hmore
      · exact hi
      · have hrest := ih h hmore
        omega

/-- The integer in the `n` octets from index `k` on. -/
def uintAt (xs : List UInt8) (k n : Nat) : UInt64 := UInt64.ofNat (BigEndian.decode (slice xs k n))

theorem uintAt_append {pre ys post : List UInt8} {k n : Nat} (hk : k = pre.length)
    (hn : n = ys.length) :
    uintAt (pre ++ (ys ++ post)) k n = UInt64.ofNat (BigEndian.decode ys) := by
  rw [uintAt, slice_append hk hn]

theorem readUint_add {buf : Ptr} {xs : List UInt8} {k : Nat} {nbytes : UInt8}
    (h : buf.Holds xs) (hk : k + nbytes.toNat ≤ xs.length) :
    readUint (buf.add k) nbytes = .ok (uintAt xs k nbytes.toNat) :=
  readUint_eq (h.slice hk) (length_slice hk)

theorem toNat_ofNat_decode {xs : List UInt8} (h : xs.length ≤ 8) :
    (UInt64.ofNat (BigEndian.decode xs)).toNat = BigEndian.decode xs := by
  have hlt := BigEndian.decode_lt xs
  have hpow : 256 ^ xs.length ≤ 256 ^ 8 := Nat.pow_le_pow_right (by norm_num) h
  rw [UInt64.toNat_ofNat']
  omega

/-- Reading an encoded field gives the value modulo the field's range. -/
theorem ofNat_decode_encode (n : Nat) (value : UInt64) :
    UInt64.ofNat (BigEndian.decode (BigEndian.encode n value.toNat)) =
      UInt64.ofNat (value.toNat % 256 ^ n) := by
  rw [BigEndian.decode_encode]

/-- Encoding what was read from a field of at most eight octets gives the field back. -/
theorem encode_ofNat_decode {xs : List UInt8} (h : xs.length ≤ 8) :
    BigEndian.encode xs.length (UInt64.ofNat (BigEndian.decode xs)).toNat = xs := by
  rw [toNat_ofNat_decode h, BigEndian.encode_decode]

theorem encode_uintAt {xs : List UInt8} {k n : Nat} (hk : k + n ≤ xs.length) (hn : n ≤ 8) :
    BigEndian.encode n (uintAt xs k n).toNat = slice xs k n := by
  have hlen := length_slice hk
  have h := @encode_ofNat_decode (slice xs k n) (by omega)
  rwa [hlen] at h

/-! ### The helpers are inverse to each other -/

/-- Where a field of at most eight octets is written, exactly its octets change. -/
theorem writeUint_local {value : UInt64} {nbytes : UInt8} {m : Object} {i : Nat}
    (h : i + nbytes.toNat ≤ m.extent) :
    ∃ m', writeUint i value nbytes m = .ok ((), m') ∧ m.SameOutside m' i nbytes.toNat ∧
      (Ptr.mk m' i).Holds (BigEndian.encode nbytes.toNat value.toNat) := by
  refine ⟨_, writeUint_apply i value nbytes m h, Object.sameOutside_place ?_,
    Object.place_holds ?_⟩
  · rw [BigEndian.length_encode]
  · rwa [BigEndian.length_encode]

/-- **Main result.** `cfdp_write_uint` changes the octets of its field only, to the base-256
    digits of the value; `cfdp_read_uint` yields the value of these digits, and writing what
    it has read gives the octets back. -/
theorem uint_helpers_inverse (nbytes : UInt8) (hmax : nbytes ≤ 8) :
    (∀ (value : UInt64) (m : Object) (i : Nat), i + nbytes.toNat ≤ m.extent →
      ∃ m', writeUint i value nbytes m = .ok ((), m') ∧ m.SameOutside m' i nbytes.toNat ∧
        (∀ k < nbytes.toNat, ∃ octet, m'.octets[i + k]? = some octet ∧
          octet.toNat = value.toNat % 256 ^ nbytes.toNat / 256 ^ (nbytes.toNat - 1 - k) % 256) ∧
        ∃ value', readUint ⟨m', i⟩ nbytes = .ok value' ∧
          value'.toNat = value.toNat % 256 ^ nbytes.toNat) ∧
    (∀ (p : Ptr) (b : List UInt8), b.length = nbytes.toNat → p.Holds b →
      ∃ value, readUint p nbytes = .ok value ∧
        ∀ (m : Object) (i : Nat), i + nbytes.toNat ≤ m.extent →
          ∃ m', writeUint i value nbytes m = .ok ((), m') ∧ m.SameOutside m' i nbytes.toNat ∧
            octetsAt (some ⟨m', i⟩) nbytes.toNat = b) := by
  have hwidth : nbytes.toNat ≤ 8 := UInt8.le_iff_toNat_le.mp hmax
  constructor
  -- what is written, and read back
  · intro value m i hfit
    obtain ⟨m', hrun, hsame, hholds⟩ := @writeUint_local value nbytes m i hfit
    refine ⟨m', hrun, hsame, ?_, ?_⟩
    · intro k hk
      rw [← BigEndian.encode_mod] at hholds
      have hdigit := BigEndian.getElem?_encode (value.toNat % 256 ^ nbytes.toNat) hk
      exact ⟨_, hholds.octets hdigit, UInt8.toNat_ofNat'⟩
    · refine ⟨_, readUint_eq hholds (BigEndian.length_encode _ _), ?_⟩
      rw [toNat_ofNat_decode (by rwa [BigEndian.length_encode]), BigEndian.decode_encode]
  -- what is read, and written back
  · intro p b hlen hholds
    refine ⟨_, readUint_eq hholds hlen, ?_⟩
    intro m i hfit
    obtain ⟨m', hrun, hsame, hback⟩ :=
      @writeUint_local (UInt64.ofNat (BigEndian.decode b)) nbytes m i hfit
    refine ⟨m', hrun, hsame, ?_⟩
    rw [← hlen, encode_ofNat_decode (by omega)] at hback
    rw [← hlen, hback.octetsAt]

/-- All eight octets of a value, and back. -/
theorem uint_helpers_inverse_sample :
    ∃ m', writeUint 0 0x0102030405060708 8 (Object.full [0, 0, 0, 0, 0, 0, 0, 0]) = .ok ((), m') ∧
      ∃ value', readUint ⟨m', 0⟩ 8 = .ok value' ∧ value'.toNat = 0x0102030405060708 := by
  obtain ⟨m', hrun, -, -, hread⟩ := (uint_helpers_inverse 8 (by decide)).1 0x0102030405060708
    (Object.full [0, 0, 0, 0, 0, 0, 0, 0]) 0 (by decide)
  exact ⟨m', hrun, hread⟩

end EmbeddedCfdp
