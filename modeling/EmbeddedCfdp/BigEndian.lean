import Mathlib.Tactic

/-!
# Big-endian integers

The base-256 digits of a natural number, most significant first, in a given number
of octets, and the number that an octet string denotes.  Encoding keeps the number
modulo `256 ^ n`; decoding is a bijection between the octet strings of length `n`
and the numbers below `256 ^ n`.
-/

namespace BigEndian

/-- The low `n` base-256 digits of `v`, most significant first. -/
def encode : Nat → Nat → List UInt8
  | 0, _ => []
  | n + 1, v => encode n (v / 256) ++ [UInt8.ofNat v]

/-- The number whose base-256 digits are `xs`, most significant first. -/
def decode (xs : List UInt8) : Nat := xs.foldl (fun v b => v * 256 + b.toNat) 0

@[simp] theorem length_encode (n v : Nat) : (encode n v).length = n := by
  induction n generalizing v with
  | zero => rfl
  | succ n ih => simp [encode, ih]

theorem decode_concat (xs : List UInt8) (b : UInt8) :
    decode (xs ++ [b]) = decode xs * 256 + b.toNat := by
  simp only [decode, List.foldl_append, List.foldl_cons, List.foldl_nil]

theorem decode_cons (b : UInt8) (xs : List UInt8) :
    decode (b :: xs) = b.toNat * 256 ^ xs.length + decode xs := by
  induction xs using List.reverseRecOn with
  | nil => simp [decode]
  | append_singleton xs c ih =>
    rw [← List.cons_append, decode_concat, ih, decode_concat, List.length_append,
      List.length_singleton, Nat.pow_succ]
    ring

theorem decode_lt (xs : List UInt8) : decode xs < 256 ^ xs.length := by
  induction xs using List.reverseRecOn with
  | nil => simp [decode]
  | append_singleton xs b ih =>
    have hb := b.toNat_lt
    rw [decode_concat, List.length_append, List.length_singleton, Nat.pow_succ]
    omega

theorem decode_encode (n v : Nat) : decode (encode n v) = v % 256 ^ n := by
  induction n generalizing v with
  | zero => simp [encode, decode, Nat.mod_one]
  | succ n ih =>
    rw [encode, decode_concat, ih, Nat.pow_succ, Nat.mul_comm (256 ^ n) 256, Nat.mod_mul,
      UInt8.toNat_ofNat']
    omega

theorem encode_decode (xs : List UInt8) : encode xs.length (decode xs) = xs := by
  induction xs using List.reverseRecOn with
  | nil => rfl
  | append_singleton xs b ih =>
    have hb := b.toNat_lt
    have hdiv : (decode xs * 256 + b.toNat) / 256 = decode xs := by omega
    have hlow : UInt8.ofNat (decode xs * 256 + b.toNat) = b := by
      apply UInt8.toNat_inj.mp
      rw [UInt8.toNat_ofNat']
      omega
    rw [List.length_append, List.length_singleton, encode, decode_concat, hdiv, hlow, ih]

theorem decode_injective {xs ys : List UInt8} (hlen : xs.length = ys.length)
    (h : decode xs = decode ys) : xs = ys := by
  rw [← encode_decode xs, hlen, h, encode_decode]

/-- The digit of weight `256 ^ (n - 1 - k)` is the `k`-th octet. -/
theorem getElem?_encode {n k : Nat} (v : Nat) (hk : k < n) :
    (encode n v)[k]? = some (UInt8.ofNat (v / 256 ^ (n - 1 - k))) := by
  induction n generalizing v with
  | zero => exact absurd hk (Nat.not_lt_zero k)
  | succ n ih =>
    rw [encode, Nat.add_sub_cancel]
    rcases Nat.lt_or_eq_of_le (Nat.le_of_lt_succ hk) with hlt | rfl
    · have hweight : n - k = n - 1 - k + 1 := by omega
      rw [List.getElem?_append_left (by simpa using hlt), ih (v / 256) hlt, hweight,
        Nat.div_div_eq_div_mul, Nat.pow_succ']
    · simp

/-- Only the value modulo `256 ^ n` is encoded. -/
theorem encode_mod (n v : Nat) : encode n (v % 256 ^ n) = encode n v := by
  have hlen : (encode n v).length = n := length_encode n v
  have hroundtrip := encode_decode (encode n v)
  rwa [hlen, decode_encode] at hroundtrip

end BigEndian
