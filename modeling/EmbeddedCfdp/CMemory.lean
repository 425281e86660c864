import Mathlib.Tactic
import Mathlib.Data.List.Infix

/-!
# Octet memory of a C program

A C function sees memory through pointers into objects and does its length
arithmetic in `size_t`.  This module is a small library for both: the width of
`size_t` is a parameter, an object carries the extent up to which it may be
accessed, and an access past the extent, a null dereference, or (on a target that
traps it) an unsigned underflow is a `Fault` rather than a value.

Readers are functions into `Except Fault`; writers thread the object they fill
through `Writer`.  Nothing here depends on what is being encoded.
-/

namespace CMemory

/-! ### Targets and `size_t` -/

/-- What length arithmetic depends on: the width of `size_t` (at least the 16
    bits of C99) and whether a `size_t` subtraction that underflows is trapped,
    as a sanitizer does, or wraps, as plain C does. -/
structure Target where
  sizeBits : Nat
  trapsUnderflow : Bool
  sizeBits_ge : 16 ≤ sizeBits

/-- A sanitized build for a 32-bit machine. -/
def Target.checked32 : Target := ⟨32, true, by norm_num⟩

/-- A plain build for a 16-bit machine. -/
def Target.plain16 : Target := ⟨16, false, by norm_num⟩

/-- What goes wrong where C leaves the behaviour undefined (or a sanitizer stops). -/
inductive Fault where
  | outOfBounds
  | nullPointer
  | underflow
  | unfinished
deriving DecidableEq, Repr

/-- `size_t`. -/
abbrev Size (T : Target) := BitVec T.sizeBits

variable {T : Target}

/-- The conversion of a natural number to `size_t`. -/
def sz (n : Nat) : Size T := BitVec.ofNat T.sizeBits n

/-- `a - b` in `size_t`. -/
def Size.sub (a b : Size T) : Except Fault (Size T) :=
  if T.trapsUnderflow && decide (a < b) then .error .underflow else .ok (a - b)

theorem Target.two_pow_ge (T : Target) : 65536 ≤ 2 ^ T.sizeBits := by
  calc 65536 = 2 ^ 16 := by norm_num
    _ ≤ 2 ^ T.sizeBits := Nat.pow_le_pow_right (by norm_num) T.sizeBits_ge

theorem Target.two_pow_ge_of_le (T : Target) (h : 32 ≤ T.sizeBits) :
    4294967296 ≤ 2 ^ T.sizeBits := by
  calc 4294967296 = 2 ^ 32 := by norm_num
    _ ≤ 2 ^ T.sizeBits := Nat.pow_le_pow_right (by norm_num) h

theorem toNat_sz {n : Nat} (h : n < 2 ^ T.sizeBits) : (sz n : Size T).toNat = n := by
  simp only [sz, BitVec.toNat_ofNat, Nat.mod_eq_of_lt h]

@[simp] theorem sz_toNat (n : Size T) : sz n.toNat = n := by
  simp only [sz, BitVec.ofNat_toNat, BitVec.setWidth_eq]

@[simp] theorem sz_add (a b : Nat) : (sz a : Size T) + sz b = sz (a + b) :=
  (BitVec.ofNat_add a b).symm

theorem sz_lt_sz {a b : Nat} (ha : a < 2 ^ T.sizeBits) (hb : b < 2 ^ T.sizeBits) :
    (sz a : Size T) < sz b ↔ a < b := by
  rw [BitVec.lt_def, toNat_sz ha, toNat_sz hb]

theorem sz_inj {a b : Nat} (ha : a < 2 ^ T.sizeBits) (hb : b < 2 ^ T.sizeBits) :
    (sz a : Size T) = sz b ↔ a = b := by
  rw [← BitVec.toNat_inj, toNat_sz ha, toNat_sz hb]

/-- A subtraction that does not underflow is exact on every target. -/
theorem sub_sz {a b : Nat} (ha : a < 2 ^ T.sizeBits) (hab : b ≤ a) :
    Size.sub (sz a : Size T) (sz b) = .ok (sz (a - b)) := by
  have hb : b < 2 ^ T.sizeBits := by omega
  have hnot : ¬ (sz a : Size T) < sz b := by
    rw [sz_lt_sz ha hb]
    omega
  have hsub : (sz a : Size T) - sz b = sz (a - b) := by
    have hsum : (sz (a - b) : Size T) + sz b = sz a := by
      rw [sz_add, Nat.sub_add_cancel hab]
    rw [← hsum, BitVec.add_sub_cancel]
  simp only [Size.sub, hnot, decide_false, Bool.and_false, Bool.false_eq_true, if_false, hsub]

/-! ### Overwriting a stretch of a list -/

/-- `l` with the elements from index `i` on replaced by `xs`; what does not fit
    into `l` is dropped. -/
def overwrite {α : Type} (l : List α) (i : Nat) (xs : List α) : List α :=
  l.mapIdx fun j b => if i ≤ j then xs.getD (j - i) b else b

section Overwrite

variable {α : Type} (l : List α) (i : Nat) (xs ys : List α)

@[simp] theorem length_overwrite : (overwrite l i xs).length = l.length := by
  simp only [overwrite, List.length_mapIdx]

theorem getElem?_overwrite (j : Nat) :
    (overwrite l i xs)[j]? =
      l[j]?.map fun b => if i ≤ j then xs.getD (j - i) b else b := by
  simp only [overwrite, List.getElem?_mapIdx]

@[simp] theorem overwrite_nil : overwrite l i [] = l := by
  apply List.ext_getElem?
  intro j
  rw [getElem?_overwrite]
  cases l[j]? <;> simp

/-- Writing `ys` right behind `xs` is writing `xs ++ ys`. -/
theorem overwrite_overwrite_right :
    overwrite (overwrite l i xs) (i + xs.length) ys = overwrite l i (xs ++ ys) := by
  apply List.ext_getElem?
  intro j
  simp only [getElem?_overwrite, Option.map_map]
  congr 1
  funext b
  simp only [Function.comp_apply, List.getD_eq_getElem?_getD]
  -- position by position: before the first string, in it, or behind it
  by_cases hi : i ≤ j
  · by_cases hx : i + xs.length ≤ j
    · have hlen : xs.length ≤ j - i := by omega
      have hsub : j - i - xs.length = j - (i + xs.length) := by omega
      simp [hi, hx, List.getElem?_append_right hlen, hsub, hlen]
    · have hlen : j - i < xs.length := by omega
      simp [hi, hx, List.getElem?_append_left hlen]
  · have hx : ¬ i + xs.length ≤ j := by omega
    simp [hi, hx]

/-- Writing `xs` in front of `ys`, after `ys`, is writing `xs ++ ys`. -/
theorem overwrite_overwrite_left :
    overwrite (overwrite l (i + xs.length) ys) i xs = overwrite l i (xs ++ ys) := by
  apply List.ext_getElem?
  intro j
  simp only [getElem?_overwrite, Option.map_map]
  congr 1
  funext b
  simp only [Function.comp_apply, List.getD_eq_getElem?_getD]
  -- position by position: before the first string, in it, or behind it
  by_cases hi : i ≤ j
  · by_cases hx : i + xs.length ≤ j
    · have hlen : xs.length ≤ j - i := by omega
      have hsub : j - i - xs.length = j - (i + xs.length) := by omega
      simp [hi, hx, List.getElem?_append_right hlen, hsub, hlen]
    · have hlen : j - i < xs.length := by omega
      simp [hi, hx, List.getElem?_append_left hlen]
  · have hx : ¬ i + xs.length ≤ j := by omega
    simp [hi, hx]

variable {l i xs}

/-- Where `xs` fits, overwriting is cutting `l` open around it. -/
theorem overwrite_eq_append (h : i + xs.length ≤ l.length) :
    overwrite l i xs = l.take i ++ xs ++ l.drop (i + xs.length) := by
  apply List.ext_getElem?
  intro j
  rw [getElem?_overwrite]
  -- an index lies behind what was written, in it, or before it
  by_cases hi : i ≤ j
  · by_cases hx : i + xs.length ≤ j
    · have hlen : (l.take i ++ xs).length ≤ j := by simp; omega
      have hsub : i + xs.length + (j - (l.take i ++ xs).length) = j := by simp; omega
      rw [List.getElem?_append_right hlen, List.getElem?_drop, hsub]
      have hover : xs.length ≤ j - i := by omega
      cases l[j]? <;> simp [hi, hover]
    · have hj : j < l.length := by omega
      have hmin : min i l.length = i := by omega
      rw [List.getElem?_append_left (by simp; omega), List.getElem?_append_right (by simp; omega)]
      have hxj : j - i < xs.length := by omega
      simp [hi, hj, hmin, List.getElem?_eq_getElem hxj]
  · rw [List.getElem?_append_left (by simp; omega), List.getElem?_append_left (by simp; omega),
      List.getElem?_take_of_lt (by omega)]
    cases l[j]? <;> simp [hi]

end Overwrite

/-! ### Objects and pointers -/

/-- A memory object.  Only the octets below `extent` may be accessed. -/
structure Object where
  octets : List UInt8
  extent : Nat
  extent_le : extent ≤ octets.length

/-- A pointer: the object pointed into and the offset of the octet pointed at. -/
structure Ptr where
  object : Object
  off : Nat

/-- An object all of whose octets may be accessed. -/
def Object.full (octets : List UInt8) : Object := ⟨octets, octets.length, Nat.le_refl _⟩

/-- `&p[i]`. -/
def Ptr.add (p : Ptr) (i : Nat) : Ptr := ⟨p.object, p.off + i⟩

/-- The same pointer where only the next `n` octets may be accessed. -/
def Ptr.limit (p : Ptr) (n : Nat) : Ptr :=
  ⟨⟨p.object.octets, min p.object.extent (p.off + n),
    Nat.le_trans (Nat.min_le_left _ _) p.object.extent_le⟩, p.off⟩

/-- The octets that may be read through `p`, in order. -/
def Ptr.readable (p : Ptr) : List UInt8 := (p.object.octets.take p.object.extent).drop p.off

/-- `p[i]`. -/
def Ptr.load (p : Ptr) (i : Nat) : Except Fault UInt8 :=
  match p.readable[i]? with
  | some b => .ok b
  | none => .error .outOfBounds

/-- The pointer operand of an access must not be null. -/
def deref : Option Ptr → Except Fault Ptr
  | some p => .ok p
  | none => .error .nullPointer

/-- `p` is positioned at the octets `xs`, all of which may be read. -/
def Ptr.Holds (p : Ptr) (xs : List UInt8) : Prop := xs <+: p.readable

/-- The `n` octets at a pointer that may be null. -/
def octetsAt (p : Option Ptr) (n : Nat) : List UInt8 :=
  match p with
  | some p => p.readable.take n
  | none => []

/-- A pointer, unless null, gives access to `n` octets. -/
def Readable (p : Option Ptr) (n : Nat) : Prop := ∀ q, p = some q → n ≤ q.readable.length

section Pointers

variable {p : Ptr} {xs ys : List UInt8} {i n : Nat} {b : UInt8}

@[simp] theorem Ptr.add_add (j : Nat) : (p.add i).add j = p.add (i + j) := by
  simp only [Ptr.add, Nat.add_assoc]

theorem Ptr.readable_add : (p.add i).readable = p.readable.drop i := by
  simp only [Ptr.readable, Ptr.add, List.drop_drop]

theorem Ptr.readable_limit : (p.limit n).readable = p.readable.take n := by
  have hmin : min (min p.object.extent (p.off + n) - p.off)
      (p.object.octets.length - p.off) =
      min n (min (p.object.extent - p.off) (p.object.octets.length - p.off)) := by omega
  simp only [Ptr.readable, Ptr.limit, List.drop_take, List.take_take]
  rw [← List.length_drop] at hmin
  rw [List.take_eq_take_iff, hmin, Nat.min_assoc]

theorem Ptr.Holds.length_le (h : p.Holds xs) : xs.length ≤ p.readable.length :=
  List.IsPrefix.length_le h

theorem Ptr.Holds.left (h : p.Holds (xs ++ ys)) : p.Holds xs :=
  (List.prefix_append xs ys).trans h

theorem Ptr.Holds.right (h : p.Holds (xs ++ ys)) : (p.add xs.length).Holds ys := by
  obtain ⟨zs, hzs⟩ := h
  refine ⟨zs, ?_⟩
  rw [Ptr.readable_add, ← hzs, List.append_assoc, List.drop_left]

theorem Ptr.Holds.append (h : p.Holds xs) (h' : (p.add xs.length).Holds ys) :
    p.Holds (xs ++ ys) := by
  obtain ⟨zs, hzs⟩ := h
  rw [Ptr.Holds, Ptr.readable_add, ← hzs, List.drop_left] at h'
  rw [Ptr.Holds, ← hzs]
  exact (List.prefix_append_right_inj xs).mpr h'

theorem Ptr.Holds.tail {x : UInt8} (h : p.Holds (x :: xs)) : (p.add 1).Holds xs :=
  @Ptr.Holds.right p [x] xs h

theorem Ptr.Holds.take (h : p.Holds xs) (n : Nat) : p.Holds (xs.take n) :=
  (List.take_prefix n xs).trans h

theorem Ptr.Holds.drop (h : p.Holds xs) (n : Nat) (hn : n ≤ xs.length) :
    (p.add n).Holds (xs.drop n) := by
  have hsplit : p.Holds (xs.take n ++ xs.drop n) := by rwa [List.take_append_drop]
  have hlen : (xs.take n).length = n := List.length_take_of_le hn
  simpa only [hlen] using hsplit.right

theorem Ptr.Holds.getElem? (h : p.Holds xs) (hb : xs[i]? = some b) : p.readable[i]? = some b := by
  obtain ⟨zs, hzs⟩ := h
  have hlt : i < xs.length := (List.getElem?_eq_some_iff.mp hb).1
  rw [← hzs, List.getElem?_append_left hlt, hb]

theorem Ptr.Holds.load (h : p.Holds xs) (hb : xs[i]? = some b) : p.load i = .ok b := by
  simp only [Ptr.load, h.getElem? hb]

theorem Ptr.Holds.octets (h : p.Holds xs) (hb : xs[i]? = some b) :
    p.object.octets[p.off + i]? = some b := by
  have hget := h.getElem? hb
  rw [Ptr.readable, List.getElem?_drop] at hget
  have hin : p.off + i < p.object.extent := by
    by_contra hout
    rw [List.getElem?_take_eq_none (Nat.le_of_not_lt hout)] at hget
    cases hget
  rwa [List.getElem?_take_of_lt hin] at hget

theorem Ptr.Holds.octetsAt (h : p.Holds xs) : octetsAt (some p) xs.length = xs := by
  obtain ⟨zs, hzs⟩ := h
  simp only [CMemory.octetsAt, ← hzs, List.take_left]

theorem Ptr.Holds.readable (h : p.Holds xs) (hn : n ≤ xs.length) : Readable (some p) n := by
  rintro q ⟨⟩
  exact Nat.le_trans hn h.length_le

theorem holds_octetsAt : p.Holds (octetsAt (some p) n) :=
  List.take_prefix n p.readable

theorem Readable.length (h : Readable (some p) n) :
    (CMemory.octetsAt (some p) n).length = n :=
  List.length_take_of_le (h p rfl)

theorem length_octetsAt_le (value : Option Ptr) (n : Nat) : (octetsAt value n).length ≤ n := by
  cases value with
  | none => exact Nat.zero_le _
  | some p => exact List.length_take_le _ _

/-- As many of the octets as may be read are there. -/
theorem min_le_length_octetsAt {k : Nat} (h : min n k ≤ p.readable.length) :
    min n k ≤ (octetsAt (some p) n).length := by
  rw [octetsAt, List.length_take]
  omega

theorem Ptr.readable_of_extent (h : p.off + n ≤ p.object.extent) : Readable (some p) n := by
  rintro q ⟨⟩
  have hle := p.object.extent_le
  simp only [Ptr.readable, List.length_drop, List.length_take]
  omega

@[simp] theorem octetsAt_none : octetsAt none n = [] := rfl

@[simp] theorem octetsAt_zero (p : Option Ptr) : octetsAt p 0 = [] := by
  cases p <;> simp [octetsAt]

/-- A pointer into an octet string that is an object of its own. -/
theorem Object.holds_full (pre xs post : List UInt8) :
    (Ptr.mk (Object.full (pre ++ xs ++ post)) pre.length).Holds xs := by
  refine ⟨post, ?_⟩
  simp only [Ptr.readable, Object.full, List.take_length, List.append_assoc, List.drop_left]

/-- A pointer to the start of an octet string that is an object of its own. -/
theorem Object.holds_whole (xs : List UInt8) : (Ptr.mk (Object.full xs) 0).Holds xs := by
  have hfull := Object.holds_full [] xs []
  rwa [List.append_nil] at hfull

end Pointers

/-! ### Writing -/

/-- A C function that writes into one object. -/
abbrev Writer := StateT Object (Except Fault)

/-- The object with `xs` written at offset `i`. -/
def Object.place (m : Object) (i : Nat) (xs : List UInt8) : Object :=
  ⟨overwrite m.octets i xs, m.extent, by rw [length_overwrite]; exact m.extent_le⟩

/-- `buf[i] = b`, with `buf` the start of the object. -/
def store (i : Nat) (b : UInt8) : Writer Unit := fun m =>
  if i < m.extent then .ok ((), m.place i [b]) else .error .outOfBounds

/-- `memcpy(&buf[i], src, n)`, with `buf` the start of the object. -/
def memcpy (i : Nat) (src : Option Ptr) (n : Nat) : Writer Unit := fun m =>
  match src with
  | some p =>
      if n ≤ p.readable.length ∧ i + n ≤ m.extent then
        .ok ((), m.place i (octetsAt (some p) n))
      else .error .outOfBounds
  | none => .error .nullPointer

/-- A `size_t` subtraction inside a writer. -/
def Size.subW (a b : Size T) : Writer (Size T) := fun m => (Size.sub a b).map (·, m)

section Writing

variable {α β : Type} {m m' : Object} {i k n : Nat} {xs ys : List UInt8} {b : UInt8}

theorem Writer.bind_ok {x : Writer α} {f : α → Writer β} {a : α} (h : x m = .ok (a, m')) :
    (x >>= f) m = f a m' := by
  change (x m >>= fun r => f r.1 r.2) = f a m'
  rw [h]
  rfl

/-- A computation that only reads. -/
theorem Writer.lift_ok {x : Except Fault α} {a : α} (h : x = .ok a) :
    (liftM x : Writer α) m = .ok (a, m) := by
  rw [h]
  rfl

@[simp] theorem Writer.pure_apply (a : α) : (pure a : Writer α) m = .ok (a, m) := rfl

@[simp] theorem Object.place_extent : (m.place i xs).extent = m.extent := rfl

@[simp] theorem Object.place_octets : (m.place i xs).octets = overwrite m.octets i xs := rfl

theorem Object.ext' (ho : m.octets = m'.octets) (he : m.extent = m'.extent) : m = m' := by
  cases m
  cases m'
  cases ho
  cases he
  rfl

@[simp] theorem Object.place_nil : m.place i [] = m :=
  Object.ext' (overwrite_nil _ _) rfl

theorem Object.place_place_right (h : k = i + xs.length) :
    (m.place i xs).place k ys = m.place i (xs ++ ys) := by
  subst h
  exact Object.ext' (overwrite_overwrite_right _ _ _ _) rfl

theorem Object.place_place_left (h : k = i + xs.length) :
    (m.place k ys).place i xs = m.place i (xs ++ ys) := by
  subst h
  exact Object.ext' (overwrite_overwrite_left _ _ _ _) rfl

theorem store_apply (h : i < m.extent) : store i b m = .ok ((), m.place i [b]) := by
  simp only [store, if_pos h]

theorem memcpy_apply {src : Option Ptr} (hsrc : src ≠ none) (hr : Readable src n)
    (h : i + n ≤ m.extent) : memcpy i src n m = .ok ((), m.place i (octetsAt src n)) := by
  cases src with
  | none => exact (hsrc rfl).elim
  | some p => simp only [memcpy, if_pos (And.intro (hr p rfl) h)]

/-- What was written can be read back. -/
theorem Object.place_holds (h : i + xs.length ≤ m.extent) :
    (Ptr.mk (m.place i xs) i).Holds xs := by
  have hle := m.extent_le
  have hfit : i + xs.length ≤ m.octets.length := Nat.le_trans h hle
  have hlen : (m.octets.take i).length = i := List.length_take_of_le (by omega)
  refine ⟨(m.octets.drop (i + xs.length)).take (m.extent - (i + xs.length)), ?_⟩
  have hcut : (m.octets.take i ++ xs ++ m.octets.drop (i + xs.length)).take m.extent =
      m.octets.take i ++ (xs ++
        (m.octets.drop (i + xs.length)).take (m.extent - (i + xs.length))) := by
    rw [List.take_append, List.take_of_length_le (by simp; omega), List.length_append, hlen,
      List.append_assoc]
  rw [Ptr.readable, place_octets, place_extent, overwrite_eq_append hfit, hcut,
    List.drop_left' hlen]

/-- Writing what is already there changes nothing. -/
theorem Object.place_of_holds (h : (Ptr.mk m i).Holds xs) : m.place i xs = m := by
  refine Object.ext' (List.ext_getElem? fun j => ?_) rfl
  rw [place_octets, getElem?_overwrite]
  -- inside, the octets are there already; outside, nothing is written
  by_cases hin : i ≤ j ∧ j - i < xs.length
  · obtain ⟨hij, hj⟩ := hin
    have hthere : m.octets[i + (j - i)]? = some xs[j - i] :=
      h.octets (List.getElem?_eq_getElem hj)
    rw [Nat.add_sub_cancel' hij] at hthere
    rw [hthere]
    simp [hij, List.getD_eq_getElem?_getD, hj]
  · have hsame : ∀ b, (if i ≤ j then xs.getD (j - i) b else b) = b := by
      intro b
      by_cases hij : i ≤ j
      · have hj : xs.length ≤ j - i := Nat.le_of_not_lt fun hj => hin ⟨hij, hj⟩
        simp [hij, List.getD_eq_getElem?_getD, hj]
      · rw [if_neg hij]
    cases m.octets[j]? with
    | none => rfl
    | some b => rw [Option.map_some, hsame]

/-- Octets written right behind others continue them. -/
theorem Object.place_holds_right (h : (Ptr.mk m i).Holds xs)
    (hfit : i + xs.length + ys.length ≤ m.extent) :
    (Ptr.mk (m.place (i + xs.length) ys) i).Holds (xs ++ ys) := by
  have hboth : m.place (i + xs.length) ys = m.place i (xs ++ ys) := by
    rw [← Object.place_place_right rfl, Object.place_of_holds h]
  rw [hboth]
  refine Object.place_holds ?_
  rw [List.length_append]
  omega

/-- `m'` differs from `m` at most in the `n` octets from offset `i` on. -/
structure Object.SameOutside (m m' : Object) (i n : Nat) : Prop where
  extent : m'.extent = m.extent
  length : m'.octets.length = m.octets.length
  octets : ∀ j, j < i ∨ i + n ≤ j → m'.octets[j]? = m.octets[j]?

theorem Object.SameOutside.refl (m : Object) (i n : Nat) : m.SameOutside m i n :=
  ⟨rfl, rfl, fun _ _ => rfl⟩

theorem Object.SameOutside.trans {m'' : Object} (h : m.SameOutside m' i n)
    (h' : m'.SameOutside m'' i n) : m.SameOutside m'' i n :=
  ⟨h'.extent.trans h.extent, h'.length.trans h.length,
    fun j hj => (h'.octets j hj).trans (h.octets j hj)⟩

/-- A change inside a part of the window is a change inside the window. -/
theorem Object.SameOutside.widen {i' n' : Nat} (h : m.SameOutside m' i' n') (hi : i ≤ i')
    (hn : i' + n' ≤ i + n) : m.SameOutside m' i n :=
  ⟨h.extent, h.length, fun j hj => h.octets j (by omega)⟩

/-- What lies before the window is still there. -/
theorem Object.SameOutside.holds {j : Nat} (h : m.SameOutside m' i n)
    (hp : (Ptr.mk m j).Holds xs) (hj : j + xs.length ≤ i) : (Ptr.mk m' j).Holds xs := by
  rw [Ptr.Holds, List.prefix_iff_getElem?] at hp ⊢
  intro k hk
  have hthere := hp k hk
  rw [Ptr.readable, List.getElem?_drop, List.getElem?_take] at hthere ⊢
  rw [h.extent, h.octets (j + k) (Or.inl (by omega))]
  exact hthere

theorem Object.sameOutside_place (hn : xs.length ≤ n) : m.SameOutside (m.place i xs) i n := by
  refine ⟨rfl, by simp, fun j hj => ?_⟩
  rw [place_octets, getElem?_overwrite]
  rcases hj with hj | hj
  · have hi : ¬ i ≤ j := by omega
    cases m.octets[j]? <;> simp [hi]
  · have hx : xs.length ≤ j - i := by omega
    cases m.octets[j]? <;> simp [hx]

end Writing

/-! ### Runs that return -/

section Returning

variable {α β : Type} {m m' : Object} {i n : Nat} {P : α → Prop} {Q : β → Prop}

theorem Writer.bind_eq_ok {x : Writer α} {f : α → Writer β} {b : β} :
    (x >>= f) m = .ok (b, m') ↔ ∃ a m₁, x m = .ok (a, m₁) ∧ f a m₁ = .ok (b, m') := by
  change (x m >>= fun r => f r.1 r.2) = .ok (b, m') ↔ _
  cases x m with
  | error fault => simp [bind, Except.bind]
  | ok r =>
    obtain ⟨a, m₁⟩ := r
    constructor
    · intro h
      exact ⟨a, m₁, rfl, h⟩
    · rintro ⟨a', m₁', hrun, h⟩
      rw [Except.ok.injEq, Prod.mk.injEq] at hrun
      obtain ⟨rfl, rfl⟩ := hrun
      exact h

/-- A computation that only reads leaves the object as it was. -/
theorem Writer.lift_eq_ok {x : Except Fault α} {a : α}
    (h : (liftM x : Writer α) m = .ok (a, m')) : m' = m := by
  cases x with
  | error fault => cases h
  | ok a' =>
    cases h
    rfl

/-- A run that returns something else than `b` has passed a check that returns `b`. -/
theorem Writer.guard_eq_ok {c : Prop} [Decidable c] {b b' : β} {x : Writer β}
    (h : (if c then pure b else x : Writer β) m = .ok (b', m')) (hb : b' ≠ b) :
    ¬ c ∧ x m = .ok (b', m') := by
  by_cases hc : c
  · rw [if_pos hc, Writer.pure_apply, Except.ok.injEq, Prod.mk.injEq] at h
    exact (hb h.1.symm).elim
  · rw [if_neg hc] at h
    exact ⟨hc, h⟩

/-- Where `x` returns at all, the value satisfies `P`, and the object has kept its extent. -/
def Returns (x : Writer α) (P : α → Prop) : Prop :=
  ∀ m a m', x m = .ok (a, m') → P a ∧ m'.extent = m.extent

theorem Returns.pure {a : α} (h : P a) : Returns (pure a) P := by
  intro m a' m' hrun
  rw [Writer.pure_apply, Except.ok.injEq, Prod.mk.injEq] at hrun
  obtain ⟨rfl, rfl⟩ := hrun
  exact ⟨h, rfl⟩

theorem Returns.bind {x : Writer α} {f : α → Writer β} (hx : Returns x P)
    (hf : ∀ a, P a → Returns (f a) Q) : Returns (x >>= f) Q := by
  intro m b m' hrun
  obtain ⟨a, m₁, hfirst, hsecond⟩ := Writer.bind_eq_ok.mp hrun
  obtain ⟨ha, hextent⟩ := hx m a m₁ hfirst
  obtain ⟨hb, hextent'⟩ := hf a ha m₁ b m' hsecond
  exact ⟨hb, hextent'.trans hextent⟩

theorem Returns.ite {c : Prop} [Decidable c] {x y : Writer α} (hx : c → Returns x P)
    (hy : ¬ c → Returns y P) : Returns (if c then x else y) P := by
  by_cases hc : c
  · rw [if_pos hc]
    exact hx hc
  · rw [if_neg hc]
    exact hy hc

theorem Returns.store (i : Nat) (b : UInt8) : Returns (store i b) fun _ => True := by
  intro m a m' hrun
  unfold CMemory.store at hrun
  by_cases hi : i < m.extent
  · rw [if_pos hi, Except.ok.injEq, Prod.mk.injEq] at hrun
    rw [← hrun.2]
    exact ⟨trivial, rfl⟩
  · rw [if_neg hi] at hrun
    cases hrun

/-- A copy that returns has stayed inside the object. -/
theorem memcpy_eq_ok {src : Option Ptr} {a : Unit} (h : memcpy i src n m = .ok (a, m')) :
    i + n ≤ m.extent ∧ m'.extent = m.extent := by
  unfold memcpy at h
  cases src with
  | none => cases h
  | some p =>
    dsimp only at h
    by_cases hfits : n ≤ p.readable.length ∧ i + n ≤ m.extent
    · rw [if_pos hfits, Except.ok.injEq, Prod.mk.injEq] at h
      rw [← h.2]
      exact ⟨hfits.2, rfl⟩
    · rw [if_neg hfits] at h
      cases h

theorem Returns.memcpy (i : Nat) (src : Option Ptr) (n : Nat) :
    Returns (memcpy i src n) fun _ => True :=
  fun _ _ _ h => ⟨trivial, (memcpy_eq_ok h).2⟩

theorem Returns.subW (a b : Size T) : Returns (Size.subW a b) fun _ => True := by
  intro m c m' hrun
  unfold Size.subW at hrun
  cases hsub : Size.sub a b with
  | error fault =>
    rw [hsub] at hrun
    cases hrun
  | ok d =>
    rw [hsub] at hrun
    cases hrun
    exact ⟨trivial, rfl⟩

end Returning

end CMemory
