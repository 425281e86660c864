import EmbeddedCfdp.Common

/-!
# File checksums (`cfdp_checksum.c`)

The running modular checksum adds each octet in the byte lane that its absolute
file offset selects, so its value is a sum over positions.
-/

namespace EmbeddedCfdp

open CMemory

/-- The loop of `cfdp_checksum_update` at index `i`, with `left = len - i`. -/
def checksumUpdateLoop (offset : UInt64) (data : Ptr) :
    (left i : Nat) → (checksum : UInt32) → Except Fault UInt32
  | 0, _, checksum => return checksum
  | left + 1, i, checksum => do
      let lane : UInt8 := ((offset + UInt64.ofNat i) &&& 0x3).toUInt8
      let shift : UInt8 := 8 * (3 - lane)
      let octet ← data.load i
      checksumUpdateLoop offset data left (i + 1)
        (checksum + (octet.toUInt32 <<< shift.toUInt32))

variable {T : Target}

def checksumUpdate (checksum : UInt32) (offset : UInt64) (data : Option Ptr) (len : Size T) :
    Except Fault UInt32 :=
  match data with
  | none => return checksum
  | some data =>
      if len = sz 0 then return checksum
      else checksumUpdateLoop offset data len.toNat 0 checksum

def checksumCompute (data : Option Ptr) (len : Size T) : Except Fault UInt32 :=
  checksumUpdate 0 0 data len

def checksumTypeSupported (type : ChecksumType) : Bool :=
  type = CFDP_CHECKSUM_MODULAR || type = CFDP_CHECKSUM_NULL

/-- `cfdp_checksum_update_by_type`; the running checksum is an in/out parameter. -/
def checksumUpdateByType (type : ChecksumType) (checksum : Option UInt32) (offset : UInt64)
    (data : Option Ptr) (len : Size T) : Except Fault (Bool × Option UInt32) :=
  match checksum with
  | none => return (false, none)
  | some checksum =>
      if ¬ checksumTypeSupported type then return (false, some checksum)
      else do
        let checksum ←
          if type = CFDP_CHECKSUM_NULL then pure 0
          else checksumUpdate checksum offset data len
        return (true, some checksum)

/-! ### The checksum is a sum over positions -/

/-- What an octet at absolute position `pos` adds to the checksum. -/
def checksumLane (pos : UInt64) (octet : UInt8) : UInt32 :=
  octet.toUInt32 <<< (8 * (3 - (pos &&& 0x3).toUInt8)).toUInt32

/-- The sum over an octet string that starts at absolute position `pos`. -/
def checksumSum : UInt64 → List UInt8 → UInt32
  | _, [] => 0
  | pos, octet :: xs => checksumLane pos octet + checksumSum (pos + 1) xs

theorem checksumUpdateLoop_eq {offset : UInt64} {data : Ptr} {pre xs : List UInt8}
    (h : data.Holds (pre ++ xs)) (checksum : UInt32) :
    checksumUpdateLoop offset data xs.length pre.length checksum =
      .ok (checksum + checksumSum (offset + UInt64.ofNat pre.length) xs) := by
  induction xs generalizing pre checksum with
  | nil => simp [checksumUpdateLoop, checksumSum, pure, Except.pure]
  | cons octet xs ih =>
    have hload : data.load pre.length = .ok octet := h.load (by simp)
    have hnext : offset + UInt64.ofNat (pre ++ [octet]).length =
        offset + UInt64.ofNat pre.length + 1 := by
      rw [List.length_append, List.length_singleton, UInt64.ofNat_add, UInt64.add_assoc]
      rfl
    -- the lane depends on the position in the file, so the offset moves along
    have hstep := @ih (pre ++ [octet]) (by simpa using h)
      (checksum + checksumLane (offset + UInt64.ofNat pre.length) octet)
    rw [hnext, List.length_append, List.length_singleton, UInt32.add_assoc] at hstep
    rw [List.length_cons, checksumUpdateLoop, hload, checksumSum]
    exact hstep

theorem checksumUpdate_eq {data : Ptr} {xs : List UInt8} {len : Size T} (h : data.Holds xs)
    (hlen : xs.length = len.toNat) (checksum : UInt32) (offset : UInt64) :
    checksumUpdate checksum offset (some data) len =
      .ok (checksum + checksumSum offset xs) := by
  by_cases hzero : len = sz 0
  · have hnil : xs = [] := by
      apply List.eq_nil_of_length_eq_zero
      rw [hlen, hzero, toNat_sz (by have := T.two_pow_ge; omega)]
    simp [checksumUpdate, hzero, hnil, checksumSum, pure, Except.pure]
  · simp only [checksumUpdate, if_neg hzero]
    have hloop := @checksumUpdateLoop_eq offset data [] xs h checksum
    rw [← hlen]
    simpa using hloop

/-- A null pointer contributes nothing. -/
theorem checksumUpdate_none (checksum : UInt32) (offset : UInt64) (len : Size T) :
    checksumUpdate checksum offset none len = .ok checksum := rfl

theorem checksumUpdate_octetsAt {data : Option Ptr} {len : Size T} (hr : Readable data len.toNat)
    (checksum : UInt32) (offset : UInt64) :
    checksumUpdate checksum offset data len =
      .ok (checksum + checksumSum offset (octetsAt data len.toNat)) := by
  cases data with
  | none =>
    rw [checksumUpdate_none, octetsAt_none, checksumSum, UInt32.add_zero]
  | some p => exact checksumUpdate_eq holds_octetsAt hr.length checksum offset

theorem checksumSum_append (pos : UInt64) (xs ys : List UInt8) :
    checksumSum pos (xs ++ ys) =
      checksumSum pos xs + checksumSum (pos + UInt64.ofNat xs.length) ys := by
  induction xs generalizing pos with
  | nil => simp [checksumSum]
  | cons octet xs ih =>
    have hpos : pos + 1 + UInt64.ofNat xs.length =
        pos + UInt64.ofNat (octet :: xs).length := by
      rw [List.length_cons, UInt64.ofNat_add, UInt64.add_assoc, UInt64.add_comm 1]
      rfl
    rw [List.cons_append, checksumSum, ih, hpos, checksumSum, UInt32.add_assoc]

theorem checksumUpdateByType_modular (checksum : UInt32) (offset : UInt64) (data : Option Ptr)
    (len : Size T) :
    checksumUpdateByType CFDP_CHECKSUM_MODULAR (some checksum) offset data len =
      (checksumUpdate checksum offset data len).map fun sum => (true, some sum) := by
  cases h : checksumUpdate checksum offset data len <;>
    simp [checksumUpdateByType, checksumTypeSupported, CFDP_CHECKSUM_MODULAR,
      CFDP_CHECKSUM_NULL, h, bind, Except.bind, Except.map, pure, Except.pure]

end EmbeddedCfdp
