import EmbeddedCfdp.CMemory
import Mathlib.Data.Set.Lattice

/-!
# Putting a string together from pieces

Pieces of one string are written into a buffer, each at its own offset.  What the buffer
holds in the end depends on the positions that some piece covers and on nothing else: not on
the order of the pieces, on their number, or on how they overlap.
-/

namespace Reassembly

open CMemory

variable {α : Type}

/-- A stretch of a string and where it starts. -/
structure Piece (α : Type) where
  offset : Nat
  items : List α

namespace Piece

/-- The positions of the piece. -/
def span (s : Piece α) : Set Nat := Set.Ico s.offset (s.offset + s.items.length)

/-- The piece was cut out of `file`. -/
def CutFrom (s : Piece α) (file : List α) : Prop := s.items <+: file.drop s.offset

end Piece

/-- The positions that some piece covers. -/
def covered (pieces : List (Piece α)) : Set Nat := ⋃ s ∈ pieces, s.span

/-- The pieces are written one after another. -/
def assemble (buf : List α) (pieces : List (Piece α)) : List α :=
  pieces.foldl (fun buf s => overwrite buf s.offset s.items) buf

section Covered

variable {pieces : List (Piece α)} {s : Piece α} {j : Nat}

theorem mem_covered : j ∈ covered pieces ↔ ∃ s ∈ pieces, j ∈ s.span := by
  simp only [covered, Set.mem_iUnion, exists_prop]

@[simp] theorem covered_nil : covered ([] : List (Piece α)) = ∅ := by
  simp [covered]

@[simp] theorem covered_cons : covered (s :: pieces) = s.span ∪ covered pieces := by
  simp [covered]

end Covered

section Assemble

variable {file buf buf' : List α} {pieces pieces' : List (Piece α)} {s : Piece α} {j : Nat}

@[simp] theorem assemble_nil : assemble buf [] = buf := rfl

theorem assemble_cons :
    assemble buf (s :: pieces) = assemble (overwrite buf s.offset s.items) pieces := rfl

theorem assemble_append :
    assemble buf (pieces ++ pieces') = assemble (assemble buf pieces) pieces' :=
  List.foldl_append

@[simp] theorem length_assemble : (assemble buf pieces).length = buf.length := by
  induction pieces generalizing buf with
  | nil => rfl
  | cons s pieces ih => rw [assemble_cons, ih, length_overwrite]

theorem Piece.CutFrom.getElem? (h : s.CutFrom file) (hj : j ∈ s.span) :
    s.items[j - s.offset]? = file[j]? := by
  obtain ⟨rest, hrest⟩ := h
  obtain ⟨hle, hlt⟩ := hj
  have hin : j - s.offset < s.items.length := by omega
  have hleft : (s.items ++ rest)[j - s.offset]? = s.items[j - s.offset]? :=
    List.getElem?_append_left hin
  rw [← hleft, hrest, List.getElem?_drop, Nat.add_sub_cancel' hle]

theorem Piece.CutFrom.lt_length (h : s.CutFrom file) (hj : j ∈ s.span) : j < file.length := by
  have hlength := h.length_le
  obtain ⟨hle, hlt⟩ := hj
  rw [List.length_drop] at hlength
  omega

/-- Inside the piece there is the file. -/
theorem getElem?_overwrite_span (h : s.CutFrom file) (hj : j ∈ s.span) (hin : j < buf.length) :
    (overwrite buf s.offset s.items)[j]? = file[j]? := by
  obtain ⟨hle, hlt⟩ := hj
  have hget : j - s.offset < s.items.length := by omega
  rw [getElem?_overwrite, List.getElem?_eq_getElem hin, Option.map_some, if_pos hle,
    ← h.getElem? ⟨hle, hlt⟩, List.getD_eq_getElem?_getD, List.getElem?_eq_getElem hget,
    Option.getD_some]

/-- Outside there is what was there before. -/
theorem getElem?_overwrite_outside (hj : j ∉ s.span) :
    (overwrite buf s.offset s.items)[j]? = buf[j]? := by
  rw [getElem?_overwrite]
  cases buf[j]? with
  | none => rfl
  | some b =>
    rw [Option.map_some, Option.some.injEq]
    by_cases hle : s.offset ≤ j
    · have hout : s.items.length ≤ j - s.offset := by
        by_contra hlt
        exact hj ⟨hle, by omega⟩
      rw [if_pos hle, List.getD_eq_getElem?_getD, List.getElem?_eq_none hout, Option.getD_none]
    · rw [if_neg hle]

/-- The invariant of the run: at each position either the file or the old contents, and the
    file wherever a piece has been. -/
theorem getElem?_assemble (h : ∀ s ∈ pieces, s.CutFrom file) (hlength : file.length ≤ buf.length)
    (j : Nat) :
    (j ∈ covered pieces → (assemble buf pieces)[j]? = file[j]?) ∧
      (j ∉ covered pieces → (assemble buf pieces)[j]? = buf[j]?) := by
  -- later pieces overwrite earlier ones, but all of them agree with the file
  induction pieces generalizing buf with
  | nil =>
    rw [covered_nil]
    exact ⟨fun hj => hj.elim, fun _ => rfl⟩
  | cons s pieces ih =>
    have hs := h s List.mem_cons_self
    obtain ⟨hin, hout⟩ := @ih (overwrite buf s.offset s.items)
      (fun s' hs' => h s' (List.mem_cons_of_mem s hs')) (by rwa [length_overwrite])
    rw [covered_cons, assemble_cons]
    constructor
    · intro hj
      by_cases hrest : j ∈ covered pieces
      · exact hin hrest
      · have hspan : j ∈ s.span := hj.resolve_right hrest
        have hlt := hs.lt_length hspan
        rw [hout hrest, getElem?_overwrite_span hs hspan (by omega)]
    · intro hj
      rw [Set.mem_union, not_or] at hj
      rw [hout hj.2, getElem?_overwrite_outside hj.1]

/-- A buffer depends on the pieces through the positions they cover. -/
theorem assemble_congr (h : ∀ s ∈ pieces, s.CutFrom file) (h' : ∀ s ∈ pieces', s.CutFrom file)
    (hlength : file.length ≤ buf.length) (hcovered : covered pieces = covered pieces') :
    assemble buf pieces = assemble buf pieces' := by
  apply List.ext_getElem?
  intro j
  obtain ⟨hin, hout⟩ := getElem?_assemble h hlength j
  obtain ⟨hin', hout'⟩ := getElem?_assemble h' hlength j
  by_cases hj : j ∈ covered pieces
  · rw [hin hj, hin' (hcovered ▸ hj)]
  · rw [hout hj, hout' (hcovered ▸ hj)]

/-- When every position is covered, the file is there. -/
theorem prefix_assemble (h : ∀ s ∈ pieces, s.CutFrom file) (hlength : file.length ≤ buf.length)
    (hall : ∀ j < file.length, j ∈ covered pieces) : file <+: assemble buf pieces := by
  rw [List.prefix_iff_eq_take]
  apply List.ext_getElem?
  intro j
  by_cases hj : j < file.length
  · rw [List.getElem?_take_of_lt hj, (getElem?_assemble h hlength j).1 (hall j hj)]
  · rw [List.getElem?_take_eq_none (by omega), List.getElem?_eq_none (by omega)]

end Assemble

end Reassembly
