/-
Block by block transformation of byte strings. The programs write the blocks in
place, one after another (`foldl_put_blocks`); what they compute is the map over
the first blocks with the rest kept (`mapBlocks`), and that is undone block by
block (`mapBlocks_undo`).
-/
import CamGuard.Lib.Bytes

namespace CamGuard.Bytes

/-- The first `k` blocks of `m` bytes transformed, the rest kept. -/
def mapBlocks (m : Nat) (f : Bytes → Bytes) : Nat → Bytes → Bytes
  | 0, b => b
  | k + 1, b => f (b.take m) ++ mapBlocks m f k (b.drop m)

/-- What is gathered from the first `k` blocks. -/
def foldBlocks {α : Type} (m : Nat) (g : α → Bytes → α) : Nat → α → Bytes → α
  | 0, a, _ => a
  | k + 1, a, b => foldBlocks m g k (g a (b.take m)) (b.drop m)

section

variable {m : Nat} {f g : Bytes → Bytes}

theorem length_mapBlocks (hf : ∀ b, (f b).length = m) {k : Nat} {b : Bytes} (h : m * k ≤ b.length) :
    (mapBlocks m f k b).length = b.length := by
  induction k generalizing b with
  | zero => rfl
  | succ k ih =>
    rw [Nat.mul_succ] at h
    rw [mapBlocks, List.length_append, hf, ih (by rw [List.length_drop]; omega), List.length_drop]
    omega

/-- What undoes each block undoes the whole. -/
theorem mapBlocks_undo (hf : ∀ b, (f b).length = m) (hgf : ∀ b : Bytes, b.length = m → g (f b) = b) {k : Nat}
    {b : Bytes} (h : m * k ≤ b.length) : mapBlocks m g k (mapBlocks m f k b) = b := by
  induction k generalizing b with
  | zero => rfl
  | succ k ih =>
    rw [Nat.mul_succ] at h
    have hblock : (b.take m).length = m := by rw [List.length_take]; omega
    rw [mapBlocks, mapBlocks, List.take_left' (hf _), List.drop_left' (hf _), hgf _ hblock,
      ih (by rw [List.length_drop]; omega), List.take_append_drop]

/-- What comes after the blocks is kept. -/
theorem mapBlocks_append {k : Nat} {b : Bytes} (h : b.length = m * k) (c : Bytes) :
    mapBlocks m f k (b ++ c) = mapBlocks m f k b ++ c := by
  induction k generalizing b with
  | zero =>
    rw [List.length_eq_zero_iff.mp h]
    rfl
  | succ k ih =>
    rw [Nat.mul_succ] at h
    rw [mapBlocks, mapBlocks, List.take_append_of_le_length (by omega), List.drop_append_of_le_length (by omega),
      ih (by rw [List.length_drop]; omega), List.append_assoc]

theorem foldBlocks_append {α : Type} (gather : α → Bytes → α) {k : Nat} {b : Bytes} (h : b.length = m * k) (c : Bytes)
    (a : α) : foldBlocks m gather k a (b ++ c) = foldBlocks m gather k a b := by
  induction k generalizing b a with
  | zero => rfl
  | succ k ih =>
    rw [Nat.mul_succ] at h
    rw [foldBlocks, foldBlocks, List.take_append_of_le_length (by omega), List.drop_append_of_le_length (by omega),
      ih (by rw [List.length_drop]; omega)]

/-- What gathering from a block keeps, gathering from all keeps. -/
theorem foldBlocks_inv {α : Type} {gather : α → Bytes → α} {P : α → Prop}
    (hgather : ∀ (a : α) (b : Bytes), b.length ≤ m → P a → P (gather a b)) (k : Nat) {a : α} (h : P a) (b : Bytes) :
    P (foldBlocks m gather k a b) := by
  induction k generalizing a b with
  | zero => exact h
  | succ k ih => exact ih (hgather a _ (List.length_take_le m b) h) _

/-- The bytes past the blocks are kept. -/
theorem drop_mapBlocks (hf : ∀ b, (f b).length = m) (k : Nat) (b : Bytes) :
    (mapBlocks m f k b).drop (m * k) = b.drop (m * k) := by
  induction k generalizing b with
  | zero => rfl
  | succ k ih =>
    have hsplit : m * (k + 1) = (f (b.take m)).length + m * k := by rw [hf, Nat.mul_succ]; omega
    rw [mapBlocks, hsplit, List.drop_length_add_append, ih, List.drop_drop, hf]

/-- **Writing the blocks in place**, behind a part that stays. -/
theorem foldl_put_blocks (hf : ∀ b, (f b).length = m) {off k : Nat} {pre pre' b : Bytes} (hpre : pre.length = off)
    (hpre' : pre'.length = off) (h : m * k ≤ b.length) :
    (List.range k).foldl (fun out i => out.put (off + i * m) (f (slice (pre' ++ b) (off + i * m) m))) (pre ++ b) =
      pre ++ mapBlocks m f k b := by
  induction k generalizing off pre pre' b with
  | zero => rfl
  | succ k ih =>
    rw [Nat.mul_succ] at h
    have hblock : (b.take m).length = m := by rw [List.length_take]; omega
    have hsource : pre' ++ b = pre' ++ b.take m ++ b.drop m := by rw [List.append_assoc, List.take_append_drop]
    have hfirst : (pre ++ b).put (off + 0 * m) (f (slice (pre' ++ b) (off + 0 * m) m)) =
        (pre ++ f (b.take m)) ++ b.drop m := by
      have hput := put_middle (x := b.take m) (c := b.drop m) hpre ((hf (b.take m)).trans hblock.symm)
      have hslice := slice_middle (x := b.take m) (c := b.drop m) hpre' hblock
      rw [List.take_append_drop] at hput hslice
      rw [Nat.zero_mul, Nat.add_zero, hslice, hput, List.append_assoc]
    have hstep : (fun (out : Bytes) i => out.put (off + (i + 1) * m) (f (slice (pre' ++ b) (off + (i + 1) * m) m))) =
        fun out i => out.put (off + m + i * m) (f (slice (pre' ++ b.take m ++ b.drop m) (off + m + i * m) m)) := by
      funext out i
      rw [← hsource, show off + (i + 1) * m = off + m + i * m by ring]
    rw [List.range_succ_eq_map, List.foldl_cons, List.foldl_map, hfirst, hstep,
      ih (by rw [List.length_append, hpre, hf]) (by rw [List.length_append, hpre', hblock])
        (by rw [List.length_drop]; omega), mapBlocks, List.append_assoc]

/-- The same, with each block read from what has been written so far, and something
gathered from it. -/
theorem foldl_scan_blocks {α : Type} (hf : ∀ b, (f b).length = m) (gather : α → Bytes → α) {off k : Nat} {pre b : Bytes}
    (hpre : pre.length = off) (h : m * k ≤ b.length) (a : α) :
    (List.range k).foldl (fun (s : Bytes × α) i =>
        (s.1.put (off + i * m) (f (slice s.1 (off + i * m) m)), gather s.2 (slice s.1 (off + i * m) m))) (pre ++ b, a) =
      (pre ++ mapBlocks m f k b, foldBlocks m gather k a b) := by
  induction k generalizing off pre b a with
  | zero => rfl
  | succ k ih =>
    rw [Nat.mul_succ] at h
    have hblock : (b.take m).length = m := by rw [List.length_take]; omega
    have hslice := slice_middle (x := b.take m) (c := b.drop m) hpre hblock
    have hput := put_middle (x := b.take m) (c := b.drop m) hpre ((hf (b.take m)).trans hblock.symm)
    rw [List.take_append_drop] at hput hslice
    have hstep : (fun (s : Bytes × α) i => (s.1.put (off + (i + 1) * m) (f (slice s.1 (off + (i + 1) * m) m)),
        gather s.2 (slice s.1 (off + (i + 1) * m) m))) = fun (s : Bytes × α) i =>
          (s.1.put (off + m + i * m) (f (slice s.1 (off + m + i * m) m)), gather s.2 (slice s.1 (off + m + i * m) m)) := by
      funext s i
      rw [show off + (i + 1) * m = off + m + i * m by ring]
    rw [List.range_succ_eq_map, List.foldl_cons, List.foldl_map]
    dsimp only
    rw [Nat.zero_mul, Nat.add_zero, hslice, hput, hstep, ← List.append_assoc,
      ih (by rw [List.length_append, hpre, hf]) (by rw [List.length_drop]; omega), mapBlocks, foldBlocks, List.append_assoc]

theorem foldl_inplace_blocks (hf : ∀ b, (f b).length = m) {off k : Nat} {pre b : Bytes} (hpre : pre.length = off)
    (h : m * k ≤ b.length) :
    (List.range k).foldl (fun out i => out.put (off + i * m) (f (slice out (off + i * m) m))) (pre ++ b) =
      pre ++ mapBlocks m f k b := by
  have hscan := congrArg Prod.fst (foldl_scan_blocks hf (fun (_ : Unit) _ => ()) hpre h ())
  have hfst : (List.range k).foldl (fun out i => out.put (off + i * m) (f (slice out (off + i * m) m))) (pre ++ b) =
      ((List.range k).foldl (fun (s : Bytes × Unit) i =>
        (s.1.put (off + i * m) (f (slice s.1 (off + i * m) m)), ())) (pre ++ b, ())).1 :=
    @List.foldl_hom (Bytes × Unit) Bytes Nat Prod.fst _ _ (List.range k) (pre ++ b, ()) fun _ _ => rfl
  exact hfst.trans hscan

/-- What is gathered from transformed blocks. -/
theorem foldBlocks_mapBlocks {α : Type} (hf : ∀ b, (f b).length = m) {gather gather' : α → Bytes → α}
    (hgather : ∀ (a : α) (b : Bytes), b.length = m → gather' a (f b) = gather a b) {k : Nat} {b : Bytes}
    (h : m * k ≤ b.length) (a : α) : foldBlocks m gather' k a (mapBlocks m f k b) = foldBlocks m gather k a b := by
  induction k generalizing b a with
  | zero => rfl
  | succ k ih =>
    rw [Nat.mul_succ] at h
    have hblock : (b.take m).length = m := by rw [List.length_take]; omega
    rw [mapBlocks, foldBlocks, foldBlocks, List.take_left' (hf _), List.drop_left' (hf _), hgather a _ hblock,
      ih (by rw [List.length_drop]; omega)]

end

end CamGuard.Bytes
