/-
Byte strings and the little-endian fixed-width fields of wire formats: how
`struct.pack` writes them, how `struct.unpack_from` reads them, and that the
two agree. Nothing here is about one format.

Reads are total: an offset past the end reads zero bytes. The codecs that use
them check lengths first, as the programs they model do.
-/
import Mathlib.Data.List.Basic
import Mathlib.Tactic.Ring

namespace CamGuard

/-- A Python `bytes` value. -/
abbrev Bytes := List UInt8

namespace Bytes

/-- The number whose little-endian digits are `b`. -/
def toNat : Bytes → Nat
  | [] => 0
  | b :: bs => b.toNat + 256 * toNat bs

/-- `v` as `n` little-endian bytes, reduced modulo `256 ^ n`. -/
def ofNat : Nat → Nat → Bytes
  | 0, _ => []
  | n + 1, v => UInt8.ofNat v :: ofNat n (v / 256)

/-- `b[i]`, as an integer. -/
def at_ (b : Bytes) (i : Nat) : Nat := (b.getD i 0).toNat

/-- `b[off : off + n]`. -/
def slice (b : Bytes) (off n : Nat) : Bytes := (b.drop off).take n

/-- `struct.unpack_from` of one `n`-byte little-endian field at `off`. -/
def field (n off : Nat) (b : Bytes) : Nat := toNat (b.slice off n)

/-- `b[off : off + len(v)] = v` on a `bytearray`. -/
def put (b : Bytes) (off : Nat) (v : Bytes) : Bytes := b.take off ++ v ++ b.drop (off + v.length)

/-- `bytes(n)`. -/
def zeros (n : Nat) : Bytes := List.replicate n 0

@[simp] theorem length_ofNat (n v : Nat) : (ofNat n v).length = n := by
  induction n generalizing v with
  | zero => rfl
  | succ n ih => simp [ofNat, ih]

theorem toNat_ofNat (n v : Nat) : toNat (ofNat n v) = v % 256 ^ n := by
  induction n generalizing v with
  | zero => simp [ofNat, toNat, Nat.mod_one]
  | succ n ih =>
    have hsplit : v % 256 ^ (n + 1) = v % 256 + 256 * (v / 256 % 256 ^ n) := by
      rw [Nat.pow_succ', Nat.mod_mul]
    simp only [ofNat, toNat, ih, UInt8.toNat_ofNat', hsplit]

theorem toNat_lt (b : Bytes) : toNat b < 256 ^ b.length := by
  induction b with
  | nil => simp [toNat]
  | cons x b ih =>
    have hx : x.toNat < 256 := x.toNat_lt
    simp only [toNat, List.length_cons, Nat.pow_succ']
    omega

theorem ofNat_toNat (b : Bytes) : ofNat b.length (toNat b) = b := by
  induction b with
  | nil => rfl
  | cons x b ih =>
    have hx : x.toNat < 256 := x.toNat_lt
    have hhead : UInt8.ofNat (x.toNat + 256 * toNat b) = x := by
      apply UInt8.toNat_inj.mp
      rw [UInt8.toNat_ofNat']
      omega
    have htail : (x.toNat + 256 * toNat b) / 256 = toNat b := by omega
    simp only [toNat, List.length_cons, ofNat, hhead, htail, ih]

/-! ## Slices and fields -/

theorem slice_length {b : Bytes} {off n : Nat} (h : off + n ≤ b.length) : (b.slice off n).length = n := by
  simp only [slice, List.length_take, List.length_drop]
  omega

theorem slice_append_left {b c : Bytes} {off n : Nat} (h : off + n ≤ b.length) :
    slice (b ++ c) off n = b.slice off n := by
  simp only [slice]
  rw [List.drop_append_of_le_length (by omega), List.take_append_of_le_length (by simp; omega)]

theorem slice_append_right {b c : Bytes} {off n : Nat} (h : b.length ≤ off) :
    slice (b ++ c) off n = c.slice (off - b.length) n := by
  simp only [slice, List.drop_append, List.drop_eq_nil_of_le h, List.nil_append]

theorem slice_take {b : Bytes} {off n m : Nat} (h : off + n ≤ m) : slice (b.take m) off n = b.slice off n := by
  simp only [slice, List.drop_take, List.take_take]
  congr 1
  omega

theorem slice_slice {b : Bytes} {off m o n : Nat} (h : o + n ≤ m) :
    slice (b.slice off m) o n = b.slice (off + o) n := by
  rw [slice, slice, slice, List.drop_take, List.drop_drop, List.take_take, Nat.min_eq_left (by omega)]

theorem field_slice {b : Bytes} {off m o n : Nat} (h : o + n ≤ m) :
    field n o (b.slice off m) = b.field n (off + o) := by
  rw [field, field, slice_slice h]

/-- A field written back is the bytes it was read from. -/
theorem ofNat_field {b : Bytes} {n off : Nat} (h : off + n ≤ b.length) : ofNat n (b.field n off) = b.slice off n := by
  have hslice := ofNat_toNat (b.slice off n)
  rwa [slice_length h] at hslice

/-- Two slices side by side. -/
theorem slice_append_slice {b : Bytes} {off m n p : Nat} (hp : off + m = p) :
    b.slice off m ++ b.slice p n = b.slice off (m + n) := by
  rw [slice, slice, slice, ← hp, ← List.drop_drop, List.take_add]

theorem slice_zero_length (b : Bytes) : b.slice 0 b.length = b := by simp [slice]

theorem field_append_left {b c : Bytes} {n off : Nat} (h : off + n ≤ b.length) :
    field n off (b ++ c) = b.field n off := by
  simp only [field, slice_append_left h]

theorem field_append_right {b c : Bytes} {n off : Nat} (h : b.length ≤ off) :
    field n off (b ++ c) = c.field n (off - b.length) := by
  simp only [field, slice_append_right h]

theorem field_take {b : Bytes} {n off m : Nat} (h : off + n ≤ m) :
    field n off (b.take m) = b.field n off := by
  simp only [field, slice_take h]

theorem field_lt {b : Bytes} {n off : Nat} : b.field n off < 256 ^ n := by
  have h := toNat_lt (b.slice off n)
  have hle : (b.slice off n).length ≤ n := by simp only [slice, List.length_take]; omega
  exact lt_of_lt_of_le h (Nat.pow_le_pow_right (by decide) hle)

@[simp] theorem field_ofNat (n v : Nat) (c : Bytes) : field n 0 (ofNat n v ++ c) = v % 256 ^ n := by
  have h : slice (ofNat n v ++ c) 0 n = ofNat n v := by
    rw [slice_append_left (by simp)]
    simpa using slice_zero_length (ofNat n v)
  simp only [field, h, toNat_ofNat]

@[simp] theorem field_ofNat_self (n v : Nat) : field n 0 (ofNat n v) = v % 256 ^ n := by
  simpa using field_ofNat n v []

theorem at_eq_field (b : Bytes) (i : Nat) : b.at_ i = b.field 1 i := by
  simp only [at_, field, slice, List.getD_eq_getElem?_getD]
  by_cases h : i < b.length
  · rw [List.drop_eq_getElem_cons h, List.getElem?_eq_getElem h]
    simp only [Option.getD_some, List.take_succ_cons, List.take_zero, toNat, Nat.mul_zero, Nat.add_zero]
  · rw [List.drop_eq_nil_of_le (by omega), List.getElem?_eq_none (by omega)]
    simp [toNat]

theorem at_append_left {b c : Bytes} {i : Nat} (h : i < b.length) : at_ (b ++ c) i = b.at_ i := by
  simp [at_, List.getElem?_append_left h]

theorem at_append_right {b c : Bytes} {i : Nat} (h : b.length ≤ i) : at_ (b ++ c) i = c.at_ (i - b.length) := by
  simp [at_, List.getElem?_append_right h]

theorem at_take {b : Bytes} {i m : Nat} (h : i < m) : at_ (b.take m) i = b.at_ i := by
  simp [at_, h]

theorem at_lt (b : Bytes) (i : Nat) : b.at_ i < 256 := (b.getD i 0).toNat_lt

/-! ## Writing in place -/

theorem length_put {b v : Bytes} {off : Nat} (h : off + v.length ≤ b.length) :
    (b.put off v).length = b.length := by
  simp only [put, List.length_append, List.length_take, List.length_drop]
  omega

theorem slice_put_before {b v : Bytes} {off n p : Nat} (h : off + n ≤ p) (hp : p ≤ b.length) :
    slice (b.put p v) off n = b.slice off n := by
  rw [put, List.append_assoc, slice_append_left (by simp; omega), slice_take h]

theorem slice_put_after {b v : Bytes} {off n p : Nat} (h : p + v.length ≤ off) (hp : p + v.length ≤ b.length) :
    slice (b.put p v) off n = b.slice off n := by
  have hlen : (b.take p ++ v).length = p + v.length := by simp; omega
  rw [put, slice_append_right (by omega), hlen, slice, slice, List.drop_drop]
  congr 2
  omega

theorem slice_put_self {b v : Bytes} {p : Nat} (hp : p ≤ b.length) : slice (b.put p v) p v.length = v := by
  have hlen : (b.take p).length = p := by simp; omega
  rw [put, List.append_assoc, slice_append_right (by omega), hlen, Nat.sub_self, slice_append_left (by omega)]
  exact slice_zero_length v

theorem field_put_before {b v : Bytes} {off n p : Nat} (h : off + n ≤ p) (hp : p ≤ b.length) :
    field n off (b.put p v) = b.field n off := by
  rw [field, field, slice_put_before h hp]

theorem field_put_after {b v : Bytes} {off n p : Nat} (h : p + v.length ≤ off) (hp : p + v.length ≤ b.length) :
    field n off (b.put p v) = b.field n off := by
  rw [field, field, slice_put_after h hp]

theorem field_put_self {b : Bytes} {n p v : Nat} (hp : p ≤ b.length) :
    field n p (b.put p (ofNat n v)) = v % 256 ^ n := by
  have h := slice_put_self (v := ofNat n v) hp
  rw [length_ofNat] at h
  rw [field, h, toNat_ofNat]

/-- Two writes side by side are one. -/
theorem put_put {b u v : Bytes} {off p : Nat} (hp : off + u.length = p) (h : p ≤ b.length) :
    (b.put off u).put p v = b.put off (u ++ v) := by
  have hlen : (b.take off ++ u).length = p := by
    rw [List.length_append, List.length_take]
    omega
  have hdrop : (b.take off ++ u ++ b.drop (off + u.length)).drop (p + v.length) = b.drop (off + (u ++ v).length) := by
    rw [List.drop_append, hlen, List.drop_eq_nil_of_le (by omega), List.nil_append, List.drop_drop]
    congr 1
    rw [List.length_append]
    omega
  rw [put, put, put, hdrop, List.take_left' hlen, List.append_assoc (b.take off)]

/-- The bytes between two parts replaced. -/
theorem put_middle {a x c v : Bytes} {off : Nat} (hoff : a.length = off) (hv : v.length = x.length) :
    (a ++ (x ++ c)).put off v = a ++ (v ++ c) := by
  have hdrop : (a ++ (x ++ c)).drop (off + v.length) = c := by
    rw [← List.append_assoc, List.drop_left' (by rw [List.length_append, hoff, hv])]
  rw [put, List.take_left' hoff, hdrop, List.append_assoc]

theorem slice_middle {a x c : Bytes} {off n : Nat} (hoff : a.length = off) (hn : x.length = n) :
    slice (a ++ (x ++ c)) off n = x := by
  rw [slice, List.drop_left' hoff, List.take_left' hn]

/-- A field written there is read there. -/
theorem field_middle {a c : Bytes} {off n v : Nat} (hoff : a.length = off) (hv : v < 256 ^ n) :
    field n off (a ++ (ofNat n v ++ c)) = v := by
  rw [field, slice_middle hoff (length_ofNat n v), toNat_ofNat, Nat.mod_eq_of_lt hv]

@[simp] theorem length_zeros (n : Nat) : (zeros n).length = n := by simp [zeros]

/-! ## Big-endian -/

/-- `int.from_bytes(b, "big")`. -/
def toNatBE (b : Bytes) : Nat := toNat b.reverse

/-- `v.to_bytes(n, "big")`, reduced modulo `256 ^ n`. -/
def ofNatBE (n v : Nat) : Bytes := (ofNat n v).reverse

@[simp] theorem length_ofNatBE (n v : Nat) : (ofNatBE n v).length = n := by simp [ofNatBE]

theorem toNatBE_ofNatBE (n v : Nat) : toNatBE (ofNatBE n v) = v % 256 ^ n := by
  rw [toNatBE, ofNatBE, List.reverse_reverse, toNat_ofNat]

end Bytes

end CamGuard
