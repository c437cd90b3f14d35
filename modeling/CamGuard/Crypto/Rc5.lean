/-
RC5-w/r/b, as the class `RC5` of `crypto.py` computes it: little-endian words,
the key mixed into the table `S`, and the two block transforms.
-/
import CamGuard.Lib.Bytes
import Mathlib.Data.List.Basic

namespace CamGuard.Crypto

/-- `_rotl`: the amount is reduced to the word size. -/
def rotl {w : Nat} (x y : BitVec w) : BitVec w := x.rotateLeft (y.toNat % w)

/-- `_rotr`. -/
def rotr {w : Nat} (x y : BitVec w) : BitVec w := x.rotateRight (y.toNat % w)

/-- The magic constants `P` and `Q` of a word size. -/
def magic : Nat → Nat × Nat
  | 16 => (0xB7E1, 0x9E37)
  | 32 => (0xB7E15163, 0x9E3779B9)
  | _ => (0xB7E151628AED2A6B, 0x9E3779B97F4A7C15)

/-- `RC5` with words of `w` bits, after its key schedule. -/
structure RC5 (w : Nat) where
  rounds : Nat
  S : List (BitVec w)

namespace RC5

/-- The key as words, filled from its last byte on. -/
def keyWords (w : Nat) (key : Bytes) : List (BitVec w) :=
  let u := w / 8
  let c := max 1 ((key.length + u - 1) / u)
  (List.range key.length).reverse.foldl
    (fun L i => L.modify (i / u) fun x => (x <<< 8) + BitVec.ofNat w (key.at_ i)) (List.replicate c 0)

/-- The state of the loop that mixes the key in. -/
structure Mixing (w : Nat) where
  S : List (BitVec w)
  L : List (BitVec w)
  i : Nat := 0
  j : Nat := 0
  A : BitVec w := 0
  B : BitVec w := 0

/-- One turn of the mixing loop. -/
def Mixing.turn {w : Nat} (t c : Nat) (m : Mixing w) : Mixing w :=
  let A := rotl (m.S.getD m.i 0 + m.A + m.B) 3
  let B := rotl (m.L.getD m.j 0 + A + m.B) (A + m.B)
  { S := m.S.set m.i A
    L := m.L.set m.j B
    i := (m.i + 1) % t
    j := (m.j + 1) % c
    A := A
    B := B }

/-- `_expand`. -/
def expand (w rounds : Nat) (key : Bytes) : List (BitVec w) :=
  let L := keyWords w key
  let t := 2 * (rounds + 1)
  let S := (List.range t).map fun i => BitVec.ofNat w ((magic w).1 + i * (magic w).2)
  ((List.range (3 * max t L.length)).foldl (fun m _ => m.turn t L.length) { S := S, L := L : Mixing w }).S

/-- `RC5(key, rounds, w)`. -/
def new (w : Nat) (key : Bytes) (rounds : Nat := 6) : RC5 w := ⟨rounds, expand w rounds key⟩

variable {w : Nat}

/-- `struct.unpack` of the two words of a block. -/
def unpackBlock (w : Nat) (block : Bytes) : BitVec w × BitVec w :=
  (BitVec.ofNat w (block.field (w / 8) 0), BitVec.ofNat w (block.field (w / 8) (w / 8)))

/-- Two words as a block. -/
def packBlock (A B : BitVec w) : Bytes := Bytes.ofNat (w / 8) A.toNat ++ Bytes.ofNat (w / 8) B.toNat

/-- One round of `encrypt_block`. -/
def encryptRound (c : RC5 w) (AB : BitVec w × BitVec w) (i : Nat) : BitVec w × BitVec w :=
  let A := rotl (AB.1 ^^^ AB.2) AB.2 + c.S.getD (2 * i) 0
  let B := rotl (AB.2 ^^^ A) A + c.S.getD (2 * i + 1) 0
  (A, B)

/-- `encrypt_block`. -/
def encryptBlock (c : RC5 w) (block : Bytes) : Bytes :=
  let AB := unpackBlock w block
  let AB := ((List.range c.rounds).map (· + 1)).foldl c.encryptRound
    (AB.1 + c.S.getD 0 0, AB.2 + c.S.getD 1 0)
  packBlock AB.1 AB.2

/-- One round of `decrypt_block`. -/
def decryptRound (c : RC5 w) (AB : BitVec w × BitVec w) (i : Nat) : BitVec w × BitVec w :=
  let B := rotr (AB.2 - c.S.getD (2 * i + 1) 0) AB.1 ^^^ AB.1
  let A := rotr (AB.1 - c.S.getD (2 * i) 0) B ^^^ B
  (A, B)

/-- `decrypt_block`. -/
def decryptBlock (c : RC5 w) (block : Bytes) : Bytes :=
  let AB := unpackBlock w block
  let AB := ((List.range c.rounds).map (· + 1)).reverse.foldl c.decryptRound AB
  packBlock (AB.1 - c.S.getD 0 0) (AB.2 - c.S.getD 1 0)

@[simp] theorem length_encryptBlock (c : RC5 w) (block : Bytes) :
    (c.encryptBlock block).length = w / 8 + w / 8 := by
  simp [encryptBlock, packBlock]

end RC5

end CamGuard.Crypto
