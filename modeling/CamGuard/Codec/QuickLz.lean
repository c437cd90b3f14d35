/-
The QuickLZ 1.5 level 2 decoder (`quicklz.py`) of the resource service, beside what it
decodes: literals and references into a table of the positions at which each hash was
seen last (`Token.expand`), packed behind control words (`pack`).

A read outside a byte string is a fault of its own (`index`), so that it can be shown
not to happen; the indices of the table are in range by their type.
-/
import CamGuard.Lib.Bytes
import CamGuard.Lib.Lz

namespace CamGuard.QuickLz

def HASH_VALUES : Nat := 2048
def HASH_SLOTS : Nat := 4
def MAX_OUTPUT : Nat := 0x7FFF

inductive QuickLzFault where
  | blockTruncated
  | headerTruncated
  | compressedLength
  | outputLength
  | headerLength
  | level
  | payloadLength
  | controlTruncated
  | sentinel
  | referenceTruncated
  | longTruncated
  | longShort
  /-- A slot that is empty, or that holds this position. -/
  | history (reference : Option Nat)
  | exceeds
  | literalTruncated
  | hashUpdate
  | trailing
  | index
  deriving DecidableEq, Repr

def QuickLzFault.reason : QuickLzFault → String
  | .blockTruncated => "QuickLZ block is truncated"
  | .headerTruncated => "QuickLZ header is truncated"
  | .compressedLength => "QuickLZ compressed length does not match the block"
  | .outputLength => "QuickLZ output length is outside the resource-service limit"
  | .headerLength => "QuickLZ header length does not match the gute frame"
  | .level => "QuickLZ block is not compression level 2"
  | .payloadLength => "uncompressed QuickLZ payload length is invalid"
  | .controlTruncated => "QuickLZ control word is truncated"
  | .sentinel => "QuickLZ control word has no sentinel"
  | .referenceTruncated => "QuickLZ reference is truncated"
  | .longTruncated => "QuickLZ long reference is truncated"
  | .longShort => "QuickLZ long reference is too short"
  | .history _ => "QuickLZ reference points outside decoded history"
  | .exceeds => "QuickLZ reference exceeds advertised output"
  | .literalTruncated => "QuickLZ literal is truncated"
  | .hashUpdate => "QuickLZ hash update exceeds available output"
  | .trailing => "QuickLZ block has trailing data"
  | .index => "index out of range"

/-- `b[i]`, which fails past the end. -/
def byteAt (b : Bytes) (i : Nat) : Except QuickLzFault UInt8 :=
  match b[i]? with
  | none => .error .index
  | some x => .ok x

/-- `struct.unpack_from` of one field, which fails past the end. -/
def unpack (n off : Nat) (b : Bytes) : Except QuickLzFault Nat :=
  if off + n ≤ b.length then .ok (b.field n off) else .error .index

/-- `_block_sizes`. -/
def blockSizes (source : Bytes) : Except QuickLzFault (Nat × Nat × Nat) := do
  if source.length < 3 then .error .blockTruncated
  else
    let flags ← byteAt source 0
    let headerLength := if flags.toNat.testBit 1 then 9 else 3
    if source.length < headerLength then .error .headerTruncated
    else
      let (compressedLength, outputLength) ←
        if headerLength = 9 then do
          let compressedLength ← unpack 4 1 source
          let outputLength ← unpack 4 5 source
          .ok (compressedLength, outputLength)
        else do
          let compressedLength ← byteAt source 1
          let outputLength ← byteAt source 2
          .ok (compressedLength.toNat, outputLength.toNat)
      if compressedLength ≠ source.length then .error .compressedLength
      else if outputLength = 0 ∨ MAX_OUTPUT < outputLength then .error .outputLength
      else .ok (headerLength, compressedLength, outputLength)

/-- A bucket of the table: the low bits of a value. -/
def bucketOf (value : Nat) : Fin HASH_VALUES := ⟨value % HASH_VALUES, Nat.mod_lt _ (by decide)⟩

/-- The bucket of three bytes. -/
def prefixBucket (a b c : UInt8) : Fin HASH_VALUES :=
  let value := a.toNat ||| b.toNat <<< 8 ||| c.toNat <<< 16
  bucketOf ((value >>> 9) ^^^ (value >>> 13) ^^^ value)

/-- `_hash_at`. -/
def hashAt (output : Bytes) (position : Nat) : Except QuickLzFault (Fin HASH_VALUES) := do
  let a ← byteAt output position
  let b ← byteAt output (position + 1)
  let c ← byteAt output (position + 2)
  .ok (prefixBucket a b c)

/-- What the loop of `decompress_level2` reads. -/
structure Block where
  source : Bytes
  compressedLength : Nat
  outputLength : Nat

/-- Its state; `next` is `last_hashed + 1`. -/
structure Decoder where
  cursor : Nat
  control : Nat := 1
  output : Bytes := []
  positions : Fin HASH_VALUES → Fin HASH_SLOTS → Option Nat := fun _ _ => none
  counts : Fin HASH_VALUES → UInt8 := fun _ => 0
  next : Nat := 0

namespace Decoder

/-- One turn of the loop of `update_hashes`. -/
def hashNext (d : Decoder) : Except QuickLzFault Decoder := do
  let hashed ← hashAt d.output d.next
  let count := d.counts hashed
  let slot : Fin HASH_SLOTS := ⟨count.toNat % HASH_SLOTS, Nat.mod_lt _ (by decide)⟩
  .ok { d with
    positions := Function.update d.positions hashed (Function.update (d.positions hashed) slot (some d.next))
    counts := Function.update d.counts hashed (count + 1)
    next := d.next + 1 }

def hashLoop : Nat → Decoder → Except QuickLzFault Decoder
  | 0, d => .ok d
  | n + 1, d => do
    let d ← d.hashNext
    hashLoop n d

/-- `update_hashes` through the position before `stop`. -/
def updateHashes (stop : Nat) (d : Decoder) : Except QuickLzFault Decoder :=
  if d.output.length ≤ stop + 1 then .error .hashUpdate else hashLoop (stop - d.next) d

/-- A control word, when the last one is used up. -/
def refill (block : Block) (d : Decoder) : Except QuickLzFault Decoder :=
  if d.control ≠ 1 then .ok d
  else if block.compressedLength < d.cursor + 4 then .error .controlTruncated
  else do
    let control ← unpack 4 d.cursor block.source
    if control.testBit 31 = false then .error .sentinel
    else .ok { d with control := control, cursor := d.cursor + 4 }

/-- The length of a match, and the cursor behind its token. -/
def matchLength (block : Block) (d : Decoder) (token : Nat) : Except QuickLzFault (Nat × Nat) :=
  let encodedLength := token >>> 2 % 8
  if encodedLength ≠ 0 then .ok (encodedLength + 2, d.cursor + 2)
  else if block.compressedLength < d.cursor + 3 then .error .longTruncated
  else do
    let length ← byteAt block.source (d.cursor + 2)
    if length.toNat < 3 then .error .longShort
    else .ok (length.toNat, d.cursor + 3)

def reference (block : Block) (d : Decoder) : Except QuickLzFault Decoder :=
  if block.compressedLength < d.cursor + 2 then .error .referenceTruncated
  else do
    let token ← unpack 2 d.cursor block.source
    let slot : Fin HASH_SLOTS := ⟨token % HASH_SLOTS, Nat.mod_lt _ (by decide)⟩
    let (length, cursor) ← d.matchLength block token
    let start := d.output.length
    match d.positions (bucketOf (token >>> 5)) slot with
    | none => .error (.history none)
    | some reference =>
      if start ≤ reference then .error (.history (some reference))
      else if block.outputLength < start + length then .error .exceeds
      else
        match Lz.copy reference length d.output with
        | none => .error .index
        | some output => do
          let d := { d with cursor := cursor, output := output }
          let d ← if d.next ≤ start then d.updateHashes (start + 1) else .ok d
          .ok { d with next := output.length }

def literal (block : Block) (d : Decoder) : Except QuickLzFault Decoder :=
  if block.compressedLength ≤ d.cursor then .error .literalTruncated
  else do
    let x ← byteAt block.source d.cursor
    let d := { d with cursor := d.cursor + 1, output := d.output ++ [x] }
    if d.next + 3 ≤ d.output.length then d.updateHashes (d.output.length - 2) else .ok d

/-- One turn of the loop. -/
def decodeToken (block : Block) (d : Decoder) : Except QuickLzFault Decoder := do
  let d ← d.refill block
  let d ← if d.control.testBit 0 then d.reference block else d.literal block
  .ok { d with control := d.control >>> 1 }

def decodeLoop (block : Block) : Nat → Decoder → Except QuickLzFault Decoder
  | 0, d => .ok d
  | n + 1, d =>
    if block.outputLength ≤ d.output.length then .ok d
    else do
      let d ← d.decodeToken block
      decodeLoop block n d

end Decoder

/-- `decompress_level2`. Every turn adds to the output, so there are at most as many as it
has bytes. -/
def decompressLevel2 (source : Bytes) (expectedLength : Int) : Except QuickLzFault Bytes := do
  let (headerLength, compressedLength, outputLength) ← blockSizes source
  if expectedLength ≠ outputLength then .error .headerLength
  else
    let flags ← byteAt source 0
    if flags.toNat >>> 2 % 4 ≠ 2 then .error .level
    else if flags.toNat.testBit 0 = false then
      let payload := source.drop headerLength
      if payload.length ≠ outputLength then .error .payloadLength else .ok payload
    else
      let d ← Decoder.decodeLoop ⟨source, compressedLength, outputLength⟩ outputLength { cursor := headerLength }
      let trailing := (source.take compressedLength).drop d.cursor
      if 4 < trailing.length ∨ trailing.any fun x => decide (x ≠ 0) then .error .trailing
      else .ok d.output

/-! ## Tokens and what they stand for -/

inductive Token where
  | literal (x : UInt8)
  /-- A match of three bytes or more at the position in a slot of a bucket; a length over
  nine takes a byte of its own, and a shorter one may. -/
  | reference (bucket : Fin HASH_VALUES) (slot : Fin HASH_SLOTS) (length : Nat) (long : Bool) (three_le : 3 ≤ length)
      (le : length ≤ if long then 255 else 9)

namespace Token

def isReference : Token → Bool
  | .literal _ => false
  | .reference .. => true

def encode : Token → Bytes
  | .literal x => [x]
  | .reference bucket slot length long _ _ =>
    let encodedLength := if long then 0 else length - 2
    Bytes.ofNat 2 (slot.val + 4 * encodedLength + 32 * bucket.val) ++ if long then [UInt8.ofNat length] else []

end Token

/-- The text so far, and the positions that were hashed, in order; all before `next` were
hashed or passed over. -/
structure Expansion where
  output : Bytes := []
  hashed : List Nat := []
  next : Nat := 0
  deriving DecidableEq

namespace Expansion

/-- The bucket of the three bytes at a position. -/
def bucketAt (output : Bytes) (position : Nat) : Fin HASH_VALUES :=
  prefixBucket (output.getD position 0) (output.getD (position + 1) 0) (output.getD (position + 2) 0)

/-- The positions of a bucket, in order. -/
def bucket (e : Expansion) (bucket : Fin HASH_VALUES) : List Nat :=
  e.hashed.filter fun position => decide (bucketAt e.output position = bucket)

/-- The positions before `stop` are hashed. -/
def advance (e : Expansion) (stop : Nat) : Expansion where
  output := e.output
  hashed := e.hashed ++ List.range' e.next (stop - e.next)
  next := max e.next stop

end Expansion

/-- The expansion after a token: a literal hashes all positions that have three bytes, a
match the one it starts at, and those inside of it are passed over. -/
def Token.expand (e : Expansion) : Token → Option Expansion
  | .literal x =>
    let output := e.output ++ [x]
    some ({ e with output := output }.advance (output.length - 2))
  | .reference bucket slot length _ _ _ =>
    (Lz.lastAt HASH_SLOTS slot.val (e.bucket bucket)).map fun reference =>
      let output := e.output ++ Lz.cycle (e.output.drop reference) length
      { ({ e with output := output }.advance (e.output.length + 1)) with next := output.length }

/-- The expansion of a sequence of tokens; `none` where a reference finds nothing. -/
def expand (tokens : List Token) : Option Expansion := tokens.foldlM Token.expand {}

/-! ## Packing -/

/-- The bits of a group, the first token lowest. -/
def controlBits : List Token → Nat
  | [] => 0
  | token :: rest => token.isReference.toNat + 2 * controlBits rest

/-- Groups of 31 tokens, each behind its control word with the sentinel on top. -/
def packGroups : Nat → List Token → Bytes
  | 0, _ => []
  | _ + 1, [] => []
  | n + 1, tokens =>
    Bytes.ofNat 4 (2 ^ 31 + controlBits (tokens.take 31)) ++ (tokens.take 31).flatMap Token.encode ++
      packGroups n (tokens.drop 31)

def pack (tokens : List Token) : Bytes := packGroups tokens.length tokens

/-- The header of a compressed block of level 2, in one of its two forms; the upper bits
of the flags are free. -/
def header (long : Bool) (upper : Nat) (compressedLength outputLength : Nat) : Bytes :=
  let width := if long then 4 else 1
  UInt8.ofNat (16 * upper + 8 + 2 * long.toNat + 1) :: (Bytes.ofNat width compressedLength ++ Bytes.ofNat width outputLength)

/-- A block of tokens, with what may trail them. -/
def packBlock (long : Bool) (upper : Nat) (tokens : List Token) (trailing : Bytes) (outputLength : Nat) : Bytes :=
  let body := pack tokens ++ trailing
  header long upper ((if long then 9 else 3) + body.length) outputLength ++ body

end CamGuard.QuickLz
