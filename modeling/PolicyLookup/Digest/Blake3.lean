/-
  PolicyLookup.Digest.Blake3 — the BLAKE3 hash of a list of bytes.

  The input is cut into chunks of 1024 bytes, and a chunk into blocks of 64.  Chunks are the
  leaves of a binary tree whose left subtrees are full; the hash is the output of the root.
-/

import PolicyLookup.Text.Hex

namespace PolicyLookup.Digest.Blake3

/-! ## §1. The compression function. -/

/-- A chaining value: what a chunk or a subtree passes up. -/
abbrev Chain := Vector UInt32 8

/-- The sixteen words of a block, or of the state while a block is mixed in. -/
abbrev Words := Vector UInt32 16

/-- The chaining value that every chunk starts from. -/
def initial : Chain :=
  #v[0x6A09E667, 0xBB67AE85, 0x3C6EF372, 0xA54FF53A, 0x510E527F, 0x9B05688C, 0x1F83D9AB, 0x5BE0CD19]

/-- Rotation of a word to the right. -/
def rotate (x n : UInt32) : UInt32 := (x >>> n) ||| (x <<< (32 - n))

/-- Mixes two words of the block into four words of the state. -/
def quarter (v : Words) (a b c d : Fin 16) (x y : UInt32) : Words :=
  let va := v[a] + v[b] + x
  let vd := rotate (v[d] ^^^ va) 16
  let vc := v[c] + vd
  let vb := rotate (v[b] ^^^ vc) 12
  let va := va + vb + y
  let vd := rotate (vd ^^^ va) 8
  let vc := vc + vd
  let vb := rotate (vb ^^^ vc) 7
  (((v.set a va).set b vb).set c vc).set d vd

/-- Mixes a block into the state, first its columns and then its diagonals. -/
def round (v m : Words) : Words :=
  let v := quarter v 0 4 8 12 m[0] m[1]
  let v := quarter v 1 5 9 13 m[2] m[3]
  let v := quarter v 2 6 10 14 m[4] m[5]
  let v := quarter v 3 7 11 15 m[6] m[7]
  let v := quarter v 0 5 10 15 m[8] m[9]
  let v := quarter v 1 6 11 12 m[10] m[11]
  let v := quarter v 2 7 8 13 m[12] m[13]
  quarter v 3 4 9 14 m[14] m[15]

/-- The order in which the next round takes the words of the block. -/
def permute (m : Words) : Words :=
  #v[m[2], m[6], m[3], m[10], m[7], m[0], m[4], m[13],
    m[1], m[11], m[12], m[5], m[9], m[14], m[15], m[8]]

/-- The given number of rounds, the block permuted between them. -/
def rounds : Nat → Words → Words → Words
  | 0, v, _ => v
  | n + 1, v, m => rounds n (round v m) (permute m)

/-- Where a block stands in the tree. -/
structure Flags where
  chunkStart : Bool
  chunkEnd : Bool
  parent : Bool
  root : Bool

/-- The word of a set of flags. -/
def Flags.word (f : Flags) : UInt32 :=
  (if f.chunkStart then 1 else 0) + (if f.chunkEnd then 2 else 0)
    + (if f.parent then 4 else 0) + (if f.root then 8 else 0)

/-- The first half of the output of compressing a block. -/
def compress (h : Chain) (m : Words) (counter : Nat) (length : Nat) (flags : Flags) : Chain :=
  let v : Words :=
    #v[h[0], h[1], h[2], h[3], h[4], h[5], h[6], h[7],
      initial[0], initial[1], initial[2], initial[3],
      UInt32.ofNat counter, UInt32.ofNat (counter / 4294967296), UInt32.ofNat length, flags.word]
  let v := rounds 7 v m
  #v[v[0] ^^^ v[8], v[1] ^^^ v[9], v[2] ^^^ v[10], v[3] ^^^ v[11],
    v[4] ^^^ v[12], v[5] ^^^ v[13], v[6] ^^^ v[14], v[7] ^^^ v[15]]

/-! ## §2. Blocks and chunks. -/

/-- The word of four bytes, the lowest first; missing bytes are zero. -/
def wordOf (bytes : List UInt8) : UInt32 :=
  UInt32.ofNat ((bytes.take 4).foldr (fun b n => b.toNat + 256 * n) 0)

/-- The words of a block of at most 64 bytes. -/
def wordsOf (block : List UInt8) : Words := Vector.ofFn fun i => wordOf (block.drop (4 * i.val))

/-- A block that is still to be compressed, so that the root can be marked. -/
structure Node where
  chain : Chain
  block : Words
  counter : Nat
  length : Nat
  flags : Flags

/-- The chaining value of a node below the root. -/
def Node.chained (n : Node) : Chain := compress n.chain n.block n.counter n.length n.flags

/-- The chaining value of the root. -/
def Node.rooted (n : Node) : Chain :=
  compress n.chain n.block 0 n.length { n.flags with root := true }

/-- The last block of a chunk, after the blocks before it. -/
def chunkNode (index : Nat) (chain : Chain) (first : Bool) (bytes : List UInt8) : Node :=
  if 64 < bytes.length then
    let flags : Flags := ⟨first, false, false, false⟩
    chunkNode index (compress chain (wordsOf (bytes.take 64)) index 64 flags) false (bytes.drop 64)
  else ⟨chain, wordsOf bytes, index, bytes.length, ⟨first, true, false, false⟩⟩
termination_by bytes.length
decreasing_by simp only [List.length_drop]; omega

/-! ## §3. The tree. -/

/-- The bytes of the left subtree: the largest full tree that leaves something for the right. -/
def leftLength (length : Nat) : Nat := 1024 * Nat.pow 2 ((length - 1) / 1024).log2

/-- The node above two subtrees. -/
def parentNode (left right : Chain) : Node where
  chain := initial
  block := #v[left[0], left[1], left[2], left[3], left[4], left[5], left[6], left[7],
    right[0], right[1], right[2], right[3], right[4], right[5], right[6], right[7]]
  counter := 0
  length := 64
  flags := ⟨false, false, true, false⟩

/-- The node of a tree of at most the given height over some bytes, whose first chunk has the
given index.  A left part is a full tree and a right part is not larger. -/
def treeNode : (height : Nat) → (index : Nat) → List UInt8 → Node
  | 0, index, bytes => chunkNode index initial true bytes
  | height + 1, index, bytes =>
    if bytes.length ≤ 1024 then chunkNode index initial true bytes
    else
      let left := leftLength bytes.length
      parentNode (treeNode height index (bytes.take left)).chained
        (treeNode height (index + left / 1024) (bytes.drop left)).chained

/-- The four bytes of a word, the lowest first. -/
def bytesOf (w : UInt32) : List UInt8 :=
  [w.toUInt8, (w >>> 8).toUInt8, (w >>> 16).toUInt8, (w >>> 24).toUInt8]

/-- The 32 bytes of the hash. -/
def hash (bytes : List UInt8) : List UInt8 :=
  (treeNode (bytes.length.log2 + 1) 0 bytes).rooted.toList.flatMap bytesOf

/-- The hash in lower-case hexadecimal digits. -/
def hex (bytes : List UInt8) : String := String.ofList (Text.Hex.ofBytes (hash bytes))

end PolicyLookup.Digest.Blake3
