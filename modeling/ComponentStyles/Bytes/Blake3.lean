import ComponentStyles.Bytes.LittleEndian

/-!
The BLAKE3 hash.

The input is cut into chunks of 1024 bytes, a chunk into blocks of 64.  Each chunk is
compressed block by block; the chunks are the leaves of a binary tree whose left subtrees are
as large as a power of two allows.  The digest is the first 32 bytes of the root.
-/

namespace ComponentStyles.Bytes.Blake3

abbrev Chain := Vector UInt32 8

abbrev Block := Vector UInt32 16

/-- The fractional parts of the square roots of the first eight primes. -/
def initialChain : Chain :=
  #v[0x6A09E667, 0xBB67AE85, 0x3C6EF372, 0xA54FF53A, 0x510E527F, 0x9B05688C, 0x1F83D9AB, 0x5BE0CD19]

def wordOrder : Vector (Fin 16) 16 :=
  #v[2, 6, 3, 10, 7, 0, 4, 13, 1, 11, 12, 5, 9, 14, 15, 8]

def chunkStart : UInt32 := 1
def chunkEnd : UInt32 := 2
def parentNode : UInt32 := 4
def rootNode : UInt32 := 8

def rotated (word amount : UInt32) : UInt32 :=
  (word >>> amount) ||| (word <<< (32 - amount))

def mix (state : Block) (a b c d : Fin 16) (first second : UInt32) : Block :=
  let state := state.set a (state[a] + state[b] + first)
  let state := state.set d (rotated (state[d] ^^^ state[a]) 16)
  let state := state.set c (state[c] + state[d])
  let state := state.set b (rotated (state[b] ^^^ state[c]) 12)
  let state := state.set a (state[a] + state[b] + second)
  let state := state.set d (rotated (state[d] ^^^ state[a]) 8)
  let state := state.set c (state[c] + state[d])
  state.set b (rotated (state[b] ^^^ state[c]) 7)

def round (state block : Block) : Block :=
  let state := mix state 0 4 8 12 block[0] block[1]
  let state := mix state 1 5 9 13 block[2] block[3]
  let state := mix state 2 6 10 14 block[4] block[5]
  let state := mix state 3 7 11 15 block[6] block[7]
  let state := mix state 0 5 10 15 block[8] block[9]
  let state := mix state 1 6 11 12 block[10] block[11]
  let state := mix state 2 7 8 13 block[12] block[13]
  mix state 3 4 9 14 block[14] block[15]

def reordered (block : Block) : Block :=
  Vector.ofFn fun position : Fin 16 => block[wordOrder[position]]

def rounds : Nat → Block → Block → Block
  | 0, state, _ => state
  | 1, state, block => round state block
  | count + 2, state, block => rounds (count + 1) (round state block) (reordered block)

/-- One compression that has all its input: the chain before it, the block, the number of the
chunk, the number of bytes in the block and the flags. -/
structure Compression where
  chain : Chain
  block : Block
  counter : Nat
  size : Nat
  flags : UInt32

def Compression.result (input : Compression) : Chain :=
  let chain := input.chain
  let state : Block :=
    #v[chain[0], chain[1], chain[2], chain[3], chain[4], chain[5], chain[6], chain[7],
      initialChain[0], initialChain[1], initialChain[2], initialChain[3],
      UInt32.ofNat input.counter, UInt32.ofNat (input.counter / 0x100000000),
      UInt32.ofNat input.size, input.flags]
  let mixed := rounds 7 state input.block
  Vector.ofFn fun position : Fin 8 => mixed[position.val] ^^^ mixed[position.val + 8]

def blockOf (bytes : List UInt8) : Block :=
  let bytes := bytes.toArray
  let byte := fun position : Nat => (bytes.getD position 0).toUInt32
  Vector.ofFn fun word : Fin 16 =>
    byte (4 * word) ||| (byte (4 * word + 1) <<< 8) ||| (byte (4 * word + 2) <<< 16) |||
      (byte (4 * word + 3) <<< 24)

def chunkFrom (counter : Nat) (chain : Chain) (flags : UInt32) (bytes : List UInt8) :
    Compression :=
  let rest := bytes.drop 64
  let size := (bytes.take 64).length
  if rest.isEmpty then
    { chain, block := blockOf (bytes.take 64), counter, size, flags := flags ||| chunkEnd }
  else
    let input : Compression :=
      { chain, block := blockOf (bytes.take 64), counter, size, flags }
    chunkFrom counter input.result 0 rest
termination_by bytes.length
decreasing_by
  rename_i nonempty
  have positive : 64 < bytes.length := by simpa [rest] using nonempty
  simp only [List.length_drop]
  omega

def parentOf (left right : Chain) : Compression :=
  { chain := initialChain
    block := (left ++ right)
    counter := 0
    size := 64
    flags := parentNode }

/-- The size of the left subtree: the largest power of two of whole chunks that leaves
something for the right one. -/
def leftSize (size : Nat) : Nat :=
  1024 <<< ((size - 1) / 1024).log2

def tree (counter : Nat) (bytes : List UInt8) : Compression :=
  if bytes.length ≤ 1024 then chunkFrom counter initialChain chunkStart bytes
  else
    let size := leftSize bytes.length
    parentOf (tree counter (bytes.take size)).result
      (tree (counter + size / 1024) (bytes.drop size)).result
termination_by bytes.length
decreasing_by
  · rename_i large
    have whole : ((bytes.length - 1) / 1024) ≠ 0 := by omega
    have bound := Nat.log2_self_le whole
    simp only [leftSize, Nat.shiftLeft_eq, List.length_take]
    omega
  · rename_i large
    have positive : 0 < 2 ^ ((bytes.length - 1) / 1024).log2 := Nat.two_pow_pos _
    simp only [leftSize, Nat.shiftLeft_eq, List.length_drop]
    omega

def digest (bytes : List UInt8) : List UInt8 :=
  let root := tree 0 bytes
  let chain := { root with counter := 0, flags := root.flags ||| rootNode }.result
  chain.toList.flatMap fun word => littleEndian 4 word.toNat

end ComponentStyles.Bytes.Blake3
