/-
# The objects of the chain, as the service reads them

The service handles objects of dashcore-lib: transactions, blocks, merkle
blocks, instant locks and bloom filters.  This file declares the fields that
the service reads of each.

* A hexadecimal string is kept as the bytes it spells: `toString('hex')` and
  `Buffer.from(_, 'hex')` are inverse to each other on the strings that occur,
  so both are the identity here and `===` on hashes is equality of bytes.
* `output.script` is `null` when the bytes do not parse, hence an `Option`.
* `input.script` is a getter that parses the bytes each time it is read: it is `null`
  for the input of a coinbase, and raises `InvalidBuffer` for bytes that do not parse.
* `isPublicKeyOut` and `isMultisigOut` are methods of a script; a script
  carries what they answer.
* A bloom filter is anything that answers `contains`, is changed by `insert`
  and has flags (`BloomFilter`); `LawfulBloomFilter` is what its users rely on:
  an inserted element is contained, and inserting forgets nothing.
-/
import Mathlib

namespace Dapi

/-- A byte buffer. -/
abbrev Buffer := List UInt8

/-- A hash, as the bytes that its hexadecimal string spells. -/
abbrev Hash := Buffer

/-! ## Transactions -/

/-- One chunk of a parsed script. -/
structure Chunk where
  opcodenum : ℕ
  buf : Option Buffer
  deriving DecidableEq

/-- A parsed script, with the answers of its two classifiers. -/
structure Script where
  chunks : List Chunk
  isPublicKeyOut : Bool
  isMultisigOut : Bool
  deriving DecidableEq

/-- A transaction output. -/
structure Output where
  script : Option Script
  deriving DecidableEq

/-- The exception of dashcore-lib for bytes that are no script. -/
structure InvalidBuffer where
  message : String
  deriving DecidableEq

/-- A transaction input, with what reading `input.script` gives or raises. -/
structure Input where
  prevTxId : Option Buffer
  outputIndex : UInt32
  script : Except InvalidBuffer (Option Script)
  deriving DecidableEq

/-- A transaction; `none` stands for a field that is not an array. -/
structure Transaction where
  hash : Hash
  inputs : Option (List Input)
  outputs : Option (List Output)
  deriving DecidableEq

/-- Every output script of the transaction parses. -/
def Transaction.OutputsParse (tx : Transaction) : Prop :=
  ∀ outputs, tx.outputs = some outputs → ∀ output ∈ outputs, output.script ≠ none

/-- Every input script of the transaction parses, or is the missing one of a coinbase. -/
def Transaction.InputsParse (tx : Transaction) : Prop :=
  ∀ inputs, tx.inputs = some inputs → ∀ input ∈ inputs, ∃ script, input.script = .ok script

/-- Every script of the transaction parses. -/
structure Transaction.Parseable (tx : Transaction) : Prop where
  outputs : tx.OutputsParse
  inputs : tx.InputsParse

/-! ## Blocks -/

/-- A block header. -/
structure BlockHeader where
  hash : Hash
  deriving DecidableEq

/-- A block. -/
structure Block where
  header : BlockHeader
  transactions : List Transaction
  deriving DecidableEq

/-- The hash of a block is the hash of its header. -/
def Block.hash (block : Block) : Hash := block.header.hash

/-- `block.transactions.map(tx => tx.hash)` -/
def Block.transactionHashes (block : Block) : List Hash := block.transactions.map Transaction.hash

/-- A merkle block; the service writes to `hashes`, when they are there. -/
structure MerkleBlock where
  header : BlockHeader
  hashes : Option (List Hash)
  deriving DecidableEq

/-- `MerkleBlock.build(header, hashes, flags)`, a function of dashcore-lib. -/
abbrev MerkleBlockBuild := BlockHeader → List Buffer → List Bool → MerkleBlock

/-- An instant lock of the transaction `txid`. -/
structure InstantLock where
  txid : Hash
  signature : Buffer
  deriving DecidableEq

/-! ## Bloom filters -/

/-- What the service uses of a bloom filter. -/
class BloomFilter (F : Type) where
  contains : F → Buffer → Bool
  insert : F → Buffer → F
  nFlags : F → ℕ
  toBuffer : F → Buffer

namespace BloomFilter

/-- The filter stays as it is. -/
def BLOOM_UPDATE_NONE : ℕ := 0

/-- Outpoints of matching outputs are put into the filter. -/
def BLOOM_UPDATE_ALL : ℕ := 1

/-- Only those of outputs to public keys or multisig scripts are. -/
def BLOOM_UPDATE_P2PUBKEY_ONLY : ℕ := 2

end BloomFilter

/-- Inserting makes an element contained, forgets none, and leaves the flags alone. -/
class LawfulBloomFilter (F : Type) [BloomFilter F] : Prop where
  contains_insert_self : ∀ (filter : F) (d : Buffer),
    BloomFilter.contains (BloomFilter.insert filter d) d = true
  contains_insert_of_contains : ∀ (filter : F) (d d' : Buffer),
    BloomFilter.contains filter d' = true →
      BloomFilter.contains (BloomFilter.insert filter d) d' = true
  nFlags_insert : ∀ (filter : F) (d : Buffer),
    BloomFilter.nFlags (BloomFilter.insert filter d) = BloomFilter.nFlags filter

/-- The filter without false positives: the list of what was inserted. -/
structure ExactFilter where
  elements : List Buffer
  flags : ℕ
  deriving DecidableEq

instance : BloomFilter ExactFilter where
  contains filter d := decide (d ∈ filter.elements)
  insert filter d := { filter with elements := filter.elements ++ [d] }
  nFlags filter := filter.flags
  toBuffer filter := filter.elements.flatten

instance : LawfulBloomFilter ExactFilter where
  contains_insert_self := fun filter d => by simp [BloomFilter.contains, BloomFilter.insert]
  contains_insert_of_contains := fun filter d d' h => by
    simp only [BloomFilter.contains, BloomFilter.insert, decide_eq_true_eq] at h ⊢
    exact List.mem_append_left _ h
  nFlags_insert := fun _ _ => rfl

end Dapi
