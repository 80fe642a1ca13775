import PasswordVault.Digest.Blake2b
import PasswordVault.KeyDerivation.Argon2.MemoryBlock

/-!
# Argon2

The memory-hard key derivation function, version 1.3, with a tag of 32 bytes and neither secret nor
associated data. Memory is a table of lanes; each block mixes its predecessor with a block chosen
earlier, by the data itself or by a counter, depending on the variant.
-/

namespace PasswordVault
namespace Argon2

/-- How blocks are chosen: by data, by a counter, or by a counter for the first half of the first
pass. -/
inductive Variant where
  | d
  | i
  | id
deriving DecidableEq, Repr

def Variant.code : Variant → Nat
  | .d => 0
  | .i => 1
  | .id => 2

/-- The costs of a derivation: passes over the memory, memory in KiB, and lanes. -/
structure Costs where
  passes : Nat
  memory : Nat
  lanes : Nat
deriving DecidableEq

def tagLength : Nat := 32

inductive CostFault where
  | memoryTooLittle
  | timeTooSmall
  | threadsTooFew
  | threadsTooMany
deriving DecidableEq

def CostFault.message : CostFault → String
  | .memoryTooLittle => "memory cost is too small"
  | .timeTooSmall => "time cost is too small"
  | .threadsTooFew => "not enough threads"
  | .threadsTooMany => "too many threads"

def Costs.fault? (c : Costs) : Option CostFault :=
  if c.memory < 8 ∨ c.memory < 8 * c.lanes then some .memoryTooLittle
  else if c.passes < 1 then some .timeTooSmall
  else if c.lanes < 1 then some .threadsTooFew
  else if 0xffffff < c.lanes then some .threadsTooMany
  else none

/-- The length of a segment: a quarter of a lane. -/
def Costs.segment (c : Costs) : Nat := c.memory / (4 * c.lanes)

def Costs.lane (c : Costs) : Nat := 4 * c.segment

def minSaltLength : Nat := 8

/-! ## Digests -/

/-- A digest of any length. -/
def longHash (length : Nat) (b : Bytes) : Bytes :=
  let input := Bytes.ofNatLE 4 length ++ b
  if length ≤ 64 then Blake2b.hash length input
  else
    let count := (length + 31) / 32 - 2
    go length count (Blake2b.hash 64 input)
where
  /-- The first halves of `count` digests in a chain, then a last digest for the rest. -/
  go (left : Nat) : (count : Nat) → (current : Bytes) → Bytes
    | 0, current => Blake2b.hash left current
    | 1, current => current.take 32 ++ Blake2b.hash (left - 32) current
    | count + 2, current => current.take 32 ++ go (left - 32) (count + 1) (Blake2b.hash 64 current)

def initialHash (variant : Variant) (password salt : Bytes) (c : Costs) : Bytes :=
  let le (n : Nat) := Bytes.ofNatLE 4 n
  Blake2b.hash 64
    (le c.lanes ++ le tagLength ++ le c.memory ++ le c.passes ++ le 0x13 ++ le variant.code
      ++ le password.length ++ password ++ le salt.length ++ salt ++ le 0 ++ le 0)

/-! ## Filling the memory -/

/-- The place of a segment: its pass, its lane and its quarter of the lane. -/
structure Place where
  pass : Nat
  lane : Nat
  slice : Nat

/-- The counter block with the given number, which chooses blocks independently of the data. -/
def addresses (variant : Variant) (c : Costs) (p : Place) (number : Nat) : MemoryBlock :=
  let first : Words16 := Words16.ofList
    ([p.pass, p.lane, p.slice, 4 * c.lanes * c.segment, c.passes, variant.code, number].map UInt64.ofNat)
  let input := { MemoryBlock.zero with r0 := first }
  MemoryBlock.zero.mix (MemoryBlock.zero.mix input)

/-- Whether a segment chooses its blocks by the counter. -/
def Variant.byCounter (variant : Variant) (p : Place) : Bool :=
  match variant with
  | .d => false
  | .i => true
  | .id => p.pass = 0 ∧ p.slice < 2

/-- The index in memory of the block that a pseudorandom word chooses for the block at `index` of a
segment: a lane, and a position among the blocks that are finished. -/
def chosen (c : Costs) (p : Place) (index : Nat) (random : UInt64) : Nat :=
  let low := random &&& 0xffffffff
  let high := random >>> 32
  let lane := if p.pass = 0 ∧ p.slice = 0 then p.lane else high.toNat % c.lanes
  let finished := if p.pass = 0 then p.slice * c.segment else c.lane - c.segment
  let area :=
    if lane = p.lane then finished + index - 1 else if index = 0 then finished - 1 else finished
  -- The square makes late blocks more likely than early ones.
  let x := (low * low) >>> 32
  let back := ((UInt64.ofNat area * x) >>> 32).toNat
  let start := if p.pass = 0 ∨ p.slice = 3 then 0 else (p.slice + 1) * c.segment
  lane * c.lane + (start + (area - 1 - back)) % c.lane

/-- The rest of a segment, `left` blocks, filled from its end. `counter` is the counter block in
use. -/
def fillSegment (variant : Variant) (c : Costs) (p : Place) :
    (left : Nat) → (counter : MemoryBlock) → Array MemoryBlock → Array MemoryBlock
  | 0, _, memory => memory
  | left + 1, counter, memory =>
    let index := c.segment - (left + 1)
    -- A counter block lasts for 128 blocks; the first segment of a lane begins at its third block.
    let counter :=
      if variant.byCounter p ∧ (index % 128 = 0 ∨ left + 1 = c.segment - 2 ∧ p.pass = 0 ∧ p.slice = 0) then
        addresses variant c p (index / 128 + 1)
      else counter
    let column := p.slice * c.segment + index
    let here := p.lane * c.lane + column
    let before := if column = 0 then here + c.lane - 1 else here - 1
    let previous := memory.getD before MemoryBlock.zero
    let random := if variant.byCounter p then counter.word (index % 128) else previous.r0.w0
    let other := memory.getD (chosen c p index random) MemoryBlock.zero
    let mixed := previous.mix other
    -- Later passes add to what the memory holds.
    let mixed := if p.pass = 0 then mixed else mixed.xor (memory.getD here MemoryBlock.zero)
    fillSegment variant c p left counter (memory.setIfInBounds here mixed)

def startLane (c : Costs) (seed : Bytes) (lane : Nat) (memory : Array MemoryBlock) :
    Array MemoryBlock :=
  let block (i : Nat) :=
    MemoryBlock.ofBytes (longHash 1024 (seed ++ Bytes.ofNatLE 4 i ++ Bytes.ofNatLE 4 lane))
  (memory.setIfInBounds (lane * c.lane) (block 0)).setIfInBounds (lane * c.lane + 1) (block 1)

def fillPass (variant : Variant) (c : Costs) (memory : Array MemoryBlock) (pass : Nat) :
    Array MemoryBlock :=
  (List.range 4).foldl (fun memory slice =>
    (List.range c.lanes).foldl (fun memory lane =>
      let count := if pass = 0 ∧ slice = 0 then c.segment - 2 else c.segment
      fillSegment variant c ⟨pass, lane, slice⟩ count MemoryBlock.zero memory) memory) memory

/-- The exclusive or of the last blocks of all lanes. -/
def lastColumn (c : Costs) (memory : Array MemoryBlock) : MemoryBlock :=
  (List.range c.lanes).foldl (fun acc lane =>
    acc.xor (memory.getD (lane * c.lane + c.lane - 1) MemoryBlock.zero)) MemoryBlock.zero

def derive (variant : Variant) (password salt : Bytes) (c : Costs) : Bytes :=
  let seed := initialHash variant password salt c
  let empty := Array.replicate (c.lanes * c.lane) MemoryBlock.zero
  let started := (List.range c.lanes).foldl (fun memory lane => startLane c seed lane memory) empty
  let filled := (List.range c.passes).foldl (fillPass variant c) started
  longHash tagLength (lastColumn c filled).bytes

end Argon2
end PasswordVault
