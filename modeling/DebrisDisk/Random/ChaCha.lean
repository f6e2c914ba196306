import DebrisDisk.Scalar

/-!
# Random numbers

Uniform numbers come from the ChaCha key stream with eight rounds. A 64-bit seed is stretched to the
eight words of the key by a permuted congruential generator. Every number takes two words of the
stream, the lower half first, and keeps the upper 53 bits.

A `Generator` is a key with the count of numbers drawn, so the stream is a function of the seed and
of that count alone.
-/

namespace DebrisDisk.Random

/-- The sixteen words that a block function works on. -/
abbrev Block := Vector UInt32 16

/-- Rotates a word to the left. -/
def rotateLeft (x : UInt32) (n : UInt32) : UInt32 := (x <<< n) ||| (x >>> (32 - n))

/-- Mixes four words of a block. -/
def quarterRound (s : Block) (a b c d : Fin 16) : Block :=
  let mix (s : Block) (x y z : Fin 16) (n : UInt32) : Block :=
    let s := s.set x (s[x] + s[y])
    s.set z (rotateLeft (s[z] ^^^ s[x]) n)
  mix (mix (mix (mix s a b d 16) c d b 12) a b d 8) c d b 7

/-- A round over the columns and a round over the diagonals. -/
def doubleRound (s : Block) : Block :=
  let s := quarterRound s 0 4 8 12
  let s := quarterRound s 1 5 9 13
  let s := quarterRound s 2 6 10 14
  let s := quarterRound s 3 7 11 15
  let s := quarterRound s 0 5 10 15
  let s := quarterRound s 1 6 11 12
  let s := quarterRound s 2 7 8 13
  quarterRound s 3 4 9 14

/-- The eight words of a key. -/
abbrev Key := Vector UInt32 8

/-- The block of the key and a 64-bit counter before mixing. -/
def initialBlock (key : Key) (counter : Nat) : Block :=
  #v[0x61707865, 0x3320646e, 0x79622d32, 0x6b206574,
    key[0], key[1], key[2], key[3], key[4], key[5], key[6], key[7],
    (counter % UInt32.size).toUInt32, (counter / UInt32.size).toUInt32, 0, 0]

/-- The block of the key stream with the given number: four double rounds, added to the start. -/
def block (key : Key) (counter : Nat) : Block :=
  let start := initialBlock key counter
  Vector.zipWith (· + ·) (doubleRound (doubleRound (doubleRound (doubleRound start)))) start

/-- One word of the key stream. -/
def word (key : Key) (i : Nat) : UInt32 :=
  (block key (i / 16)).get ⟨i % 16, Nat.mod_lt _ (by decide)⟩

/-! ## Seeds -/

/-- One step of the congruential generator that stretches seeds. -/
def advanceSeed (s : UInt64) : UInt64 := s * 6364136223846793005 + 11634580027462260723

/-- The word that a state of that generator stands for. -/
def seedWord (s : UInt64) : UInt32 :=
  let x := (((s >>> 18) ^^^ s) >>> 27).toUInt32
  let n := (s >>> 59).toUInt32
  (x >>> n) ||| (x <<< ((32 - n) % 32))

/-- The key of a seed. -/
def keyOfSeed (seed : Nat) : Key :=
  let rec states : Nat → UInt64 → List UInt64
    | 0, _ => []
    | k + 1, s => advanceSeed s :: states k (advanceSeed s)
  Vector.ofFn fun i => seedWord ((states 8 seed.toUInt64).getD i 0)

/-! ## The generator -/

/-- A key and the count of numbers drawn from its stream. -/
structure Generator where
  key : Key
  drawn : Nat
  deriving DecidableEq

namespace Generator

/-- The generator of a seed, before any draw. -/
def ofSeed (seed : Nat) : Generator := { key := keyOfSeed seed, drawn := 0 }

/-- The 53 bits of the number with the given place in the stream. -/
def bits (key : Key) (place : Nat) : Nat :=
  let lo := (word key (2 * place)).toNat
  let hi := (word key (2 * place + 1)).toNat
  (hi * UInt32.size + lo) >>> 11

/-- The next number between zero and one, one excluded, and the generator after the draw. -/
def uniform {α : Type} [Scalar α] (g : Generator) : α × Generator :=
  (Scalar.ofNat (bits g.key g.drawn) / 9007199254740992.0, { g with drawn := g.drawn + 1 })

end Generator
end DebrisDisk.Random
