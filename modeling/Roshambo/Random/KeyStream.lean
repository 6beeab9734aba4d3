/-!
# The key stream

A seed stands for an endless stream of 32-bit words. The seed is stretched to a key of eight words
by a small congruential generator, and the key drives the ChaCha block function with twelve
rounds: sixteen words a block, block numbers counted from zero. A block is a square of four rows,
and one step works on its four columns at once; turning the rows makes the diagonals into columns.
-/
namespace Roshambo.Random

def rotateLeft (x n : UInt32) : UInt32 := (x <<< n) ||| (x >>> (32 - n))

def rotateRight (x n : UInt32) : UInt32 := (x >>> n) ||| (x <<< (32 - n))

/-- Four words, one in each column. -/
structure Row where
  w0 : UInt32
  w1 : UInt32
  w2 : UInt32
  w3 : UInt32
  deriving DecidableEq

namespace Row

def add (x y : Row) : Row := ⟨x.w0 + y.w0, x.w1 + y.w1, x.w2 + y.w2, x.w3 + y.w3⟩

/-- The exclusive or of two rows, each word then rotated left. -/
def mix (x y : Row) (n : UInt32) : Row :=
  ⟨rotateLeft (x.w0 ^^^ y.w0) n, rotateLeft (x.w1 ^^^ y.w1) n, rotateLeft (x.w2 ^^^ y.w2) n,
    rotateLeft (x.w3 ^^^ y.w3) n⟩

/-- Each word moves one column to the left, the first to the end. -/
def turn (x : Row) : Row := ⟨x.w1, x.w2, x.w3, x.w0⟩

theorem turn_turn_turn_turn (x : Row) : x.turn.turn.turn.turn = x := rfl

def toList (x : Row) : List UInt32 := [x.w0, x.w1, x.w2, x.w3]

end Row

/-- Sixteen words in four rows. -/
structure Block where
  r0 : Row
  r1 : Row
  r2 : Row
  r3 : Row
  deriving DecidableEq

namespace Block

def add (x y : Block) : Block :=
  ⟨x.r0.add y.r0, x.r1.add y.r1, x.r2.add y.r2, x.r3.add y.r3⟩

/-- The quarter round on all four columns. -/
def columnRound (x : Block) : Block :=
  let a := x.r0.add x.r1
  let d := x.r3.mix a 16
  let c := x.r2.add d
  let b := x.r1.mix c 12
  let a := a.add b
  let d := d.mix a 8
  let c := c.add d
  let b := b.mix c 7
  ⟨a, b, c, d⟩

/-- Diagonals become columns. -/
def turn (x : Block) : Block := ⟨x.r0, x.r1.turn, x.r2.turn.turn, x.r3.turn.turn.turn⟩

/-- Columns become diagonals again. -/
def unturn (x : Block) : Block := ⟨x.r0, x.r1.turn.turn.turn, x.r2.turn.turn, x.r3.turn⟩

theorem unturn_turn (x : Block) : x.turn.unturn = x := rfl

/-- One round on the columns and one on the diagonals. -/
def doubleRound (x : Block) : Block := x.columnRound.turn.columnRound.unturn

/-- The block that the sixteen input words stand for: twelve rounds, then the input added. -/
def scramble (x : Block) : Block :=
  (x.doubleRound.doubleRound.doubleRound.doubleRound.doubleRound.doubleRound).add x

def toList (x : Block) : List UInt32 := x.r0.toList ++ x.r1.toList ++ x.r2.toList ++ x.r3.toList

end Block

/-- The next state of the generator that stretches a seed. -/
def seedStep (state : UInt64) : UInt64 := state * 6364136223846793005 + 11634580027462260723

/-- The word that a state of that generator gives out. -/
def seedWord (state : UInt64) : UInt32 :=
  rotateRight (((state >>> 18) ^^^ state) >>> 27).toUInt32 (state >>> 59).toUInt32

/-- Four words of the key from the state before them, and the state after. -/
def keyRow (state : UInt64) : Row × UInt64 :=
  let s0 := seedStep state
  let s1 := seedStep s0
  let s2 := seedStep s1
  let s3 := seedStep s2
  (⟨seedWord s0, seedWord s1, seedWord s2, seedWord s3⟩, s3)

/-- The words that open every input block. -/
def constantRow : Row := ⟨0x61707865, 0x3320646e, 0x79622d32, 0x6b206574⟩

/-- The block of the stream with this number. -/
def streamBlock (seed number : UInt64) : Block :=
  let (k0, state) := keyRow seed
  let (k1, _) := keyRow state
  Block.scramble ⟨constantRow, k0, k1, ⟨number.toUInt32, (number >>> 32).toUInt32, 0, 0⟩⟩

/-- The word at a position of the stream. Block numbers are 64-bit words, so the stream repeats
after `streamPeriod` positions. -/
def streamWord (seed : UInt64) (position : Nat) : UInt32 :=
  (streamBlock seed (UInt64.ofNat (position / 16))).toList.getD (position % 16) 0

def streamPeriod : Nat := 16 * UInt64.size

theorem streamWord_add_period (seed : UInt64) (position : Nat) :
    streamWord seed (position + streamPeriod) = streamWord seed position := by
  have hd : (position + streamPeriod) / 16 = position / 16 + UInt64.size := by
    unfold streamPeriod; omega
  have hm : (position + streamPeriod) % 16 = position % 16 := by
    unfold streamPeriod; omega
  have hw : UInt64.ofNat (position / 16 + UInt64.size) = UInt64.ofNat (position / 16) := by
    apply UInt64.toNat_inj.1
    simp
  unfold streamWord
  rw [hd, hm, hw]

end Roshambo.Random
