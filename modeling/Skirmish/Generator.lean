/-!
# The random generator

A permuted congruential generator: 64 bits of state that step by an affine map, and 32 bits of
output, a shift and exclusive or of the state rotated by its top five bits. The state alone
decides every later draw, so a seed makes a battle repeatable.
-/

namespace Skirmish

/-- State of the generator. -/
structure Generator where
  state : UInt64
  deriving Repr, DecidableEq

namespace Generator

/-- Factor of the affine step. -/
def multiplier : UInt64 := 6364136223846793005

/-- Summand of the affine step. -/
def increment : UInt64 := 1442695040888963407

/-- The state after `s`. -/
def step (s : UInt64) : UInt64 := s * multiplier + increment

/-- A generator whose first state is one step past the seed and the increment, so that small
seeds do not start close to each other. -/
def ofSeed (seed : UInt64) : Generator := ⟨step (seed + increment)⟩

instance : Inhabited Generator := ⟨ofSeed 0⟩

/-- Rotation of a word to the right. -/
def rotateRight (w n : UInt32) : UInt32 := (w >>> n) ||| (w <<< (32 - n))

/-- The word that a state shows. -/
def output (s : UInt64) : UInt32 :=
  rotateRight (((s >>> 18) ^^^ s) >>> 27).toUInt32 (s >>> 59).toUInt32

/-- Draws a word: the output of the current state, which then steps. -/
def next (g : Generator) : UInt32 × Generator := (output g.state, ⟨step g.state⟩)

/-- Draws a number below `upper`. Below zero there is nothing to draw: the answer is zero and the
state stays. -/
def below (upper : UInt32) (g : Generator) : UInt32 × Generator :=
  if upper = 0 then (0, g) else (g.next.1 % upper, g.next.2)

@[simp] theorem state_next (g : Generator) : g.next.2.state = step g.state := rfl

@[simp] theorem below_zero (g : Generator) : g.below 0 = (0, g) := rfl

theorem below_lt {upper : UInt32} (h : upper ≠ 0) (g : Generator) : (g.below upper).1 < upper := by
  simp only [below, h, if_false]
  exact UInt32.mod_lt _ (UInt32.pos_iff_ne_zero.2 h)

end Generator

end Skirmish
