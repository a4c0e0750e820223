import Mathlib.Algebra.Order.Floor.Semiring
import Mathlib.Algebra.Order.Field.Basic
import Mathlib.Data.Rat.Floor

/-!
# The bandwidth of a stream

Times are rational numbers of seconds, bandwidths natural numbers of bits per second.
-/

namespace TsnReconfig.Avb

inductive SRClass
  | A
  | B
  deriving DecidableEq, Repr

/-- The observation windows of the classes. These are their defaults. -/
structure ObservationWindows where
  classA : ℚ := 125 / 1000000
  classB : ℚ := 250 / 1000000

def ObservationWindows.getIntervalForClass (w : ObservationWindows) : SRClass → ℚ
  | .A => w.classA
  | .B => w.classB

def preambleBytes : ℕ := 7
def sfdBytes : ℕ := 1
def interframeGapBits : ℕ := 96
def srpSafetyByte : ℕ := 1

def bandwidthFromSizeAndInterval (framesize intervalFrames : ℕ) (interval : ℚ) : ℕ :=
  ⌈1 / interval * intervalFrames *
    (((framesize + preambleBytes + sfdBytes) * 8 + interframeGapBits : ℕ) : ℚ)⌉₊

end TsnReconfig.Avb
