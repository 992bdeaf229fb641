import ExprLang.Number.Basic

/-!
# Numbers as integers

Ranges and indices are integers of 64 bits.  A number becomes one in two ways.  `truncated` never
fails: it drops the fraction and clamps what is left to the 64-bit range, and NaN becomes 0; bounds of
ranges and indices are read this way.  `integer?` insists: the number must be an integer of the range
already; arrays become ranges this way.
-/

namespace ExprLang

/-- The least 64-bit integer. -/
def leastWord : Int := -0x8000000000000000

/-- The greatest 64-bit integer. -/
def greatestWord : Int := 0x7fffffffffffffff

/-- The 64-bit integer closest to `n`. -/
def clampWord (n : Int) : Int := max leastWord (min n greatestWord)

theorem clampWord_mem (n : Int) : leastWord ≤ clampWord n ∧ clampWord n ≤ greatestWord := by
  unfold clampWord leastWord greatestWord
  omega

/-- Clamping moves only what lies outside the range. -/
theorem clampWord_of_mem {n : Int} (h : leastWord ≤ n) (h' : n ≤ greatestWord) : clampWord n = n := by
  unfold clampWord
  omega

namespace Number
open Magnitude (one)

/-- The integer part toward zero, as a 64-bit integer: too large ones are clamped, NaN is 0. -/
def truncated : Number → Int
  | .nan => 0
  | .infinite s => if s then leastWord else greatestWord
  | .finite s m => clampWord (signed s (m.units / one))

theorem truncated_mem (x : Number) : leastWord ≤ x.truncated ∧ x.truncated ≤ greatestWord := by
  cases x with
  | nan => decide
  | infinite s => cases s <;> decide
  | finite s m => exact clampWord_mem _

/-- The 64-bit integer that the number is, if it is one. -/
def integer? : Number → Option Int
  | .finite s m =>
    let n := signed s (m.units / one)
    if m.units % one = 0 ∧ leastWord ≤ n ∧ n ≤ greatestWord then some n else none
  | _ => none

end Number
end ExprLang
