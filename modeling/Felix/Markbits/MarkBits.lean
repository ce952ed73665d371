import Felix.Ip.V4CIDR

/-!
# Mark bits

`markbits.MarkBitsManager` works on the bits of a 32-bit mark mask. `MapNumberToMark` spreads
the bits of a number over the bits of the mask, lowest first, and fails when bits of the number
are left over; `MapMarkToNumber` reads a mark inside the mask back into a number. Both are loops
over the 32 bit positions, with a counter of the mask bits met so far.

Go's `int` is modelled as `ℤ`, and `uint32(n)` of an `int` as `UInt32.ofInt`, which wraps modulo
`2 ^ 32` as the conversion does.

## Main definitions

* `MarkBitsManager`, `newMarkBitsManager`
* `mapNumberToMarkLoop`, `mapNumberToMark`
* `mapMarkToNumberLoop`, `mapMarkToNumber`
-/

namespace Felix.Markbits

open Ip (shiftLeft32)

/-- `markbits.MarkBitsManager`, without its name and mutex. -/
structure MarkBitsManager where
  mask : UInt32
  numBitsAllocated : ℤ
  numFreeBits : ℤ

/-- The loop of `NewMarkBitsManager` from `shift` on: the number of bits of the mask. -/
def countMaskBitsLoop (markMask : UInt32) (shift : ℕ) (numBitsFound : ℤ) : ℤ :=
  if h : shift < 32 then
    let bit := shiftLeft32 1 shift
    if markMask &&& bit > 0 then countMaskBitsLoop markMask (shift + 1) (numBitsFound + 1)
    else countMaskBitsLoop markMask (shift + 1) numBitsFound
  else numBitsFound
termination_by 32 - shift

/-- `NewMarkBitsManager`: nothing allocated, every bit of the mask free. -/
def newMarkBitsManager (markMask : UInt32) : MarkBitsManager where
  mask := markMask
  numBitsAllocated := 0
  numFreeBits := countMaskBitsLoop markMask 0 0

namespace MarkBitsManager

/-- The loop of `MapNumberToMark` from `shift` on, with what is left of the number, the mark so
far and the mask bits met so far; it gives the number left and the mark. -/
def mapNumberToMarkLoop (mask : UInt32) (shift : ℕ) (number mark numBitsFound : UInt32) :
    UInt32 × UInt32 :=
  if h : shift < 32 ∧ number > 0 then
    let candidate := shiftLeft32 1 shift
    if mask &&& candidate > 0 then
      let value := number &&& shiftLeft32 1 numBitsFound.toNat
      if value > 0 then
        mapNumberToMarkLoop mask (shift + 1) (number - value) (mark ||| candidate)
          (numBitsFound + 1)
      else mapNumberToMarkLoop mask (shift + 1) number mark (numBitsFound + 1)
    else mapNumberToMarkLoop mask (shift + 1) number mark numBitsFound
  else (number, mark)
termination_by 32 - shift
decreasing_by all_goals omega

/-- `MapNumberToMark`: the mark for a position number. -/
def mapNumberToMark (mc : MarkBitsManager) (n : ℤ) : Except String UInt32 :=
  let (number, mark) := mapNumberToMarkLoop mc.mask 0 (UInt32.ofInt n) 0 0
  if number > 0 then .error "Not enough mark bits available" else .ok mark

/-- The loop of `MapMarkToNumber` from `shift` on, with the number so far and the mask bits met
so far. -/
def mapMarkToNumberLoop (mask mark : UInt32) (shift : ℕ) (number : ℤ) (numBitsFound : UInt32) :
    ℤ :=
  if h : shift < 32 then
    let bit := shiftLeft32 1 shift
    if mask &&& bit > 0 then
      if bit &&& mark > 0 then
        mapMarkToNumberLoop mask mark (shift + 1)
          (number + ((shiftLeft32 1 numBitsFound.toNat).toNat : ℤ)) (numBitsFound + 1)
      else mapMarkToNumberLoop mask mark (shift + 1) number (numBitsFound + 1)
    else mapMarkToNumberLoop mask mark (shift + 1) number numBitsFound
  else number
termination_by 32 - shift

/-- `MapMarkToNumber`: the position number of a mark inside the mask. -/
def mapMarkToNumber (mc : MarkBitsManager) (mark : UInt32) : Except String ℤ :=
  if mark &&& mc.mask ≠ mark then .error "Mark bit not compatible"
  else .ok (mapMarkToNumberLoop mc.mask mark 0 0 0)

end MarkBitsManager

end Felix.Markbits
