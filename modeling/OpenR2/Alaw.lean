import Mathlib.Data.Int.Notation
import Mathlib.Data.Nat.Notation

namespace OpenR2

/-- `OR2_ALAW_AMI_MASK`. -/
def alawAmiMask : UInt8 := 0x55

/-- `openr2_top_bit`, as the processor has it. -/
def topBit (bits : Nat) : Int := if bits = 0 then -1 else bits.log2

/-- `openr2_alaw_to_linear`. -/
def alawToLinear (alaw : UInt8) : Int :=
  let alaw := alaw ^^^ alawAmiMask
  let i := (alaw &&& 0x0F).toNat <<< 4
  let seg := (alaw &&& 0x70).toNat >>> 4
  let i := if seg ≠ 0 then (i + 0x108) <<< (seg - 1) else i + 8
  if alaw &&& 0x80 ≠ 0 then i else -i

/-- `openr2_linear_to_alaw`. -/
def linearToAlaw (linear : Int) : UInt8 :=
  let mask := if linear ≥ 0 then alawAmiMask ||| 0x80 else alawAmiMask
  let linear := if linear ≥ 0 then linear else -linear - 1
  let seg := topBit (linear.toNat ||| 0xFF) - 7
  if seg ≥ 8 then
    if linear ≥ 0 then 0x7F ^^^ mask else 0x00 ^^^ mask
  else
    let shift := if seg ≠ 0 then seg.toNat + 3 else 4
    UInt8.ofNat ((seg.toNat <<< 4) ||| ((linear.toNat >>> shift) &&& 0x0F)) ^^^ mask

end OpenR2
