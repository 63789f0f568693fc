import Mathlib.Logic.Basic

/-! # Reset actions -/

namespace Lucidac

/-- `entities::ResetAction`, a set of flags in one byte. -/
structure ResetAction where
  val : BitVec 8

namespace ResetAction

def circuitReset : BitVec 8 := 1 <<< 1

def calibrationReset : BitVec 8 := 1 <<< 2

def overloadReset : BitVec 8 := 1 <<< 3

def everything : BitVec 8 := 0xFF

def has (action : ResetAction) (other : BitVec 8) : Bool := other &&& action.val != 0

end ResetAction

end Lucidac
