import Mathlib.Algebra.Order.Ring.Int
import Testjig.Machine.Run

namespace Testjig.Time

abbrev TimeT := BitVec 32

def sysclkMhz : Nat := 72
def stkMhz : Nat := sysclkMhz / 8

def stkMask : BitVec 32 := 0xffffff

def stkUs (x : Nat) : Nat := x * stkMhz
def stkMs (x : Nat) : Nat := stkUs (x * 1000)
def sysclkUs (x : Nat) : Nat := x * sysclkMhz

def timeMhz : Nat := stkMhz
def timeUs (x : Nat) : Nat := stkUs x
def timeMs (x : Nat) : Nat := stkMs x

/-- `stk->val` at a true tick count: 24 bits counting down, reloaded from `STK_MASK`. -/
def stkNow (start : BitVec 24) (tick : Nat) : BitVec 32 :=
  (start - BitVec.ofNat 24 tick).setWidth 32

def timeDiff (x y : TimeT) : Int := (y - x).toInt

def timeSince (x now : TimeT) : Int := timeDiff x now

/-- `time_now()`, given the `time_stamp` and the counter value it reads. -/
def timeNow (timeStamp stk : BitVec 32) : TimeT :=
  let s := timeStamp
  let t := stk ||| (s &&& (0xff#32 <<< 24))
  let t := if s < t then t - (1#32 <<< 24) else t
  ~~~t

/-- `time_stamp_update()`: the new `time_stamp` and the deadline its timer is set to. -/
def timeStampUpdate (timeStamp stk : BitVec 32) : BitVec 32 × TimeT :=
  let now := timeNow timeStamp stk
  (~~~now, now + BitVec.ofNat 32 (timeMs 500))

/-- `time_init()`: the first `time_stamp` and the first deadline. -/
def timeInit (stk stkLater : BitVec 32) : BitVec 32 × TimeT :=
  (stk, timeNow stk stkLater + BitVec.ofNat 32 (timeMs 500))

end Testjig.Time
