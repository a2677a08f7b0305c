import Mathlib.Algebra.Order.Ring.Int
import Testjig.Machine.Run
import Testjig.Sequence.Protocol

namespace Testjig.Text

open Machine Testjig.Sequence

def chr (c : Char) : Byte := BitVec.ofNat 8 c.toNat

/-- The characters of a C string, out of what its memory holds -/
def cString (text : List Byte) : List Byte := text.takeWhile (· ≠ 0)

def base : BitVec 32 := 31
def upper : BitVec 32 := 1 <<< 8
def sign : BitVec 32 := 1 <<< 9
def alternate : BitVec 32 := 1 <<< 10
def zeropad : BitVec 32 := 1 <<< 11
def charFlag : BitVec 32 := 1 <<< 12
def short : BitVec 32 := 1 <<< 13

/-- `sizeof(tmp)` -/
def tmpSize : Nat := 12

/-- What `va_arg` yields: an `int`, or a `char *` to the given bytes. -/
inductive Arg where
  | int (value : BitVec 32)
  | str (text : List Byte)
deriving DecidableEq, Repr

/-- A format that ends within a conversion, an argument of the wrong kind or missing, a width that is no `int`, where the
language leaves open what happens, and an index past the end of `tmp` -/
inductive FormatFault where
  | cutOff
  | mismatch
  | overflow
  | scratch
deriving DecidableEq, Repr

/-- Where the scanner is: outside a conversion, at `more`, in the digits of a width, or behind an `h` -/
inductive Mode where
  | plain
  | more (flags : BitVec 32) (width : Int)
  | width (flags : BitVec 32) (width : Int)
  | half (flags : BitVec 32) (width : Int)
deriving DecidableEq, Repr

structure Scan (σ : Type) where
  mode : Mode
  args : List Arg
  out : σ

structure Conversion (σ : Type) where
  flags : BitVec 32
  width : Int
  x : BitVec 32
  out : σ

section

-- `put` emits one character: into the buffer, or into a text without bounds.
variable {σ : Type} (put : σ → Byte → σ)

def putAll (text : List Byte) (out : σ) : σ := text.foldl put out

/-- The loop `while (width-- > least)` around one character -/
def pad (c : Byte) (width least : Int) (out : σ) : σ :=
  putAll put (List.replicate (width - least).toNat c) out

/-- The conversions to `char`, which has no sign on this processor, and to `short` -/
def reduce (flags x : BitVec 32) : BitVec 32 :=
  if flags &&& charFlag ≠ 0 then
    -- `(char)x` and `(unsigned char)x` are the same here.
    if flags &&& sign ≠ 0 then (x.setWidth 8).setWidth 32 else (x.setWidth 8).setWidth 32
  else if flags &&& short ≠ 0 then
    if flags &&& sign ≠ 0 then (x.setWidth 16).signExtend 32 else (x.setWidth 16).setWidth 32
  else x

def signStep (v : Conversion σ) : Conversion σ :=
  if v.flags &&& sign ≠ 0 ∧ v.x.toInt < 0 then
    -- In front of zeros the sign comes now, else after the padding.
    if v.flags &&& zeropad ≠ 0 then
      { flags := v.flags &&& ~~~sign, width := v.width - 1, x := -v.x, out := put v.out (chr '-') }
    else { v with width := v.width - 1, x := -v.x }
  else { v with flags := v.flags &&& ~~~sign }

def Conversion.emit (v : Conversion σ) (c : Byte) : Conversion σ :=
  { v with width := v.width - 1, out := put v.out c }

def prefixStep (v : Conversion σ) : Conversion σ :=
  if v.flags &&& alternate ≠ 0 then
    -- The value may be zero, and the padding is still to come.
    let zero := if v.flags &&& base = 8 ∨ v.flags &&& base = 16 then v.emit put (chr '0') else v
    if v.flags &&& base = 16 then zero.emit put (chr 'x') else zero
  else v

def digitChar (isUpper : Bool) (digit : Nat) : Byte :=
  ((if isUpper then "0123456789ABCDEF" else "0123456789abcdef").toList.map chr).getD digit 0

/-- The loop that fills `tmp`, with room for so many characters more -/
def digitLoop (isUpper : Bool) (radix : BitVec 32) : Nat → BitVec 32 → Option (List Byte)
  | 0, x => if x = 0 then some [] else none
  | room + 1, x =>
    if x = 0 then some []
    else
      match digitLoop isUpper radix room (x / radix) with
      | none => none
      | some rest => some (digitChar isUpper (x % radix).toNat :: rest)

def tmpText (flags x : BitVec 32) : Option (List Byte) :=
  if x = 0 then some [chr '0'] else digitLoop (flags &&& upper ≠ 0) (flags &&& base) tmpSize x

def digitStep (v : Conversion σ) : Except FormatFault σ :=
  match tmpText v.flags v.x with
  | none => .error .scratch
  | some tmp =>
    let out := pad put (if v.flags &&& zeropad ≠ 0 then chr '0' else chr ' ') v.width tmp.length v.out
    let out := if v.flags &&& sign ≠ 0 then put out (chr '-') else out
    .ok (putAll put tmp.reverse out)

/-- What follows the `switch`: an integer, its flags complete -/
def number (flags : BitVec 32) (width : Int) (args : List Arg) (out : σ) : Except FormatFault (Scan σ) :=
  match args with
  | .int x :: args =>
    match digitStep put (prefixStep put (signStep put { flags, width, x := reduce flags x, out })) with
    | .ok out => .ok { mode := .plain, args, out }
    | .error fault => .error fault
  | _ => .error .mismatch

def more (flags : BitVec 32) (width : Int) (c : Byte) (args : List Arg) (out : σ) :
    Except FormatFault (Scan σ) :=
  if c = chr '*' then
    match args with
    | .int value :: args => .ok { mode := .more flags value.toInt, args, out }
    | _ => .error .mismatch
  else if c = chr '#' then .ok { mode := .more (flags ||| alternate) width, args, out }
  else if c = chr '0' then .ok { mode := .more (flags ||| zeropad) width, args, out }
  else if chr '1' ≤ c ∧ c ≤ chr '9' then .ok { mode := .width flags ((c.toNat : Int) - (chr '0').toNat), args, out }
  else if c = chr 'h' then .ok { mode := .half flags width, args, out }
  else if c = chr 'o' then number put (flags ||| 8) width args out
  else if c = chr 'd' ∨ c = chr 'i' then number put (flags ||| sign ||| 10) width args out
  else if c = chr 'u' then number put (flags ||| 10) width args out
  else if c = chr 'X' then number put (flags ||| upper ||| 16) width args out
  else if c = chr 'x' ∨ c = chr 'p' then number put (flags ||| 16) width args out
  else if c = chr 's' then
    match args with
    | .str text :: args =>
      let text := cString text
      .ok { mode := .plain, args, out := pad put (chr ' ') (width - text.length) 0 (putAll put text out) }
    | _ => .error .mismatch
  else if c = chr 'c' then
    match args with
    | .int value :: args => .ok { mode := .plain, args, out := put out (value.setWidth 8) }
    | _ => .error .mismatch
  else .ok { mode := .plain, args, out := put out c }

def consume (c : Byte) (s : Scan σ) : Except FormatFault (Scan σ) :=
  match s.mode with
  | .plain =>
    if c ≠ chr '%' then .ok { s with out := put s.out c } else .ok { s with mode := .more 0 0 }
  | .more flags width => more put flags width c s.args s.out
  | .width flags width =>
    if chr '0' ≤ c ∧ c ≤ chr '9' then
      -- `width * 10 + c` alone may be no int: on the target it wraps, and taking '0' away wraps it back.
      let width := width * 10 + c.toNat - (chr '0').toNat
      if width < 2^31 then .ok { s with mode := .width flags width } else .error .overflow
    else more put flags width c s.args s.out
  | .half flags width =>
    if c = chr 'h' then .ok { s with mode := .more (flags ||| charFlag) width }
    -- The source only looks at the character behind an `h`, so it is read again at `more`.
    else more put (flags ||| short) width c s.args s.out

/-- The loop of `vsnprintf()` over the format -/
def formatLoop (format : List Byte) (args : List Arg) (out : σ) : Except FormatFault σ :=
  match exec (consume put) (cString format) { mode := .plain, args, out } with
  | .ok { mode := .plain, out, .. } => .ok out
  | .ok _ => .error .cutOff
  | .error fault => .error fault

end

def snoc (text : List Byte) (c : Byte) : List Byte := text ++ [c]

/-- The text that an unlimited buffer would get -/
def fullText (format : List Byte) (args : List Arg) : Except FormatFault (List Byte) :=
  formatLoop snoc format args []

/-- Memory, the write pointer, and a record of the addresses that were written -/
structure Buffer where
  memory : BitVec 32 → Byte
  p : BitVec 32
  stores : List (BitVec 32)

namespace Buffer

def store (b : Buffer) (address : BitVec 32) (c : Byte) : Buffer :=
  { b with memory := fun a => if a = address then c else b.memory a, stores := address :: b.stores }

def doPutch (last : BitVec 32) (b : Buffer) (c : Byte) : Buffer :=
  let b := if b.p < last then b.store b.p c else b
  { b with p := b.p + 1 }

/-- The two ways in which `vsnprintf()` ends the string -/
def terminate (str last : BitVec 32) (b : Buffer) : Buffer :=
  if b.p ≤ last then b.store b.p 0 else if str ≤ last then b.store last 0 else b

end Buffer

def vsnprintf (memory : BitVec 32 → Byte) (str size : BitVec 32) (format : List Byte) (args : List Arg) :
    Except FormatFault (Buffer × Int) :=
  let last := str + size - 1
  match formatLoop (Buffer.doPutch last) format args { memory, p := str, stores := [] } with
  | .ok b => .ok (b.terminate str last, (b.p - str).toInt)
  | .error fault => .error fault

def snprintf (memory : BitVec 32 → Byte) (str size : BitVec 32) (format : List Byte) (args : List Arg) :
    Except FormatFault (Buffer × Int) :=
  vsnprintf memory str size format args

end Testjig.Text
