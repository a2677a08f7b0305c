import Testjig.Machine.Crc
import Testjig.Sequence.Protocol

namespace Testjig.Crc

open Machine.Crc Testjig.Sequence

def crc16tab : List (BitVec 16) :=
  [0x0000, 0x1021, 0x2042, 0x3063, 0x4084, 0x50a5, 0x60c6, 0x70e7,
    0x8108, 0x9129, 0xa14a, 0xb16b, 0xc18c, 0xd1ad, 0xe1ce, 0xf1ef,
    0x1231, 0x0210, 0x3273, 0x2252, 0x52b5, 0x4294, 0x72f7, 0x62d6,
    0x9339, 0x8318, 0xb37b, 0xa35a, 0xd3bd, 0xc39c, 0xf3ff, 0xe3de,
    0x2462, 0x3443, 0x0420, 0x1401, 0x64e6, 0x74c7, 0x44a4, 0x5485,
    0xa56a, 0xb54b, 0x8528, 0x9509, 0xe5ee, 0xf5cf, 0xc5ac, 0xd58d,
    0x3653, 0x2672, 0x1611, 0x0630, 0x76d7, 0x66f6, 0x5695, 0x46b4,
    0xb75b, 0xa77a, 0x9719, 0x8738, 0xf7df, 0xe7fe, 0xd79d, 0xc7bc,
    0x48c4, 0x58e5, 0x6886, 0x78a7, 0x0840, 0x1861, 0x2802, 0x3823,
    0xc9cc, 0xd9ed, 0xe98e, 0xf9af, 0x8948, 0x9969, 0xa90a, 0xb92b,
    0x5af5, 0x4ad4, 0x7ab7, 0x6a96, 0x1a71, 0x0a50, 0x3a33, 0x2a12,
    0xdbfd, 0xcbdc, 0xfbbf, 0xeb9e, 0x9b79, 0x8b58, 0xbb3b, 0xab1a,
    0x6ca6, 0x7c87, 0x4ce4, 0x5cc5, 0x2c22, 0x3c03, 0x0c60, 0x1c41,
    0xedae, 0xfd8f, 0xcdec, 0xddcd, 0xad2a, 0xbd0b, 0x8d68, 0x9d49,
    0x7e97, 0x6eb6, 0x5ed5, 0x4ef4, 0x3e13, 0x2e32, 0x1e51, 0x0e70,
    0xff9f, 0xefbe, 0xdfdd, 0xcffc, 0xbf1b, 0xaf3a, 0x9f59, 0x8f78,
    0x9188, 0x81a9, 0xb1ca, 0xa1eb, 0xd10c, 0xc12d, 0xf14e, 0xe16f,
    0x1080, 0x00a1, 0x30c2, 0x20e3, 0x5004, 0x4025, 0x7046, 0x6067,
    0x83b9, 0x9398, 0xa3fb, 0xb3da, 0xc33d, 0xd31c, 0xe37f, 0xf35e,
    0x02b1, 0x1290, 0x22f3, 0x32d2, 0x4235, 0x5214, 0x6277, 0x7256,
    0xb5ea, 0xa5cb, 0x95a8, 0x8589, 0xf56e, 0xe54f, 0xd52c, 0xc50d,
    0x34e2, 0x24c3, 0x14a0, 0x0481, 0x7466, 0x6447, 0x5424, 0x4405,
    0xa7db, 0xb7fa, 0x8799, 0x97b8, 0xe75f, 0xf77e, 0xc71d, 0xd73c,
    0x26d3, 0x36f2, 0x0691, 0x16b0, 0x6657, 0x7676, 0x4615, 0x5634,
    0xd94c, 0xc96d, 0xf90e, 0xe92f, 0x99c8, 0x89e9, 0xb98a, 0xa9ab,
    0x5844, 0x4865, 0x7806, 0x6827, 0x18c0, 0x08e1, 0x3882, 0x28a3,
    0xcb7d, 0xdb5c, 0xeb3f, 0xfb1e, 0x8bf9, 0x9bd8, 0xabbb, 0xbb9a,
    0x4a75, 0x5a54, 0x6a37, 0x7a16, 0x0af1, 0x1ad0, 0x2ab3, 0x3a92,
    0xfd2e, 0xed0f, 0xdd6c, 0xcd4d, 0xbdaa, 0xad8b, 0x9de8, 0x8dc9,
    0x7c26, 0x6c07, 0x5c64, 0x4c45, 0x3ca2, 0x2c83, 0x1ce0, 0x0cc1,
    0xef1f, 0xff3e, 0xcf5d, 0xdf7c, 0xaf9b, 0xbfba, 0x8fd9, 0x9ff8,
    0x6e17, 0x7e36, 0x4e55, 0x5e74, 0x2e93, 0x3eb2, 0x0ed1, 0x1ef0]

/-- `crc16_ccitt()` over the `len` bytes at `buf` -/
def crc16Ccitt : List Byte → BitVec 16 → BitVec 16
  | [], crc => crc
  | b :: buf, crc =>
    crc16Ccitt buf (crc16tab.getD ((crc >>> 8) ^^^ b.setWidth 16).toNat 0 ^^^ (crc <<< 8))

/-- x^16 + x^12 + x^5 + 1 -/
def ccitt : BitVec 16 := 0x1021

def messageBits (buf : List Byte) : List Bool := buf.flatMap bitsOf

def high (crc : BitVec 16) : Byte := (crc >>> 8).setWidth 8
def low (crc : BitVec 16) : Byte := crc.setWidth 8

theorem high_low (crc : BitVec 16) : crc = ((high crc).setWidth 16 <<< 8) ^^^ (low crc).setWidth 16 := by
  apply BitVec.eq_of_getLsbD_eq
  intro i bound
  by_cases upper : i < 8
  · simp [high, low, upper, bound]
  · have shifted : 8 + (i - 8) = i := by omega
    have inside : i - 8 < 8 := by omega
    simp [high, low, upper, shifted, bound, inside]

theorem index_high (crc : BitVec 16) (b : Byte) : ((crc >>> 8) ^^^ b.setWidth 16) = (high crc ^^^ b).setWidth 16 := by
  apply BitVec.eq_of_getLsbD_eq
  intro i bound
  by_cases upper : i < 8
  · simp [high, upper, bound]
  · simp [high, upper, BitVec.getLsbD_of_ge crc (8 + i) (by omega)]

/-- Every entry of the table is its index, fed through the register. -/
theorem crc16tab_entry (index : Byte) :
    crc16tab.getD (index.setWidth 16).toNat 0 = serial ccitt (index.setWidth 16 <<< 8) (bitsOf 0#8) := by
  decide +revert +kernel

theorem serial_low (byte : Byte) : serial ccitt (byte.setWidth 16) (bitsOf 0#8) = byte.setWidth 16 <<< 8 := by
  decide +revert +kernel

theorem serial_fed (byte : Byte) : serial ccitt 0#16 (bitsOf byte) = serial ccitt (byte.setWidth 16 <<< 8) (bitsOf 0#8) := by
  decide +revert +kernel

theorem table_byte (crc : BitVec 16) (b : Byte) :
    crc16tab.getD ((crc >>> 8) ^^^ b.setWidth 16).toNat 0 ^^^ (crc <<< 8) = serial ccitt crc (bitsOf b) := by
  let top : BitVec 16 := (high crc).setWidth 16 <<< 8
  have shifted : crc <<< 8 = (low crc).setWidth 16 <<< 8 := by
    apply BitVec.eq_of_getLsbD_eq
    intro i bound
    by_cases lower : i < 8
    · simp [lower]
    · have inside : i - 8 < 8 := by omega
      have wide : i - 8 < 16 := by omega
      simp [low, lower, inside, wide]
  have entry : (high crc ^^^ b).setWidth 16 <<< 8 = top ^^^ (b.setWidth 16 <<< 8) := by
    rw [BitVec.setWidth_xor, BitVec.shiftLeft_xor_distrib]
  have fed : serial ccitt crc (bitsOf b) = serial ccitt crc (bitsOf 0#8) ^^^ serial ccitt 0#16 (bitsOf b) := by
    have whole := serial_byte_xor ccitt crc 0#16 0#8 b
    rwa [BitVec.xor_zero, BitVec.zero_xor] at whole
  have split : serial ccitt crc (bitsOf 0#8) =
      serial ccitt top (bitsOf 0#8) ^^^ serial ccitt ((low crc).setWidth 16) (bitsOf 0#8) := by
    rw [← serial_byte_xor, BitVec.xor_self, ← high_low]
  have joined : serial ccitt (top ^^^ (b.setWidth 16 <<< 8)) (bitsOf 0#8) =
      serial ccitt top (bitsOf 0#8) ^^^ serial ccitt (b.setWidth 16 <<< 8) (bitsOf 0#8) := by
    rw [← serial_byte_xor, BitVec.xor_self]
  rw [index_high, crc16tab_entry, entry, joined, shifted, fed, split, serial_fed, serial_low]
  ac_rfl

theorem crc16Ccitt_append (first second : List Byte) (crc : BitVec 16) :
    crc16Ccitt (first ++ second) crc = crc16Ccitt second (crc16Ccitt first crc) := by
  induction first generalizing crc with
  | nil => rfl
  | cons b rest ih => exact ih _

theorem crc16Ccitt_serial (buf : List Byte) (crc : BitVec 16) :
    crc16Ccitt buf crc = serial ccitt crc (messageBits buf) := by
  induction buf generalizing crc with
  | nil => rfl
  | cons b rest ih =>
    rw [crc16Ccitt, table_byte, ih, messageBits, messageBits, List.flatMap_cons, serial, serial, serial,
      List.foldl_append]

/-- The bytes of a CRC, fed into the register that holds it, leave nothing. -/
theorem crc16Ccitt_own (crc : BitVec 16) : crc16Ccitt [high crc, low crc] crc = 0 := by
  have first : crc16tab.getD ((crc >>> 8) ^^^ (high crc).setWidth 16).toNat 0 = 0#16 := by
    rw [index_high, BitVec.xor_self]
    rfl
  have next : high (crc <<< 8) = low crc := by
    apply BitVec.eq_of_getLsbD_eq
    intro i bound
    have inside : 8 + i < 16 := by omega
    have above : ¬ 8 + i < 8 := by omega
    simp only [high, low, BitVec.getLsbD_setWidth, BitVec.getLsbD_ushiftRight, BitVec.getLsbD_shiftLeft, bound, inside,
      above, Nat.add_sub_cancel_left, decide_true, decide_false, Bool.true_and, Bool.not_false]
  have second : crc16tab.getD (((crc <<< 8) >>> 8) ^^^ (low crc).setWidth 16).toNat 0 = 0#16 := by
    rw [index_high, next, BitVec.xor_self]
    rfl
  have out : crc <<< 8 <<< 8 = 0#16 := by
    rw [← BitVec.shiftLeft_add]
    exact BitVec.shiftLeft_eq_zero (by decide)
  rw [crc16Ccitt, crc16Ccitt, crc16Ccitt, first, BitVec.zero_xor, second, BitVec.zero_xor, out]
  rfl

/-- The table computes the register of the polynomial, in any number of pieces, and a message with its CRC has
the CRC 0. -/
theorem crc16_ccitt_divides (buf : List Byte) (crc : BitVec 16) :
    crc16Ccitt buf crc = serial ccitt crc (messageBits buf) ∧
      (∀ more, crc16Ccitt (buf ++ more) crc = crc16Ccitt more (crc16Ccitt buf crc)) ∧
      crc16Ccitt (buf ++ [high (crc16Ccitt buf crc), low (crc16Ccitt buf crc)]) crc = 0 := by
  refine ⟨crc16Ccitt_serial buf crc, fun more => crc16Ccitt_append buf more crc, ?_⟩
  rw [crc16Ccitt_append]
  exact crc16Ccitt_own _

end Testjig.Crc
