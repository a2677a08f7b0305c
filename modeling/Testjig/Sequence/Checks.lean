import Testjig.Sequence.Loop

namespace Testjig.Sequence

open Testjig.Board

/-- Among the 18 lines the asserted one, if any, reads low and all others high. -/
def OnlyAsserted (asserted : Option Nat) (rspbuf : Buffer) (mask : BitVec 64) : Prop :=
  (∀ pin ∈ outp, pinLevel rspbuf pin = false ↔ some pin = asserted) ∧
    (∀ pin ∈ inp, mask.getLsbD pin = false ↔ some pin = asserted)

def AllLow (rspbuf : Buffer) (mask : BitVec 64) : Prop :=
  (∀ pin ∈ outp, pinLevel rspbuf pin = false) ∧ (∀ pin ∈ inp, mask.getLsbD pin = false)

/-- Option bytes as they leave the factory, for the models whose bytes are known. -/
def OptionsAccepted (hwModel : Byte) (opt : Buffer) : Prop :=
  (hwModel = 1 ∨ hwModel = 4 → opt 0 = 0xa5 ∧ opt 1 = 0x5a ∧ ∀ i < 16, 2 ≤ i → i % 2 = 0 → opt i = 0xff) ∧
    (hwModel = 7 → opt 0 = 0xff ∧ opt 1 = 0xaa)

def Oscillates (dmabuf : Nat → BitVec 16) : Prop :=
  ∀ i < 31, 140 ≤ dmabuf (i + 1) - dmabuf i ∧ dmabuf (i + 1) - dmabuf i ≤ 148

def CcAccepted (adc : Nat → BitVec 12) : Prop :=
  ∃ channel < 2, 0x7d8 ≤ adc channel ∧ adc channel ≤ 0x828

theorem findBad_none (trsp : Buffer) (mask : BitVec 64) (wrong : Nat → Bool → Bool) :
    Main.findBad trsp mask wrong = none ↔
      (∀ pin ∈ outp, wrong pin (pinLevel trsp pin) = false) ∧
        (∀ pin ∈ inp, wrong pin (mask.getLsbD pin) = false) := by
  unfold Main.findBad
  cases found : outp.find? fun pin => wrong pin (pinLevel trsp pin) with
  | none =>
    rw [List.find?_eq_none] at found
    simp only [List.find?_eq_none, Bool.not_eq_true] at found ⊢
    exact ⟨fun low => ⟨found, low⟩, fun low => low.2⟩
  | some pin =>
    have bad := List.find?_some found
    have member := List.mem_of_find?_eq_some found
    simp only [reduceCtorEq, false_iff, not_and]
    intro good
    simp [good pin member] at bad

theorem misread_false (asserted : Option Nat) (pin : Nat) (level : Bool) :
    Main.misread asserted pin level = false ↔ (level = false ↔ some pin = asserted) := by
  unfold Main.misread
  by_cases same : some pin = asserted <;> cases level <;> simp [same]

theorem loadTrsp_level (m : Main) {pin : Nat} (line : pin ∈ outp) :
    pinLevel m.loadTrsp.trsp pin = pinLevel m.rspbuf pin := by
  have small : ∀ line ∈ outp, line / 8 < 32 := by decide
  simp [pinLevel, Main.loadTrsp, memcpy, sizeofRsp, small pin line]

theorem loadTrsp_byte (m : Main) {i : Nat} (bound : i < 32) : m.loadTrsp.trsp i = m.rspbuf i := by
  simp [Main.loadTrsp, memcpy, sizeofRsp, bound]

theorem checkPins_ok (m next : Main) (idr : Gpio) (asserted : Option Nat) :
    m.checkPins idr asserted = .ok next ↔
      OnlyAsserted asserted m.rspbuf (readPinmask idr) ∧
        next = m.loadTrsp.record (.checked asserted (readPinmask idr)) := by
  have judged : Main.findBad m.loadTrsp.trsp (readPinmask idr) (Main.misread asserted) = none ↔
      OnlyAsserted asserted m.rspbuf (readPinmask idr) := by
    rw [findBad_none, OnlyAsserted]
    simp only [misread_false]
    constructor
    · rintro ⟨out, low⟩
      exact ⟨fun pin line => by rw [← loadTrsp_level m line]; exact out pin line, low⟩
    · rintro ⟨out, low⟩
      exact ⟨fun pin line => by rw [loadTrsp_level m line]; exact out pin line, low⟩
  rw [← judged, Main.checkPins]
  cases found : Main.findBad m.loadTrsp.trsp (readPinmask idr) (Main.misread asserted) with
  | none => simp [eq_comm]
  | some pin => simp

theorem checkPins_error {m : Main} {idr : Gpio} {asserted : Option Nat}
    (wrong : ¬ OnlyAsserted asserted m.rspbuf (readPinmask idr)) :
    ∃ pin, m.checkPins idr asserted = .error (.pinError pin) := by
  cases checked : m.checkPins idr asserted with
  | ok next => exact absurd ((checkPins_ok m next idr asserted).mp checked).1 wrong
  | error halt =>
    simp only [Main.checkPins] at checked
    split at checked
    · rename_i pin _
      cases checked
      exact ⟨pin, rfl⟩
    · cases checked

theorem checkPinsLow_ok (m next : Main) (idr : Gpio) :
    m.checkPinsLow idr = .ok next ↔
      AllLow m.rspbuf (readPinmask idr) ∧ next = m.loadTrsp.record (.checkedLow (readPinmask idr)) := by
  have judged : Main.findBad m.loadTrsp.trsp (readPinmask idr) (fun _ level => level) = none ↔
      AllLow m.rspbuf (readPinmask idr) := by
    rw [findBad_none, AllLow]
    constructor
    · rintro ⟨out, low⟩
      exact ⟨fun pin line => by rw [← loadTrsp_level m line]; exact out pin line, low⟩
    · rintro ⟨out, low⟩
      exact ⟨fun pin line => by rw [loadTrsp_level m line]; exact out pin line, low⟩
  rw [← judged, Main.checkPinsLow]
  cases found : Main.findBad m.loadTrsp.trsp (readPinmask idr) (fun _ level => level) with
  | none => simp [eq_comm]
  | some pin => simp

theorem checkPinsLow_error {m : Main} {idr : Gpio} (wrong : ¬ AllLow m.rspbuf (readPinmask idr)) :
    ∃ pin, m.checkPinsLow idr = .error (.pinError pin) := by
  cases checked : m.checkPinsLow idr with
  | ok next => exact absurd ((checkPinsLow_ok m next idr).mp checked).1 wrong
  | error halt =>
    simp only [Main.checkPinsLow] at checked
    split at checked
    · rename_i pin _
      cases checked
      exact ⟨pin, rfl⟩
    · cases checked

theorem checkInfo_ok {m next : Main} (accepted : m.checkInfo = .ok next) :
    cmdMax ≤ (GwInfo.load m.rspbuf 2).maxCmd ∧ (GwInfo.load m.rspbuf 2).isMainFirmware ≠ 0 ∧
      next = { m with gwInfo := .load m.rspbuf 2 }.record (.info (.load m.rspbuf 2)) := by
  simp only [Main.checkInfo] at accepted
  split at accepted
  · cases accepted
  · rename_i good
    rw [not_or, BitVec.not_lt] at good
    cases accepted
    exact ⟨good.1, good.2, rfl⟩

theorem badOptions_false {hwModel : Byte} {opt : Buffer} (good : Main.badOptions hwModel opt = false) :
    OptionsAccepted hwModel opt := by
  unfold Main.badOptions at good
  constructor
  · intro model
    rw [if_pos model] at good
    simp only [decide_eq_false_iff_not, not_or, Decidable.not_not] at good
    refine ⟨good.1, good.2.1, ?_⟩
    intro i bound from2 even
    have listed : i ∈ [2, 4, 6, 8, 10, 12, 14] := by
      simp only [List.mem_cons, List.not_mem_nil, or_false]
      omega
    have every : ∀ i ∈ [2, 4, 6, 8, 10, 12, 14], opt i = 0xff := by simpa using good.2.2
    exact every i listed
  · intro model
    have notFirst : ¬ (hwModel = 1 ∨ hwModel = 4) := by rw [model]; decide
    rw [if_neg notFirst, if_pos model] at good
    simpa [not_or] using good

theorem checkOptions_ok {m next : Main} (accepted : m.checkOptions = .ok next) :
    OptionsAccepted m.gwInfo.hwModel m.rspbuf ∧ next = m.loadTrsp.record (.options m.gwInfo.hwModel) := by
  simp only [Main.checkOptions] at accepted
  split at accepted
  · cases accepted
  · rename_i good
    have options := badOptions_false (Bool.not_eq_true _ ▸ good)
    cases accepted
    refine ⟨⟨fun model => ?_, fun model => ?_⟩, rfl⟩
    · obtain ⟨first, second, rest⟩ := options.1 model
      refine ⟨?_, ?_, ?_⟩
      · rw [← loadTrsp_byte m (by decide)]; exact first
      · rw [← loadTrsp_byte m (by decide)]; exact second
      · intro i bound from2 even
        rw [← loadTrsp_byte m (by omega)]
        exact rest i bound from2 even
    · obtain ⟨first, second⟩ := options.2 model
      rw [← loadTrsp_byte m (by decide), ← loadTrsp_byte m (by decide)]
      exact ⟨first, second⟩

theorem checkHeaders_ok {m next : Main} (accepted : m.checkHeaders = .ok next) :
    word m.rspbuf 0 = testHeaderSuccess ∧ next = m.loadTrsp.record .headers := by
  simp only [Main.checkHeaders] at accepted
  split at accepted
  · cases accepted
  · rename_i good
    rw [ne_eq, Decidable.not_not] at good
    cases accepted
    exact ⟨good, rfl⟩

theorem testWdatOsc_ok {m next : Main} {tcif : Bool} {dmabuf : Nat → BitVec 16}
    (accepted : m.testWdatOsc tcif dmabuf = .ok next) :
    Oscillates dmabuf ∧ next = m.record (.oscillation dmabuf) := by
  simp only [Main.testWdatOsc] at accepted
  split at accepted
  · cases accepted
  · split at accepted
    · cases accepted
    · rename_i good
      cases accepted
      refine ⟨?_, rfl⟩
      intro i bound
      rw [Main.badInterval, Bool.not_eq_true, List.any_eq_false] at good
      have interval := good i (by simp; omega)
      simpa [BitVec.not_lt] using interval

theorem checkCc_ok {m next : Main} {adc : Nat → BitVec 12} (accepted : m.checkCc adc = .ok next) :
    (m.gwInfo.hwModel = 4 ∧ m.gwInfo.hwSubmodel = 2 ∧ CcAccepted adc ∧ next = m.record (.ccVoltage adc)) ∨
      (¬ (m.gwInfo.hwModel = 4 ∧ m.gwInfo.hwSubmodel = 2) ∧ next = m) := by
  simp only [Main.checkCc] at accepted
  split at accepted
  · rename_i model
    split at accepted
    · rename_i good
      cases accepted
      refine .inl ⟨model.1, model.2, ?_, rfl⟩
      obtain ⟨channel, listed, range⟩ := List.any_eq_true.mp good
      refine ⟨channel, ?_, by simpa using range⟩
      have cases : channel = 0 ∨ channel = 1 := by simpa using listed
      omega
    · cases accepted
  · rename_i other
    cases accepted
    exact .inr ⟨other, rfl⟩

end Testjig.Sequence
