import Testjig.Display.Segments
import Testjig.Sequence.Transitions
import Testjig.System.Connection

namespace Testjig.System

open Machine Testjig.Sequence Testjig.Usb Testjig.Board Testjig.Text Testjig.Display

/-- The stack at a call: what it holds, and where an array of four characters lies in it -/
structure StackArray where
  memory : BitVec 32 → Byte
  array : BitVec 32
  inside : array.toNat + 4 ≤ 2^32

/-- What one step meets. `noise` is what the shift registers are left with when a display is looked for. -/
structure Happening where
  input : Input
  stack : StackArray
  latches : Gpio
  noise : Shift.Bus 16

/-- The loop of main(), or that of `_error(s)`, whose `turns` count what it has written; `halt` is why it was called. -/
inductive Phase where
  | running (sys : Sys)
  | failed (halt : Halt) (s : Nat → Byte) (state turns : Nat) (usb : Usbh)

/-- `begun` is the test that was begun last since main() was entered. -/
structure Jig where
  phase : Phase
  led : Led7seg
  begun : Option Nat

/-- A failed conversion, or an end of the model -/
inductive Fault where
  | format (fault : FormatFault)
  | halt (halt : Halt)

/-- main() from its entry to its loop, as far as it shows -/
def boot (x : Happening) (led : Led7seg) : Jig where
  phase := .running (powerOn x.latches)
  led := led7segWriteString (quoted "USB") (led7segInit { led with curval := 0, shiftreg := x.noise })
  begun := none

/-- Whether an iteration comes to `state++` -/
def begins (input : Input) (s : Sys) : Bool :=
  match input.process s.usb with
  | .error _ => false
  | .ok usb =>
    match (view s.main usb).newIteration.usbhCdcProcess usb.actions with
    | .error _ => false
    | .ok m => usb.connected && m.cmdrsp.state = .idle

/-- `state` at the end of an iteration that does not return -/
def stateAt (input : Input) (s : Sys) : Nat := if begins input s then s.main.state + 1 else s.main.state

def begunAt (input : Input) (s : Sys) (begun : Option Nat) : Option Nat :=
  if begins input s then some (s.main.state + 1) else begun

/-- The USB stack behind `usbh_cdc_process()` -/
def usbAt (input : Input) (s : Sys) : Usbh :=
  match input.process s.usb with
  | .error _ => s.usb
  | .ok usb => usb

def writeState (x : Happening) (m : Main) (led : Led7seg) : Except FormatFault Led7seg :=
  if m.success then .ok led
  else led7segWriteDecimal x.stack.memory x.stack.array (BitVec.ofNat 32 (m.state + 1)) led

def written (x : Happening) (s : Sys) (led : Led7seg) : Except FormatFault Led7seg :=
  if begins x.input s then
    match writeState x s.main led with
    | .error fault => .error fault
    | .ok led => .ok (if s.main.state + 1 = 20 then led7segWriteString (quoted "---") led else led)
  else .ok led

/-- The `s` of `error()` and `pin_error()` -/
def errorString (stack : StackArray) (format : String) (nr : Nat) : Except FormatFault (Nat → Byte) :=
  match snprintf stack.memory stack.array 4 (format.toList.map chr) [.int (BitVec.ofNat 32 nr)] with
  | .error fault => .error fault
  | .ok (b, _) => .ok fun i => b.memory (stack.array + BitVec.ofNat 32 i)

def enterError (halt : Halt) (state : Nat) (usb : Usbh) (led : Led7seg) (begun : Option Nat) :
    Except FormatFault (Nat → Byte) → Except Fault Jig
  | .error fault => .error (.format fault)
  | .ok s => .ok ⟨.failed halt s state 0 usb, led, begun⟩

/-- What follows an iteration that does not return -/
def stop (x : Happening) (halt : Halt) (state : Nat) (usb : Usbh) (led : Led7seg) (begun : Option Nat) :
    Except Fault Jig :=
  match halt with
  | .systemReset => .ok (boot x led)
  | .error nr => enterError halt state usb led begun (errorString x.stack "E%02u" nr)
  | .pinError pin => enterError halt state usb led begun (errorString x.stack "P%02u" pin)
  | .text s => enterError halt state usb led begun (.ok (quoted s))
  | _ => .error (.halt halt)

/-- An iteration of the loop of main(), or half of one of `_error()`, with what it shows -/
def turn (x : Happening) (jig : Jig) : Except Fault Jig :=
  match jig.phase with
  | .running s =>
    match written x s jig.led with
    | .error fault => .error (.format fault)
    | .ok led =>
      match iterate x.input s with
      | .ok next => .ok ⟨.running next, led, begunAt x.input s jig.begun⟩
      | .error halt => stop x halt (stateAt x.input s) (usbAt x.input s) led (begunAt x.input s jig.begun)
  | .failed halt s state turns usb =>
    let usb := usb.irq x.input.env .exit
    if ¬ usb.connected then .ok (boot x jig.led)
    else if turns % 2 = 0 then .ok ⟨.failed halt s state (turns + 1) usb, led7segWriteString s jig.led, jig.begun⟩
    else
      match led7segWriteDecimal x.stack.memory x.stack.array (BitVec.ofNat 32 state) jig.led with
      | .error fault => .error (.format fault)
      | .ok led => .ok ⟨.failed halt s state (turns + 1) usb, led, jig.begun⟩

def message : Halt → List Byte
  | .error nr => chr 'E' :: (decimals 2 nr).map (digitChar false)
  | .pinError pin => chr 'P' :: (decimals 2 pin).map (digitChar false)
  | .text s => s.toList.map chr
  | _ => []

/-- `state` while a command of test `n` is under way: 22 has set it back for the LED to be lit again. -/
def Tells (n state : Nat) : Prop := state = n ∨ n = 22 ∧ state = 20

/-- The errors that main.c reports -/
def errors : List Halt :=
  [errTxTimeout, errRxTimeout, errBadResponse].map Halt.error ++ (outp ++ inp).map Halt.pinError ++
    ["OPT", "OSC", "HDR", "CCN"].map Halt.text

def tens : Halt → Option Nat
  | .pinError pin => some (pin / 10)
  | _ => none

/-- An error of main.c is one of its list; the other halts show nothing. -/
def Known (halt : Halt) : Prop :=
  match halt with
  | .error _ | .pinError _ | .text _ => halt ∈ errors
  | _ => True

/-- What the running jig is to show -/
def Face (count : Nat) (success : Bool) (begun : Option Nat) (shown : List Byte) : Prop :=
  if success then shown = glyphs count ("---".toList.map chr)
  else match begun with
    | none => shown = glyphs count ("USB".toList.map chr)
    | some n => n ≤ 22 ∧ shown = numberGlyphs count n

def Jig.Shows (count : Nat) (shown : List Byte) (jig : Jig) : Prop :=
  match jig.phase with
  | .running s => Face count s.main.success jig.begun shown
  | .failed halt _ state turns _ => halt ∈ errors ∧ (∃ n ≤ 22, jig.begun = some n ∧ Tells n state) ∧
    (turns ≠ 0 → shown = if turns % 2 = 1 then glyphs count (message halt) else numberGlyphs count state)

section

variable {m next : Main} {poll : Poll}

theorem quoted_reads (s : String) (nonzero : ∀ c ∈ s.toList.map chr, c ≠ 0) : Reads (quoted s) (s.toList.map chr) :=
  ⟨nonzero, fun _ _ => rfl⟩

/-- "E%02u" and "P%02u" print a letter and two digits. -/
theorem errorString_reads (stack : StackArray) (format : String) (letter : Byte)
    (spelled : format.toList.map chr = letter :: (zeroPadded 2 (by decide) (by decide)).text)
    (ordinary : letter ≠ chr '%') (some : letter ≠ 0) {nr : Nat} (small : nr < 100) :
    ∃ s, errorString stack format nr = .ok s ∧ Reads s (letter :: (decimals 2 nr).map (digitChar false)) := by
  have value : (BitVec.ofNat 32 nr).toNat = nr := by
    rw [BitVec.toNat_ofNat]
    omega
  have digits := (zeroPadded 2 (by decide) (by decide)).prints (BitVec.ofNat 32 nr) rfl
  rw [zeroPadded_standard (by decide) (by decide) (by rw [value]; exact small), value] at digits
  have prints : Prints (letter :: (zeroPadded 2 (by decide) (by decide)).text) [.int (BitVec.ofNat 32 nr)]
    (letter :: (decimals 2 nr).map (digitChar false)) := (Piece.literal letter ordinary some).prints.append digits
  have room : (letter :: (decimals 2 nr).map (digitChar false)).length < (4 : BitVec 32).toNat := by
    rw [List.length_cons, List.length_map, decimals_length]
    decide
  obtain ⟨b, returned, printed, reads⟩ := snprintf_reads stack.memory prints
    (List.forall_mem_cons.mpr ⟨some, Directive.text_nonzero _⟩)
    (List.forall_mem_cons.mpr ⟨some, digitChars_nonzero 2 nr⟩) stack.inside room
  refine ⟨_, ?_, reads⟩
  rw [errorString, spelled, printed]

theorem pinError_known {pin : Nat} (listed : pin ∈ outp ++ inp) : Known (.pinError pin) := by
  revert pin
  simp only [Known]
  decide

theorem findBad_known {trsp : Sequence.Buffer} {mask : BitVec 64} {wrong : Nat → Bool → Bool} {pin : Nat}
    (found : Main.findBad trsp mask wrong = some pin) : Known (.pinError pin) := by
  apply pinError_known
  unfold Main.findBad at found
  split at found
  · rename_i out first
    cases found
    exact List.mem_append_left _ (List.mem_of_find?_eq_some first)
  · exact List.mem_append_right _ (List.mem_of_find?_eq_some found)

variable {halt : Halt}

theorem checkPins_known {idr : Gpio} {asserted : Option Nat} (stopped : m.checkPins idr asserted = .error halt) :
    Known halt := by
  simp only [Main.checkPins] at stopped
  split at stopped
  · rename_i found
    cases stopped
    exact findBad_known found
  · cases stopped

theorem nextPin_known {pins : List Nat} {state : Nat} {assert : Main → Nat → Main}
    (stopped : m.nextPin pins state assert = .error halt) : Known halt := by
  simp only [Main.nextPin] at stopped
  split at stopped
  · split at stopped
    · cases stopped
    · split at stopped <;> cases stopped
      trivial
  · split at stopped <;> cases stopped
    trivial

theorem checkPin_known {idr : Gpio} {pins : List Nat} {state : Nat}
    (stopped : m.checkPin idr pins state = .error halt) : Known halt := by
  simp only [Main.checkPin] at stopped
  split at stopped
  · cases stopped
    trivial
  · split at stopped
    · rename_i checked
      cases stopped
      exact checkPins_known checked
    · cases stopped

theorem errors_known : Known (.error errBadResponse) ∧ Known (.error errTxTimeout) ∧ Known (.error errRxTimeout) ∧
    Known (.text "OPT") ∧ Known (.text "OSC") ∧ Known (.text "HDR") ∧ Known (.text "CCN") := by
  simp only [Known]
  decide

theorem runState_known (stopped : m.runState poll = .error halt) : Known halt := by
  obtain ⟨bad, _, _, opt, osc, hdr, ccn⟩ := errors_known
  unfold Main.runState at stopped
  split at stopped
  case h_2 =>
    simp only [Main.checkInfo] at stopped
    split at stopped <;> cases stopped
    exact bad
  case h_4 | h_8 => exact nextPin_known stopped
  case h_5 | h_10 => exact checkPin_known stopped
  case h_7 => exact checkPins_known stopped
  case h_12 =>
    simp only [Main.checkPinsLow] at stopped
    split at stopped
    · rename_i found
      cases stopped
      exact findBad_known found
    · cases stopped
  case h_14 =>
    simp only [Main.checkOptions] at stopped
    split at stopped <;> cases stopped
    exact opt
  case h_16 =>
    simp only [Main.checkHeaders] at stopped
    split at stopped <;> cases stopped
    exact hdr
  case h_18 =>
    simp only [Main.testWdatOsc] at stopped
    split at stopped
    · rename_i tested
      cases stopped
      split at tested
      · cases tested
        exact osc
      · split at tested <;> cases tested
        exact osc
    · cases stopped
  case h_19 =>
    simp only [Main.checkCc] at stopped
    split at stopped
    · split at stopped <;> cases stopped
      exact ccn
    · cases stopped
  all_goals cases stopped

theorem afterProcess_known (stopped : m.afterProcess poll = .error halt) : Known halt := by
  obtain ⟨bad, tx, rx, _⟩ := errors_known
  unfold Main.afterProcess at stopped
  split at stopped
  · split at stopped <;> cases stopped
    trivial
  · split at stopped
    · unfold Main.commandResponseHandle at stopped
      split at stopped
      · cases stopped
      · split at stopped <;> cases stopped
        exact tx
      · cases stopped
      · split at stopped <;> cases stopped
        exact rx
      · split at stopped
        · split at stopped <;> cases stopped
          exact bad
        · cases stopped
    · exact runState_known stopped

end

theorem iterate_known {input : Input} {s : Sys} {halt : Halt} (kept : Alternates s)
    (stopped : iterate input s = .error halt) : Known halt := by
  unfold iterate at stopped
  split at stopped
  · rename_i processed
    cases stopped
    unfold Input.process at processed
    split at processed
    · rename_i called
      cases processed
      rcases process_stuck called with rfl | rfl <;> trivial
    · cases processed
  · rename_i usb processed
    obtain ⟨state, called, _⟩ := iterate_parts kept processed
    split at stopped
    · rename_i ran
      cases stopped
      unfold Sequence.iterate at ran
      rw [called] at ran
      exact afterProcess_known ran
    · cases stopped

/-- An iteration waits, or begins the next test. -/
theorem iterate_begins {input : Input} {s next : Sys} (kept : Alternates s) (taken : iterate input s = .ok next) :
    (begins input s = false ∧ ∃ rspbuf cmdrsp call log, next.main = { s.main with rspbuf, cmdrsp, call, log } ∧
      (cmdrsp.state ≠ .idle → s.main.cmdrsp.state ≠ .idle)) ∨
    (begins input s = true ∧ ∃ usb middle, (∃ rspbuf cmdrsp, middle = { s.main with rspbuf, cmdrsp, call := none }) ∧
      middle.cmdrsp.state = .idle ∧ middle.advance.runState (input.poll usb) = .ok next.main) := by
  obtain ⟨usb, main, processed, ran, rfl⟩ := iterate_ok taken
  obtain ⟨state, called, _, _, advanced⟩ := iterate_parts kept processed
  obtain ⟨middle, called', served⟩ := iterate_served ran
  cases called.symm.trans called'
  have reached : begins input s = (usb.connected && state = CmdRspState.idle) := by
    have made : (view s.main usb).newIteration.usbhCdcProcess usb.actions = .ok _ := called
    rw [begins, processed]
    dsimp only
    rw [made]
  have waits (busy : state ≠ .idle) : begins input s = false ∧ s.main.cmdrsp.state ≠ .idle := by
    refine ⟨?_, mt advanced.idle.mp busy⟩
    rw [reached, decide_eq_false busy, Bool.and_false]
  cases served with
  | test _ on idle ran =>
    refine .inr ⟨?_, usb, _, ⟨_, _, rfl⟩, idle, ran⟩
    rw [reached, show usb.connected = true from on, show state = .idle from idle]
    rfl
  | unconnected off _ idle =>
    refine .inl ⟨?_, _, _, _, _, rfl, fun busy => absurd idle busy⟩
    rw [reached, show usb.connected = false from off, Bool.false_and]
  | txWait _ busy | rxWait _ busy | transmitted _ busy | received _ busy =>
    have busy : state ≠ .idle := by
      rw [show state = _ from busy]
      simp
    exact .inl ⟨(waits busy).1, _, _, _, _, rfl, fun _ => (waits busy).2⟩

theorem errors_told {halt : Halt} (listed : halt ∈ errors) :
    halt ≠ .systemReset ∧ halt ≠ .outOfArray ∧ halt ≠ .endless ∧ halt ≠ .stray := by
  revert halt
  decide

/-- An error ends a test that was just begun, or one whose command is under way. -/
theorem iterate_stops {input : Input} {s : Sys} {halt : Halt} (kept : Alternates s) (listed : halt ∈ errors)
    (stopped : iterate input s = .error halt) (waits : begins input s = false) : s.main.cmdrsp.state ≠ .idle := by
  obtain ⟨reset, outOfArray, endless, _⟩ := errors_told listed
  unfold iterate at stopped
  split at stopped
  · rename_i processed
    cases stopped
    unfold Input.process at processed
    split at processed
    · rename_i called
      cases processed
      rcases process_stuck called with rfl | rfl
      · exact absurd rfl outOfArray
      · exact absurd rfl endless
    · cases processed
  · rename_i usb processed
    obtain ⟨state, called, _, _, advanced⟩ := iterate_parts kept processed
    have made : (view s.main usb).newIteration.usbhCdcProcess usb.actions = .ok _ := called
    rw [begins, processed] at waits
    dsimp only at waits
    rw [made] at waits
    intro idle
    have idle : state = .idle := advanced.idle.mp idle
    have off : usb.connected = false := by simpa [idle] using waits
    split at stopped
    · rename_i ran
      cases stopped
      unfold Sequence.iterate at ran
      rw [called] at ran
      simp only [Main.afterProcess] at ran
      rw [if_pos (show ¬ (input.poll usb).connected = true by simp [Input.poll, off])] at ran
      split at ran <;> cases ran
      exact reset rfl
    · cases stopped

inductive Staged (m : Main) : Prop where
  | early (before : m.state < 20) (within : Within m) (quiet : m.success = false)
  | late (behind : m.state = 20 ∨ m.state = 21) (passed : m.success = true)

theorem Staged.least {m : Main} (staged : Staged m) : m.state ≤ 21 := by
  cases staged with
  | early before => omega
  | late behind => omega

def Pending (begun : Option Nat) (m : Main) : Prop :=
  m.cmdrsp.state ≠ .idle → ∃ n ≤ 22, begun = some n ∧ Tells n m.state

theorem tested_begun {m next : Main} {now : Time.TimeT} (within : Within m) (quiet : m.success = false)
    (idle : m.cmdrsp.state = .idle) (tested : Tested m now next) :
    Staged next ∧ (next.success = true ↔ m.state = 19) ∧ (next.cmdrsp.state ≠ .idle → next.state = m.state + 1) := by
  have kept := tested_within within tested
  have goes (state iter outer : Nat) (odr : Gpio) (sends : Bool) (makes : Makes m now state iter outer odr sends next)
      (bound : state < 20) (asked : sends = true → state = m.state + 1) (early : m.state ≠ 19) :
      Staged next ∧ (next.success = true ↔ m.state = 19) ∧
        (next.cmdrsp.state ≠ .idle → next.state = m.state + 1) := by
    have success : next.success = false := makes.success.trans quiet
    refine ⟨?_, by simp [success, early], fun busy => ?_⟩
    · rcases kept with ⟨last, _⟩ | ⟨before, within⟩
      · rw [makes.state] at last
        omega
      · exact .early before within success
    · cases sends with
      | true => rw [makes.state, asked rfl]
      | false =>
        have same : next.cmdrsp = m.cmdrsp := makes.sent
        exact absurd (same ▸ idle) busy
  cases tested with
  | asks stage makes | judges stage makes =>
    simp only [List.mem_cons, List.not_mem_nil, or_false] at stage
    exact goes _ _ _ _ _ makes (by omega) (fun _ => rfl) (by omega)
  | assertIn _ _ _ stage _ makes | assertOut _ _ _ stage _ makes | assertAll stage makes =>
    exact goes _ _ _ _ _ makes (by omega) (fun _ => by omega) (by omega)
  | checkIn stage makes | leaveIn stage _ _ makes | checkOut stage makes | leaveOut stage _ _ makes =>
    exact goes _ _ _ _ _ makes (by omega) (fun sends => by cases sends) (by omega)
  | passes stage shown =>
    rw [shown]
    exact ⟨.late (.inl rfl) rfl, iff_of_true rfl stage, fun _ => by rw [stage]; rfl⟩

/-- A test after a PASS -/
theorem late_begun {m next : Main} {poll : Poll} (late : m.state = 20 ∨ m.state = 21)
    (ran : m.advance.runState poll = .ok next) : Tells (m.state + 1) next.state := by
  rcases late with state | state
  all_goals
    simp only [Main.advance, state, Main.runState] at ran
    cases ran
  · exact .inl (by rw [state]; rfl)
  · exact .inr ⟨by rw [state], rfl⟩

section

variable {start : Registers} {three : Bool}

structure Lit (start : Registers) (three : Bool) (led : Led7seg) (shown : List Byte) : Prop where
  working : Working start led
  digits : led.nrDigits.toNat = places three
  shown : led.shown start = shown

variable {led : Led7seg} {shown : List Byte}

theorem Lit.string {text : List Byte} {p : Nat → Byte} (lit : Lit start three led shown) (reads : Reads p text) :
    Lit start three (led7segWriteString p led) (glyphs (places three) text) := by
  obtain ⟨works, same, shows⟩ := writeString_works lit.working reads
  exact ⟨works, by rw [same, lit.digits], by rw [shows, lit.digits]⟩

theorem Lit.decimal (lit : Lit start three led shown) (stack : StackArray) {n : Nat} (small : n < 2^32) :
    ∃ after, led7segWriteDecimal stack.memory stack.array (BitVec.ofNat 32 n) led = .ok after ∧
      Lit start three after (numberGlyphs (places three) n) := by
  obtain ⟨after, written, works, same, shows⟩ :=
    writeDecimal_works stack.memory stack.array (BitVec.ofNat 32 n) lit.working stack.inside
  have value : (BitVec.ofNat 32 n).toNat = n := by
    rw [BitVec.toNat_ofNat]
    omega
  rw [lit.digits, value] at shows
  exact ⟨after, written, works, by rw [same, lit.digits], shows⟩

/-- A working display is one that can be looked for again. -/
theorem Lit.attached (lit : Lit start three led shown) (curval : BitVec 16) (noise : Shift.Bus 16) :
    Attached three { led with curval, shiftreg := noise } := by
  have digits := lit.digits
  cases lit.working with
  | tm1651 same rest answers =>
    rw [same] at digits
    cases three with
    | true => exact ⟨rest, answers⟩
    | false => cases digits
  | shiftreg same _ rest answers =>
    rw [same] at digits
    cases three with
    | true => cases digits
    | false => exact ⟨rest, answers⟩

theorem boot_lit (x : Happening) (attached : Attached three { led with curval := 0, shiftreg := x.noise }) :
    Lit start three (boot x led).led (glyphs (places three) ("USB".toList.map chr)) := by
  obtain ⟨working, digits, shown⟩ := init_works start attached
  exact Lit.string ⟨working, digits, shown⟩ (quoted_reads "USB" (by decide))

theorem written_lit {s : Sys} (x : Happening) (lit : Lit start three led shown) (staged : Staged s.main) :
    ∃ after, written x s led = .ok after ∧ Lit start three after
      (if begins x.input s then
        if s.main.state = 19 then glyphs (places three) ("---".toList.map chr)
        else if s.main.success then shown else numberGlyphs (places three) (s.main.state + 1)
      else shown) := by
  have least := staged.least
  obtain ⟨after, wrote, lit'⟩ := lit.decimal x.stack (show s.main.state + 1 < 2^32 by omega)
  unfold written
  by_cases begun : begins x.input s
  · rw [if_pos begun, if_pos begun]
    have passes : s.main.state = 19 ↔ s.main.state + 1 = 20 := by omega
    have first : ∃ middle, writeState x s.main led = .ok middle ∧ Lit start three middle
        (if s.main.success then shown else numberGlyphs (places three) (s.main.state + 1)) := by
      unfold writeState
      by_cases success : s.main.success
      · rw [if_pos success, if_pos success]
        exact ⟨led, rfl, lit⟩
      · rw [if_neg success, if_neg success]
        exact ⟨after, wrote, lit'⟩
    obtain ⟨middle, wrote, lit⟩ := first
    rw [wrote]
    dsimp only
    by_cases last : s.main.state = 19
    · rw [if_pos last, if_pos (passes.mp last)]
      exact ⟨_, rfl, lit.string (quoted_reads "---" (by decide))⟩
    · rw [if_neg last, if_neg (mt passes.mpr last)]
      exact ⟨_, rfl, lit⟩
  · rw [if_neg begun, if_neg begun]
    exact ⟨led, rfl, lit⟩

theorem begunAt_bound {input : Input} {s : Sys} {begun : Option Nat} (staged : Staged s.main)
    (pending : Pending begun s.main) {halt : Halt} (kept : Alternates s) (listed : halt ∈ errors)
    (stopped : iterate input s = .error halt) :
    ∃ n ≤ 22, begunAt input s begun = some n ∧ Tells n (stateAt input s) := by
  have least := staged.least
  unfold begunAt stateAt
  by_cases test : begins input s = true
  · rw [if_pos test, if_pos test]
    exact ⟨_, by omega, rfl, .inl rfl⟩
  · rw [if_neg test, if_neg test]
    exact pending (iterate_stops kept listed stopped (Bool.eq_false_iff.mpr test))

/-- What a surviving iteration leaves on the display is what it is to show. -/
theorem iterate_face {count : Nat} {s next : Sys} {input : Input} {begun : Option Nat} (kept : Alternates s)
    (staged : Staged s.main) (pending : Pending begun s.main) (face : Face count s.main.success begun shown)
    (taken : iterate input s = .ok next) :
    Staged next.main ∧ Pending (begunAt input s begun) next.main ∧
      Face count next.main.success (begunAt input s begun)
        (if begins input s then
          if s.main.state = 19 then glyphs count ("---".toList.map chr)
          else if s.main.success then shown else numberGlyphs count (s.main.state + 1)
        else shown) := by
  have least := staged.least
  unfold begunAt
  rcases iterate_begins kept taken with ⟨waits, _, _, _, _, same, busy⟩ | ⟨test, usb, middle, same, idle, ran⟩
  · rw [same, waits, if_neg Bool.false_ne_true, if_neg Bool.false_ne_true]
    refine ⟨?_, fun goesOn => pending (busy goesOn), face⟩
    cases staged with
    | early before within quiet => exact .early before within quiet
    | late behind passed => exact .late behind passed
  · rw [test, if_pos rfl, if_pos rfl]
    have state : middle.state = s.main.state := by
      obtain ⟨_, _, rfl⟩ := same
      rfl
    have success : middle.success = s.main.success := by
      obtain ⟨_, _, rfl⟩ := same
      rfl
    cases staged with
    | early before within quiet =>
      have inside : Within middle := by
        obtain ⟨_, _, rfl⟩ := same
        exact within
      obtain ⟨staged, passes, sent⟩ :=
        tested_begun inside (success.trans quiet) idle (runState_tested (by omega) inside ran)
      rw [state] at passes sent
      refine ⟨staged, fun busy => ⟨_, by omega, rfl, .inl (sent busy)⟩, ?_⟩
      unfold Face
      by_cases last : s.main.state = 19
      · rw [if_pos (passes.mpr last), if_pos last]
      · rw [if_neg (mt passes.mp last), if_neg last, quiet, if_neg Bool.false_ne_true]
        exact ⟨by omega, rfl⟩
    | late behind passed =>
      rw [← state] at behind
      obtain ⟨later, _, same⟩ := runState_late behind ran
      have still : next.main.success = true := same.trans (success.trans passed)
      refine ⟨.late later still, fun _ => ⟨_, by omega, rfl, state ▸ late_begun behind ran⟩, ?_⟩
      unfold Face at face ⊢
      rw [if_pos passed] at face
      rw [if_pos still, if_neg (by omega), if_pos passed]
      exact face

def Jig.Ready (jig : Jig) : Prop :=
  match jig.phase with
  | .running s => Alternates s ∧ Staged s.main ∧ Pending jig.begun s.main
  | .failed halt s _ _ _ => Reads s (message halt)

structure Telling (start : Registers) (three : Bool) (jig : Jig) : Prop where
  lit : ∃ shown, Lit start three jig.led shown ∧ jig.Shows (places three) shown
  ready : jig.Ready

theorem boot_telling (x : Happening) (attached : Attached three { led with curval := 0, shiftreg := x.noise }) :
    Telling start three (boot x led) :=
  ⟨⟨_, boot_lit x attached, rfl⟩, powerOn_alternates x.latches, .early (Nat.succ_pos 19) ⟨rfl, rfl⟩ rfl,
    fun busy => absurd rfl busy⟩

theorem enterError_telling {halt : Halt} (listed : halt ∈ errors) {state : Nat} {begun : Option Nat}
    (told : ∃ n ≤ 22, begun = some n ∧ Tells n state) (usb : Usbh) (lit : Lit start three led shown)
    {string : Except FormatFault (Nat → Byte)} (printed : ∃ s, string = .ok s ∧ Reads s (message halt)) :
    ∃ next, enterError halt state usb led begun string = .ok next ∧ Telling start three next := by
  obtain ⟨s, rfl, reads⟩ := printed
  exact ⟨_, rfl, ⟨_, lit, listed, told, fun wrote => absurd rfl wrote⟩, reads⟩

/-- An error is told in the loop of `_error()`, and a reset starts all over. -/
theorem stop_telling (x : Happening) {halt : Halt} (known : Known halt) {state : Nat} {begun : Option Nat}
    (told : halt ∈ errors → ∃ n ≤ 22, begun = some n ∧ Tells n state) (usb : Usbh) (lit : Lit start three led shown) :
    (∃ next, stop x halt state usb led begun = .ok next ∧ Telling start three next) ∨
      stop x halt state usb led begun = .error (.halt halt) := by
  cases halt with
  | systemReset => exact .inl ⟨_, rfl, boot_telling x (lit.attached 0 x.noise)⟩
  | error nr =>
    have small : nr < 100 := by
      simp [Known, errors, errTxTimeout, errRxTimeout, errBadResponse] at known
      omega
    exact .inl (enterError_telling known (told known) usb lit
      (errorString_reads x.stack "E%02u" (chr 'E') (by decide +kernel) (by decide) (by decide) small))
  | pinError pin =>
    have small : pin < 100 := by
      simp [Known, errors, outp, inp] at known
      omega
    exact .inl (enterError_telling known (told known) usb lit
      (errorString_reads x.stack "P%02u" (chr 'P') (by decide +kernel) (by decide) (by decide) small))
  | text s =>
    have nonzero : ∀ c ∈ s.toList.map chr, c ≠ 0 := by
      have texts : s = "OPT" ∨ s = "OSC" ∨ s = "HDR" ∨ s = "CCN" := by
        simpa [Known, errors] using known
      rcases texts with rfl | rfl | rfl | rfl <;> decide
    exact .inl (enterError_telling known (told known) usb lit ⟨_, rfl, quoted_reads s nonzero⟩)
  | outOfArray | endless | stray => exact .inr rfl

theorem turn_telling (x : Happening) (jig : Jig) (telling : Telling start three jig) :
    (∃ next, turn x jig = .ok next ∧ Telling start three next) ∨ ∃ halt, turn x jig = .error (.halt halt) := by
  obtain ⟨⟨shown, lit, shows⟩, ready⟩ := telling
  obtain ⟨phase, led, begun⟩ := jig
  unfold turn
  cases phase with
  | running s =>
    obtain ⟨alternates, staged, pending⟩ := ready
    obtain ⟨after, wrote, lit⟩ := written_lit x lit staged
    dsimp only
    rw [wrote]
    dsimp only
    cases taken : iterate x.input s with
    | ok next =>
      obtain ⟨staged, pending, face⟩ := iterate_face alternates staged pending shows taken
      exact .inl ⟨_, rfl, ⟨_, lit, face⟩, iterate_alternates x.input s next alternates taken, staged, pending⟩
    | error halt =>
      have told (listed : halt ∈ errors) := begunAt_bound staged pending alternates listed taken
      rcases stop_telling x (iterate_known alternates taken) told (usbAt x.input s) lit with told | ended
      · exact .inl told
      · exact .inr ⟨halt, ended⟩
  | failed halt s state turns usb =>
    obtain ⟨listed, told, _⟩ := shows
    dsimp only
    left
    split
    · exact ⟨_, rfl, boot_telling x (lit.attached 0 x.noise)⟩
    · by_cases even : turns % 2 = 0
      · rw [if_pos even]
        refine ⟨_, rfl, ⟨_, lit.string ready, listed, told, fun _ => ?_⟩, ready⟩
        rw [if_pos (by omega)]
      · have bound : state < 2^32 := by
          obtain ⟨n, small, _, rfl | ⟨_, rfl⟩⟩ := told
          · omega
          · decide
        obtain ⟨after, wrote, lit⟩ := lit.decimal x.stack bound
        rw [if_neg even, wrote]
        refine ⟨_, rfl, ⟨_, lit, listed, told, fun _ => ?_⟩, ready⟩
        rw [if_neg (by omega)]

end

theorem messages_apart (three : Bool) : ∀ halt ∈ errors, ∀ other ∈ errors,
    glyphs (places three) (message halt) = glyphs (places three) (message other) →
      halt = other ∨ three = false ∧ tens halt ≠ none ∧ tens halt = tens other := by
  cases three <;> decide +kernel

theorem states_apart (three : Bool) {m n : Nat} (small : m ≤ 22) (small' : n ≤ 22)
    (same : numberGlyphs (places three) m = numberGlyphs (places three) n) : m = n := by
  have large : 22 < 10^places three := by
    cases three <;> decide
  rwa [numberGlyphs_alike, Nat.mod_eq_of_lt (by omega), Nat.mod_eq_of_lt (by omega)] at same

/-- In every run, resets included, the display tells the operator where the jig is: "USB" until a board is found, the
number of the test that was begun last, "---" once the board has passed, and after an error in turn what it was and the
test that was on, with 20 for 22. No two errors look alike, but for pins with the same first digit on two places, and no
two tests. -/
theorem panel_tells (start : Registers) (three : Bool) (led : Led7seg) (attached : Attached three led)
    (first : Happening) (rest : List Happening) :
    (∀ jig, exec turn rest (boot first led) = .ok jig → jig.Shows (places three) (jig.led.shown start)) ∧
    (∀ fault, exec turn rest (boot first led) ≠ .error (.format fault)) ∧
    (∀ halt ∈ errors, ∀ other ∈ errors,
      glyphs (places three) (message halt) = glyphs (places three) (message other) →
        halt = other ∨ three = false ∧ tens halt ≠ none ∧ tens halt = tens other) ∧
    ∀ m ≤ 22, ∀ n ≤ 22, numberGlyphs (places three) m = numberGlyphs (places three) n → m = n := by
  have initial : Telling start three (boot first led) := boot_telling first ⟨attached.rest, attached.answers⟩
  have kept (x : Happening) (jig next : Jig) (telling : Telling start three jig) (taken : turn x jig = .ok next) :
      Telling start three next := by
    rcases turn_telling x jig telling with ⟨other, same, told⟩ | ⟨halt, ended⟩
    · rw [taken] at same
      cases same
      exact told
    · rw [taken] at ended
      cases ended
  refine ⟨fun jig run => ?_, fun fault run => ?_, messages_apart three, fun m small n small' => ?_⟩
  · obtain ⟨shown, lit, shows⟩ := (exec_invariant kept initial run).lit
    rw [lit.shown]
    exact shows
  · obtain ⟨x, last, telling, stopped⟩ := exec_error kept initial run
    rcases turn_telling x last telling with ⟨other, same, _⟩ | ⟨halt, ended⟩
    · rw [stopped] at same
      cases same
    · rw [stopped] at ended
      cases ended
  · exact states_apart three small small'

theorem array_inside : (0x20004ff0 : BitVec 32).toNat + 4 ≤ 2^32 := by decide

def meets (schedule : Schedule) : Happening where
  input := schedule.input
  stack := ⟨fun _ => 0, 0x20004ff0, array_inside⟩
  latches := fun _ _ => false
  noise := ⟨false, false, 0, 0⟩

/-- Six seconds on the counter of `time_now()` -/
def sixSeconds : Schedule := { calm (turnAfter []) with reading := { (calm (turnAfter [])).reading with now := 54000000 } }

/-- A jig with a TM1651 that acknowledges, and a board that does not take its first command in time -/
def unanswered (after : Nat) : Except Fault Jig :=
  exec turn ((firstCommand 2 64 ++ List.replicate after sixSeconds).map meets)
    (boot (meets sixSeconds) ⟨0, 0, .resting fun _ => .untilFall, ⟨false, false, 0xa5a5, 0⟩⟩)

theorem panel_tells_unanswered : ∃ busy timeout, unanswered 0 = .ok busy ∧ unanswered 2 = .ok timeout ∧
    busy.led.shown ⟨fun _ => 0xff, false⟩ = numberGlyphs 3 1 ∧
    timeout.led.shown ⟨fun _ => 0xff, false⟩ = glyphs 3 ("E10".toList.map chr) := by
  have attached : Attached true ⟨0, 0, .resting fun _ => .untilFall, ⟨false, false, 0xa5a5, 0⟩⟩ :=
    ⟨⟨rfl, rfl, rfl, rfl, rfl⟩, fun _ => rfl⟩
  have tells (after : Nat) := (panel_tells ⟨fun _ => 0xff, false⟩ true _ attached (meets sixSeconds)
    ((firstCommand 2 64 ++ List.replicate after sixSeconds).map meets)).1
  obtain ⟨⟨phase, led, begun⟩, run, checked⟩ := exists_of_succeedsWith
    (fun jig : Jig => match jig.phase with
      | .running s => !s.main.success && jig.begun = some 1
      | .failed .. => false) (unanswered 0) (by decide +kernel)
  obtain ⟨⟨phase', led', begun'⟩, run', checked'⟩ := exists_of_succeedsWith
    (fun jig : Jig => match jig.phase with
      | .running _ => false
      | .failed halt _ _ turns _ => halt = .error errTxTimeout && turns = 1) (unanswered 2) (by decide +kernel)
  refine ⟨_, _, run, run', ?_, ?_⟩
  · cases phase with
    | failed => cases checked
    | running s =>
      simp only [Bool.and_eq_true, Bool.not_eq_true', decide_eq_true_eq] at checked
      have shows : Face 3 s.main.success begun _ := tells 0 _ run
      unfold Face at shows
      rw [checked.1, checked.2] at shows
      exact shows.2
  · cases phase' with
    | running => cases checked'
    | failed halt s state turns usb =>
      simp only [Bool.and_eq_true, decide_eq_true_eq] at checked'
      obtain ⟨_, _, shows⟩ := tells 2 _ run'
      rw [checked'.1, checked'.2, if_pos (by decide)] at shows
      exact (shows one_ne_zero).trans (by decide)

end Testjig.System
