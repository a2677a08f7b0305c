import Testjig.Usb.Cdc

namespace Testjig.System

open Testjig.Sequence Testjig.Usb Testjig.Board Testjig.Time

/-- main.c over the USB stack. `rspbuf` lies in the memory that the stack stores packets in. -/
structure Sys where
  main : Main
  usb : Usbh

/-- What main.c reads in one iteration besides the USB stack -/
structure Reading where
  now : TimeT
  idr : Gpio
  tcif : Bool
  dmabuf : Nat → BitVec 16
  adc : Nat → BitVec 12

/-- What one iteration of the loop meets; `fault` makes the class report an unrecovered error. -/
structure Input where
  env : Env
  fault : Bool
  reading : Reading

/-- What main.c gets to see after `usbh_cdc_process()` -/
def Input.poll (input : Input) (usb : Usbh) : Poll where
  actions := usb.actions
  connected := usb.connected
  now := input.reading.now
  idr := input.reading.idr
  tcif := input.reading.tcif
  dmabuf := input.reading.dmabuf
  adc := input.reading.adc

/-- `usbh_cdc_process()`, up to the check of `usbh_cdc_connected()` -/
def Input.process (input : Input) (usb : Usbh) : Except Halt Usbh :=
  match { usb with actions := [] }.process (classCb input.fault) input.env with
  | .error halt => .error halt
  | .ok usb => .ok (usb.irq input.env .exit)

def view (main : Main) (usb : Usbh) : Main := { main with rspbuf := usb.pdev.ram .rspbuf }

/-- One iteration of the loop of main() -/
def iterate (input : Input) (s : Sys) : Except Halt Sys :=
  match input.process s.usb with
  | .error halt => .error halt
  | .ok usb =>
    match Sequence.iterate (input.poll usb) (view s.main usb) with
    | .error halt => .error halt
    | .ok main => .ok { main, usb := usb.serve main.call }

def powerOn (latches : Gpio) : Sys where
  main := Sequence.powerOn latches
  usb := usbhCdcInit

/-- An iteration in which only interrupts touch the host controller driver from outside -/
structure Schedule where
  turn : Turn
  fault : Bool
  reading : Reading

def Schedule.input (x : Schedule) : Input := ⟨x.turn.env, x.fault, x.reading⟩

def step (x : Schedule) (s : Sys) : Except Halt Sys := iterate x.input s

end Testjig.System
