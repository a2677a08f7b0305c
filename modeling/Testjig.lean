import Testjig.Machine.Run
import Testjig.Time.Clock
import Testjig.Time.Refinement
import Testjig.Timers.Queue
import Testjig.Timers.KeepAlive
import Testjig.Board.Pins
import Testjig.Sequence.Loop
import Testjig.Sequence.Pass
import Testjig.Sequence.Wiring
import Testjig.Sequence.Verdict
import Testjig.Sequence.Calls
import Testjig.Usb.Interrupts
import Testjig.Usb.Transfers
import Testjig.System.Alternation
import Testjig.System.Connection
import Testjig.Usb.Requests
import Testjig.Usb.Layout
import Testjig.Usb.Buffers
import Testjig.Usb.Pipe
import Testjig.Usb.Reception
import Testjig.System.Exchange
import Testjig.Machine.Chain
import Testjig.Timers.Chain
import Testjig.Timers.Service
import Testjig.Timers.Expiry
import Testjig.Timers.Delivery
import Testjig.Serial.Ring
import Testjig.Serial.Overrun
import Testjig.Serial.Preemption
import Testjig.Text.Format
import Testjig.Text.Truncation
import Testjig.Text.Digits
import Testjig.Text.Directive
import Testjig.Text.Integers
import Testjig.Text.Alternate
import Testjig.Text.Strtol
import Testjig.Text.RoundTrip
import Testjig.Crc.Ccitt
import Testjig.Machine.Countdown
import Testjig.Time.Delay
import Testjig.Usb.Timer
import Testjig.Sequence.Oscillation
import Testjig.Dfu.Convert
import Testjig.Dfu.RoundTrip
import Testjig.Text.Narrow
import Testjig.Machine.Reach
import Testjig.Text.Scanner
import Testjig.Machine.Fill
import Testjig.Util.Memory
import Testjig.Util.Copy
import Testjig.Machine.Segment
import Testjig.Util.Qsort
import Testjig.Machine.Wire
import Testjig.Display.Tm1651
import Testjig.Display.Delivery
import Testjig.Machine.Linear
import Testjig.Machine.Period
import Testjig.Util.Rand
import Testjig.Crc.Burst
import Testjig.Display.ShiftRegister
import Testjig.Timers.Convergence
import Testjig.Util.Depth
import Testjig.Machine.StopAndWait
import Testjig.System.Delivery
import Testjig.Usb.Configuration
import Testjig.Usb.Enumeration
import Testjig.Usb.Supported
import Testjig.Usb.Answers
import Testjig.Sequence.Transitions
import Testjig.System.Deadline
import Testjig.System.Outputs
import Testjig.Display.Segments
import Testjig.System.Panel
import Testjig.Usb.Port
import Testjig.Usb.Tracking
import Testjig.Usb.PortIrqs
import Testjig.Usb.ChannelIrqs
import Testjig.System.Modes
