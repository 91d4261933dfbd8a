import Espcan32.Adapter.BusToHost
import Espcan32.Adapter.HostToBus
import Espcan32.Bench.Pacing
import Espcan32.Bench.Session
import Espcan32.Bridge.BusState
import Espcan32.Bridge.Once
import Espcan32.Bridge.Reconfig
import Espcan32.Bridge.Retry
import Espcan32.Bridge.Shot
import Espcan32.IsoTp.Blocks
import Espcan32.IsoTp.Bounds
import Espcan32.IsoTp.Channel
import Espcan32.IsoTp.Functional
import Espcan32.IsoTp.Loss
import Espcan32.IsoTp.Pair
import Espcan32.IsoTp.Send
import Espcan32.IsoTp.Shift
import Espcan32.IsoTp.Wait
import Espcan32.Pcan.Books
import Espcan32.Pcan.Rate
import Espcan32.Pcan.Table
import Espcan32.Pcan.Time
import Espcan32.Ring.Atomic
import Espcan32.Ring.Progress
import Espcan32.Uds.Ceiling
import Espcan32.Uds.Download
import Espcan32.Uds.Expiry
import Espcan32.Uds.InBounds
import Espcan32.Uds.Pending
import Espcan32.Uds.Refusal
import Espcan32.Uds.Restart
import Espcan32.Uds.Unlock
import Espcan32.Usb.Delivery
import Espcan32.Usb.Intake
import Espcan32.Usb.Ownership
import Espcan32.Usb.Reply
import Espcan32.Usb.Resubmit
import Espcan32.Bridge.BusOff
import Espcan32.Bridge.Stranded
