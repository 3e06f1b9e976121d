import EnaDevice.Lib.Counter
import EnaDevice.Model.Device
import EnaDevice.Admin.Atomicity
import EnaDevice.Invariant.Safety
import EnaDevice.Irq.Sourced
import EnaDevice.Rx.Recovery
import EnaDevice.Cq.Channel
import EnaDevice.Admin.Exchange
import EnaDevice.Tx.Transmit
import EnaDevice.Tx.Placement
import EnaDevice.Tx.Commute
import EnaDevice.Twin.Indistinct
import EnaDevice.Control.Registers
import EnaDevice.Control.Features
import EnaDevice.Aenq.Channel
import EnaDevice.Rx.Accounting
import EnaDevice.Rx.Flush
import EnaDevice.Tx.Drain
import EnaDevice.Tx.Grammar
import EnaDevice.Tx.Outcome
import EnaDevice.Tx.Genuine
import EnaDevice.Tx.Csum
import EnaDevice.Tx.Mtu
import EnaDevice.Tx.Contained
import EnaDevice.Lib.Ledger
import EnaDevice.Cq.Room
import EnaDevice.Rx.Steering
import EnaDevice.Tx.Mss
import EnaDevice.Aenq.Credit
import EnaDevice.Aenq.KeepAlive
import EnaDevice.Control.Allocator
import EnaDevice.Control.Beside
import EnaDevice.Driver.Transmit
import EnaDevice.Driver.Receive
import EnaDevice.Driver.Events
import EnaDevice.Driver.Line
