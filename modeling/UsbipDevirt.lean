import UsbipDevirt.Lib.Transition
import UsbipDevirt.Lib.Table
import UsbipDevirt.Lib.Program
import UsbipDevirt.Halves
import UsbipDevirt.Accounting
import UsbipDevirt.CommandStream
import UsbipDevirt.Replies
import UsbipDevirt.Joining
import UsbipDevirt.Conformance
import UsbipDevirt.Lifecycle
import UsbipDevirt.Framing
import UsbipDevirt.ConfigCache
import UsbipDevirt.Settings
import UsbipDevirt.Import
import UsbipDevirt.EndpointData
import UsbipDevirt.EpIoBuf
import UsbipDevirt.Draining
import UsbipDevirt.Lengths
import UsbipDevirt.Activation
import UsbipDevirt.Presented
import UsbipDevirt.GadgetProtocol
import UsbipDevirt.Startup
import UsbipDevirt.InFlight
import UsbipDevirt.Quiescence
import UsbipDevirt.Settling
import UsbipDevirt.Shutdown
import UsbipDevirt.EndpointZero
import UsbipDevirt.Conversation
import UsbipDevirt.Requests
