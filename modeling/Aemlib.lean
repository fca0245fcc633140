import Aemlib.Behaviour.Bounds
import Aemlib.Behaviour.Draining
import Aemlib.Behaviour.Handshake
import Aemlib.Behaviour.Inbound
import Aemlib.Behaviour.Intake
import Aemlib.Behaviour.Keepalive
import Aemlib.Behaviour.Lifecycle
import Aemlib.Behaviour.Numbering
import Aemlib.Behaviour.Outbound
import Aemlib.Behaviour.Reading
import Aemlib.Behaviour.Refusal
import Aemlib.Behaviour.Rejection
import Aemlib.Behaviour.Teardown
import Aemlib.Demo.Settling
import Aemlib.Ghost
import Aemlib.Platform.PosixTcp
import Aemlib.Platform.VirtualTransport
import Aemlib.Proto.Grammar
import Aemlib.Proto.Length
import Aemlib.Proto.Overlay
import Aemlib.Proto.RoundTrip
import Aemlib.Proto.SizeT
