import Nethernet.Protocol.Reassembly
import Nethernet.Protocol.Segments
import Nethernet.Protocol.Types
import Nethernet.Protocol.Signal
import Nethernet.Protocol.Negotiation
import Nethernet.Protocol.Texts
import Nethernet.Discovery.Grammar
import Nethernet.Signaling.Lan
import Nethernet.Signaling.Discovery
import Nethernet.Signaling.Contact
import Nethernet.Signaling.Motd
import Nethernet.Signaling.Delivery
import Nethernet.Signaling.Subscribe
import Nethernet.Session.Receive
import Nethernet.Session.Send
import Nethernet.Session.Conservation
import Nethernet.Session.Concurrent
import Nethernet.Session.Abandoned
import Nethernet.Session.Recv
import Nethernet.Session.Fair
import Nethernet.Session.Close
import Nethernet.Transport.Listener
import Nethernet.Transport.Effect
import Nethernet.Transport.Ownership
import Nethernet.Transport.Failure
import Nethernet.Transport.Rendezvous
import Nethernet.Transport.Agreement
import Nethernet.Transport.Service
import Nethernet.Transport.Flow
import Nethernet.Transport.Write
import Nethernet.Transport.Candidates
import Nethernet.Transport.Peer
import Nethernet.Transport.Read
import Nethernet.Transport.Cancel
import Nethernet.Transport.Answer
import Nethernet.Transport.Accept
import Nethernet.Transport.Bind
import Nethernet.Transport.Shutdown
