import TailscaleDart.Publication.StatusStream
import TailscaleDart.Accept.Identity
import TailscaleDart.Reset.Crash
import TailscaleDart.Udp.Binding
import TailscaleDart.Http.Parser
import TailscaleDart.Fd.Writers
import TailscaleDart.Publication.Delivery
import TailscaleDart.Publication.Sweep
import TailscaleDart.Publication.Ownership
import TailscaleDart.Fd.Outbound
import TailscaleDart.Fd.Credit
import TailscaleDart.Store.Reopen
import TailscaleDart.Store.Grammar
import TailscaleDart.Http.Binding
import TailscaleDart.Listener.Accepting
import TailscaleDart.Fd.Owner
import TailscaleDart.Http.Headers
import TailscaleDart.Publication.ServePath
import TailscaleDart.Store.Proven
import TailscaleDart.Reset.Containment
import TailscaleDart.Runtime.Resolution
import TailscaleDart.Runtime.Release
import TailscaleDart.Runtime.FdResources
import TailscaleDart.Runtime.Slots
import TailscaleDart.Worker.Requests
