import Casket.Pythonexec.EnvironHeaders
import Casket.Pythonexec.Injection
import Casket.Pythonexec.Streaming
import Casket.Pythonexec.Thread
import Casket.Pythonexec.WsgiInput
import Casket.Server.Conservation
import Casket.Server.Draining
import Casket.Server.KeepAlive
import Casket.Server.Listener
import Casket.Server.Wakeups
import Casket.Service.Routed
import Casket.WorkQ.Channels
import Casket.Worker.BodyStream
import Casket.Worker.Cuts
import Casket.Worker.Delivery
import Casket.Worker.Descriptors
import Casket.Worker.Exclusive
import Casket.Worker.Exit
import Casket.Worker.HostHeader
import Casket.Worker.Limit
import Casket.Worker.LogLines
import Casket.Worker.Readings
import Casket.Worker.RequestLength
import Casket.Worker.Tables
import Casket.Worker.ThreadLines
import Casket.Worker.Timers
import Casket.Worker.TraceParent
