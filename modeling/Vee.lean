import Vee.Actor.Errors
import Vee.Actor.Exit
import Vee.Actor.RingRefinement
import Vee.Asio.IoService
import Vee.Delegate.Epoch
import Vee.Delegate.Subscribe
import Vee.Handshake.AsyncAccept
import Vee.Handshake.Buffers
import Vee.Handshake.Encoders
import Vee.Handshake.StatusLine
import Vee.Handshake.Unrelated
import Vee.Lock.SpinLock
import Vee.Queue.Deadlock
import Vee.Scheduler.Completion
import Vee.Scheduler.RoundRobin
import Vee.Signal.ExactlyOnce
import Vee.Timer.Ticks
import Vee.Websocket.Bounds
import Vee.Websocket.Duplex
import Vee.Websocket.Emission
import Vee.Websocket.Overloads
import Vee.Websocket.Packet
import Vee.Win32.Handle
import Vee.Win32.Sessions
