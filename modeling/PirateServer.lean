import PirateServer.Admission.Order
import PirateServer.Admission.Wakeups
import PirateServer.Auth.Binding
import PirateServer.Auth.Rejection
import PirateServer.Auth.Replay
import PirateServer.Auth.Skew
import PirateServer.ChallengeAuth.Redemption
import PirateServer.Client.Migration
import PirateServer.Client.Spelling
import PirateServer.CmdTemplate.Substitute
import PirateServer.Deploy.Agreement
import PirateServer.Deploy.Coherence
import PirateServer.Deploy.RunScript
import PirateServer.Devices.Cap
import PirateServer.HostDb.ReadonlySql
import PirateServer.HostEnv.EnvFile
import PirateServer.Ingress.Export
import PirateServer.Nginx.AutoApply
import PirateServer.Nginx.Zones
import PirateServer.Processes.Kill
import PirateServer.Processes.Listeners
import PirateServer.ProxySession.Schedule
import PirateServer.QuicTicket.Lifetime
import PirateServer.Relay.Settling
import PirateServer.Ssl.Renewal
import PirateServer.StackTun.BusSession
import PirateServer.StackTun.FailedUpdates
import PirateServer.StackTun.RequestBus
import PirateServer.StreamQueue.Delivery
import PirateServer.TaskQueue.Calls
import PirateServer.TaskQueue.Capacity
import PirateServer.TaskQueue.Fifo
import PirateServer.TaskQueue.Terminal
import PirateServer.TaskQueue.Ttl
import PirateServer.TaskSession.Fidelity
import PirateServer.TaskSession.Progress
import PirateServer.UploadSession.LostAnswers
import PirateServer.UploadSession.Ownership
import PirateServer.Usage.ActiveTime
import PirateServer.Usage.Flush
import PirateServer.Usage.Limits
import PirateServer.Wire.Bounds
import PirateServer.Wire.InitFrame
import PirateServer.Wire.ReplayHistory
import PirateServer.Wire.SessionLifetime
import PirateServer.Wire.ShadowsocksRoundTrip
import PirateServer.Wire.VmessRoundTrip
