import RustPbx.Proxy.NatInspector
import RustPbx.Proxy.DialogIdentity
import RustPbx.Proxy.Bindings
import RustPbx.Queue.Legs
import RustPbx.Queue.Outcome
import RustPbx.Sipflow.RawIndex
import RustPbx.Sipflow.Shard
import RustPbx.Sipflow.Flush
import RustPbx.Conference.Membership
import RustPbx.Conference.Lifetime
import RustPbx.Proxy.SessionInterval
import RustPbx.Proxy.SessionAgreement
import RustPbx.Call.CpsLimiter
import RustPbx.Call.DbLimiter
import RustPbx.Call.LimitWindows
import RustPbx.Proxy.ClusterForward
import RustPbx.Proxy.TrunkHealth
import RustPbx.Security.BanWindow
import RustPbx.Proxy.Transactions
import RustPbx.Media.ConferenceMixer
import RustPbx.Media.Pacing
import RustPbx.Media.Wav
import RustPbx.Media.BundleVideo
import RustPbx.Media.Transcode
import RustPbx.Media.Dtmf
import RustPbx.Media.Muxer
import RustPbx.Media.RedundantAudio
import RustPbx.Media.RtpTimeline
import RustPbx.Proxy.DisabledTrunks
import RustPbx.Proxy.PresenceAgreement
import RustPbx.Proxy.LocatorBackends
import RustPbx.App.TimerClaims
import RustPbx.App.Runtime
import RustPbx.Proxy.Replaces
import RustPbx.Storage.S3
import RustPbx.Rwi.CallContext
import RustPbx.Proxy.DialogTarget
import RustPbx.Proxy.TrunkRegistrar
import RustPbx.Proxy.NumberPool
import RustPbx.Proxy.StatusWait
