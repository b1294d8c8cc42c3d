import TailcatSocks.Library.Runs
import TailcatSocks.Library.Utf8
import TailcatSocks.Socks.Read
import TailcatSocks.Rust.DnsMap
import TailcatSocks.Rust.UpstreamRequest
import TailcatSocks.Rust.ReplyDiscipline
import TailcatSocks.Rust.Normalise
import TailcatSocks.Rust.PassThrough
import TailcatSocks.Rust.RelayAnswer
import TailcatSocks.Rust.Session
import TailcatSocks.Rust.RelayClock
import TailcatSocks.Rust.ClockSteps
import TailcatSocks.Rust.RelayTask
import TailcatSocks.Rust.RelayTeardown
import TailcatSocks.Rust.Watch
import TailcatSocks.Rust.Config
import TailcatSocks.Rust.Startup
import TailcatSocks.Go.DnsMap
import TailcatSocks.Go.Redirect
import TailcatSocks.Go.Watch
import TailcatSocks.Go.Rewatch
import TailcatSocks.Go.Proxy
import TailcatSocks.Go.Request
import TailcatSocks.Go.Relay
import TailcatSocks.Go.HalfClose
import TailcatSocks.Go.Lifecycle
import TailcatSocks.Go.Session
import TailcatSocks.Python.Watch
import TailcatSocks.Python.BadFile
import TailcatSocks.Python.Proxy
import TailcatSocks.Python.Answered
import TailcatSocks.Python.Target
import TailcatSocks.Agreement
import TailcatSocks.DnsAgreement
import TailcatSocks.Python.Session
import TailcatSocks.RelayAgreement
import TailcatSocks.AddressAgreement
import TailcatSocks.LaunchAgreement
import TailcatSocks.Rust.Lifecycle
import TailcatSocks.Rust.StopWindow
import TailcatSocks.Python.Lifecycle
import TailcatSocks.ServeAgreement
import TailcatSocks.Rust.Serving
import TailcatSocks.Go.Serving
import TailcatSocks.Python.Serving
import TailcatSocks.Scripts
