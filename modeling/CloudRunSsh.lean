import CloudRunSsh.Concurrency.Machine
import CloudRunSsh.Concurrency.Outline
import CloudRunSsh.Concurrency.Simulation
import CloudRunSsh.Concurrency.Call
import CloudRunSsh.Concurrency.Program
import CloudRunSsh.Concurrency.Solo
import CloudRunSsh.Concurrency.Sessions
import CloudRunSsh.Concurrency.Trace
import CloudRunSsh.Concurrency.Panics
import CloudRunSsh.Concurrency.Persistence
import CloudRunSsh.Data.Dict
import CloudRunSsh.Data.Lines
import CloudRunSsh.Data.LineEdits
import CloudRunSsh.Data.Python
import CloudRunSsh.Data.Templates
import CloudRunSsh.Data.TextDecoder
import CloudRunSsh.Data.UTF8
import CloudRunSsh.Data.JavaScript
import CloudRunSsh.Data.Percent
import CloudRunSsh.Data.IPAddress
import CloudRunSsh.Data.URL
import CloudRunSsh.Data.Base64
import CloudRunSsh.Data.Printf
import CloudRunSsh.Data.PrintedFormats
import CloudRunSsh.Data.Regex
import CloudRunSsh.Data.JSON
import CloudRunSsh.Data.Documents
import CloudRunSsh.Data.Writers
import CloudRunSsh.Proxy.Config
import CloudRunSsh.Proxy.Registry
import CloudRunSsh.Proxy.Gin
import CloudRunSsh.Proxy.Handlers
import CloudRunSsh.Proxy.Middleware
import CloudRunSsh.Proxy.Server
import CloudRunSsh.Proxy.Verdicts
import CloudRunSsh.Proxy.Endpoints
import CloudRunSsh.Proxy.Cascade
import CloudRunSsh.Proxy.Jobs
import CloudRunSsh.Proxy.Authorization
import CloudRunSsh.Proxy.View
import CloudRunSsh.Proxy.Stages
import CloudRunSsh.Proxy.Soundness
import CloudRunSsh.Proxy.Sequential
import CloudRunSsh.Proxy.Histories
import CloudRunSsh.Proxy.Expiry
import CloudRunSsh.Proxy.Pass
import CloudRunSsh.Proxy.Responses
import CloudRunSsh.Proxy.Stream
import CloudRunSsh.Proxy.Paths
import CloudRunSsh.Proxy.Instances
import CloudRunSsh.Proxy.Bursts
import CloudRunSsh.Proxy.Deferred
import CloudRunSsh.Proxy.Removals
import CloudRunSsh.Proxy.Ownership
import CloudRunSsh.Proxy.Renewals
import CloudRunSsh.Proxy.IngressRules
import CloudRunSsh.Proxy.FailClosed
import CloudRunSsh.Proxy.Postcondition
import CloudRunSsh.Proxy.NilSafety
import CloudRunSsh.Proxy.Truthfulness
import CloudRunSsh.Proxy.Growth
import CloudRunSsh.Proxy.Leases
import CloudRunSsh.Proxy.Provenance
import CloudRunSsh.Proxy.Identity
import CloudRunSsh.Tunnel.Rendering
import CloudRunSsh.SSHServer.DaemonConfig
import CloudRunSsh.WebSSH.Server
import CloudRunSsh.WebSSH.Dictionaries
import CloudRunSsh.WebSSH.Attachments
import CloudRunSsh.WebSSH.Sessions
import CloudRunSsh.WebSSH.Registrations
import CloudRunSsh.WebSSH.Limits
import CloudRunSsh.WebSSH.Terminal
import CloudRunSsh.WebSSH.Page
import CloudRunSsh.WebSSH.AutoLogin
import CloudRunSsh.WebSSH.LoginURL
import CloudRunSsh.WebSSH.Overrides
import CloudRunSsh.WebSSH.ControlSequences
import CloudRunSsh.WebSSH.Transcript
import CloudRunSsh.WebSSH.Flushes
import CloudRunSsh.WebSSH.Authentication
import CloudRunSsh.WebSSH.HostKeys
import CloudRunSsh.WebSSH.KnownHosts
import CloudRunSsh.WebSSH.Keystrokes
import CloudRunSsh.WebSSH.Messages
import CloudRunSsh.WebSSH.PrimaryDomain
import CloudRunSsh.WebSSH.Hostnames
import CloudRunSsh.WebSSH.TrustedDownstream
import CloudRunSsh.WebSSH.PrivateKeys
import CloudRunSsh.WebSSH.Origins
import CloudRunSsh.WebSSH.CrossOrigin
import CloudRunSsh.WebSSH.URLArguments
import CloudRunSsh.WebSSH.Connecting
import CloudRunSsh.WebSSH.Commands
import CloudRunSsh.WebSSH.Frames
import CloudRunSsh.WebSSH.Posts
import CloudRunSsh.WebSSH.Answers
import CloudRunSsh.WebSSH.Embedding
