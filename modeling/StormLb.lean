import StormLb.Config
import StormLb.Effects.Contest
import StormLb.Effects.Program
import StormLb.Effects.Threads
import StormLb.Health
import StormLb.Net.Addr
import StormLb.Net.Bytes
import StormLb.Pool
import StormLb.Vips.Registry
import StormLb.Vips.Spec
import StormLb.Vrrp.Advertisement
import StormLb.Vrrp.Election
import StormLb.Vrrp.Handover
import StormLb.Vrrp.Loop
import StormLb.Vrrp.LoopInvariant
import StormLb.Vrrp.LoopLaw
import StormLb.Vrrp.Router
import StormLb.Vips.Put
import StormLb.Vips.Invariant
import StormLb.Vips.Refusal
import StormLb.Vips.ConfigVip
import StormLb.Vips.Save
import StormLb.Vips.SaveOrder
import StormLb.Bgp.Message
import StormLb.Bgp.Session
import StormLb.Bgp.Grammar
import StormLb.Bgp.Output
import StormLb.Router.Head
import StormLb.Json
import StormLb.Router.Route
import StormLb.Router.Serve
import StormLb.Router.Table
import StormLb.Router.FailClosed
import StormLb.Net.OnesComplement
import StormLb.Vrrp.RoundTrip
import StormLb.Effects.Machine
import StormLb.Vrrp.Rfc5798
import StormLb.Vrrp.Refinement
import StormLb.Vips.Instances
import StormLb.Vips.Host
import StormLb.Effects.Membership
import StormLb.Health.Loop
import StormLb.Health.Verified
import StormLb.Json.Struct
import StormLb.Vips.Codec
import StormLb.Api
import StormLb.Api.Addressing
import StormLb.Vips.Calls
import StormLb.Vips.StateFile
import StormLb.Vips.Restart
import StormLb.Effects.Promise
import StormLb.Router.Poll
import StormLb.Router.Scene
import StormLb.Router.Wire
import StormLb.Api.Token
import StormLb.Pool.Turns
import StormLb.Router.HostLine
import StormLb.Router.Forwarded
import StormLb.Vips.Again
import StormLb.Router.CopyBidirectional
import StormLb.Router.Counted
import StormLb.Vrrp.DueTimers
import StormLb.Effects.Disk
import StormLb.Vips.AtomicWrite
import StormLb.Vrrp.Corrupted
import StormLb.Vrrp.Mastership
import StormLb.Vips.Revival
import StormLb.Effects.Both
import StormLb.Vips.PutSteps
import StormLb.Vips.Wake
import StormLb.Bgp.Silence
import StormLb.Net.Segments
import StormLb.Bgp.Framing
import StormLb.Bgp.Rfc4271
import StormLb.Api.ReadRequest
import StormLb.Api.Segmentation
import StormLb.Net.Http
import StormLb.Router.OwnAnswers
import StormLb.Effects.Drift
import StormLb.Tls.Certs
import StormLb.Tls.Reload
import StormLb.Tls.LastGood
import StormLb.Text.Exposition
import StormLb.Text.Blocks
import StormLb.Metrics.Registry
import StormLb.Metrics.Render
import StormLb.Metrics.Labels
import StormLb.Metrics.Recorded
import StormLb.Metrics.Scrape
import StormLb.Metrics.Rows
import StormLb.Metrics.ReadsBack
import StormLb.Checked
import StormLb.Vrrp.Timers
import StormLb.Net.Native
import StormLb.Netlink.Wire
import StormLb.Netlink.Attributes
import StormLb.Netlink.Request
import StormLb.Netlink.Reassembly
import StormLb.Effects.Served
import StormLb.Router.Labelled
import StormLb.Router.Listeners
import StormLb.Metrics.Keys
import StormLb.Router.Cardinality
import StormLb.Net.Rfc9112
import StormLb.Router.HostRead
import StormLb.Router.HeadSent
import StormLb.Router.HostAgreement
import StormLb.Netlink.Commands
import StormLb.Netlink.Interfaces
import StormLb.Vrrp.OnInterfaces
import StormLb.Vips.Store
import StormLb.Api.Store
import StormLb.Bgp.Anycast
import StormLb.Effects.Ledger
import StormLb.Metrics.Words
import StormLb.Metrics.Guards
import StormLb.Balancer
import StormLb.Balancer.Stages
import StormLb.Balancer.Counts
import StormLb.Balancer.Dials
import StormLb.Router.OpenConnections
import StormLb.Vrrp.OneMaster
import StormLb.Vrrp.TakesOver
