import DnsBuffer.Foundation.Machine
import DnsBuffer.Foundation.LinkedMap
import DnsBuffer.Foundation.Channel
import DnsBuffer.Foundation.Bucket
import DnsBuffer.Foundation.Table
import DnsBuffer.Foundation.Transaction
import DnsBuffer.Foundation.Words
import DnsBuffer.Foundation.Search
import DnsBuffer.Foundation.Percent
import DnsBuffer.Foundation.Glob
import DnsBuffer.Foundation.Tiling
import DnsBuffer.Foundation.Mask
import DnsBuffer.Foundation.Authority
import DnsBuffer.Foundation.Tasks
import DnsBuffer.Foundation.Simulation
import DnsBuffer.Foundation.Cubic
import DnsBuffer.Foundation.Form
import DnsBuffer.Dns.Text
import DnsBuffer.Dns.Message
import DnsBuffer.Dns.Address
import DnsBuffer.Dns.Ecs
import DnsBuffer.Dns.Subnet
import DnsBuffer.Dns.Hosts
import DnsBuffer.Dns.Suffix
import DnsBuffer.Dns.Specificity
import DnsBuffer.Cache.Model
import DnsBuffer.Cache.Accounting
import DnsBuffer.Cache.Lru
import DnsBuffer.Filter.Model
import DnsBuffer.Filter.Update
import DnsBuffer.Filter.Grammar
import DnsBuffer.Filter.Verdict
import DnsBuffer.Filter.Sources
import DnsBuffer.Dashboard.Event
import DnsBuffer.Upstream.Hedged
import DnsBuffer.Upstream.Budget
import DnsBuffer.Upstream.Launches
import DnsBuffer.Upstream.Failover
import DnsBuffer.Upstream.Group
import DnsBuffer.Upstream.Selection
import DnsBuffer.Upstream.Proportion
import DnsBuffer.Upstream.Accounting
import DnsBuffer.Upstream.Connection
import DnsBuffer.Upstream.Http2
import DnsBuffer.Upstream.Http3
import DnsBuffer.Upstream.Resolver
import DnsBuffer.Upstream.Bootstrap
import DnsBuffer.Filter.Fetch
import DnsBuffer.Upstream.Stats
import DnsBuffer.Upstream.Weights
import DnsBuffer.Upstream.Snapshot
import DnsBuffer.Pipeline.Model
import DnsBuffer.Pipeline.Step
import DnsBuffer.Pipeline.Disclosure
import DnsBuffer.Pipeline.Provenance
import DnsBuffer.Pipeline.Matching
import DnsBuffer.Pipeline.Identity
import DnsBuffer.Pipeline.Events
import DnsBuffer.Pipeline.Freshness
import DnsBuffer.Dashboard.Worker
import DnsBuffer.Dashboard.Flush
import DnsBuffer.Dashboard.Store
import DnsBuffer.Dashboard.Aggregates
import DnsBuffer.Dashboard.Trend
import DnsBuffer.Dashboard.Queries
import DnsBuffer.Dashboard.Search
import DnsBuffer.Dashboard.Encoding
import DnsBuffer.Dashboard.Statements
import DnsBuffer.Dashboard.Sampler
import DnsBuffer.Dashboard.Schema
import DnsBuffer.Dashboard.Open
import DnsBuffer.Dashboard.Views
import DnsBuffer.Dashboard.Spline
import DnsBuffer.Dashboard.Chart
import DnsBuffer.Dashboard.Frontend
import DnsBuffer.Dashboard.Request
import DnsBuffer.Dashboard.Rounds
import DnsBuffer.Dashboard.Deadline
import DnsBuffer.Dashboard.Warnings
import DnsBuffer.Dashboard.Permits
import DnsBuffer.Dashboard.Lifecycle
import DnsBuffer.Server.Model
import DnsBuffer.Server.Replies
import DnsBuffer.Server.Drain
import DnsBuffer.Runtime.Model
import DnsBuffer.Runtime.Order
import DnsBuffer.Runtime.History
import DnsBuffer.Runtime.Shown
import DnsBuffer.Runtime.Build
import DnsBuffer.Runtime.Validation
import DnsBuffer.Runtime.Attribution
