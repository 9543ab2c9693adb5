import ZonePool.Main
import ZonePool.Proofs.KeyMap
import ZonePool.Proofs.Classification
import ZonePool.Proofs.Classification.Overwrite
import ZonePool.Proofs.Readiness
import ZonePool.Proofs.Selection
import ZonePool.Proofs.Store
import ZonePool.Proofs.Json.Quote
import ZonePool.Proofs.Turn
import ZonePool.Proofs.Pool.Action
import ZonePool.Proofs.Pool.Run
import ZonePool.Proofs.Pool.Reachable
import ZonePool.Proofs.Pool.InFlight
import ZonePool.Proofs.Pool.OwnCycles
import ZonePool.Proofs.Pool.Placement
import ZonePool.Proofs.Pool.History
import ZonePool.Proofs.Pool.Pick
import ZonePool.Proofs.Pool.Selections
import ZonePool.Proofs.Pool.Status
import ZonePool.Proofs.Traffic.Party
import ZonePool.Proofs.Traffic.Run
import ZonePool.Proofs.Traffic.Monitor
import ZonePool.Proofs.Traffic.Reset
import ZonePool.Proofs.Traffic.Life
import ZonePool.Proofs.Zones
import ZonePool.Proofs.Text.Decimal
import ZonePool.Proofs.Net.RestUri
import ZonePool.Proofs.Pool.Resync
import ZonePool.Proofs.Json.Spelling
import ZonePool.Proofs.Text.Utf8
import ZonePool.Proofs.Json.RoundTrip
import ZonePool.Proofs.Instance
import ZonePool.Proofs.Directory
import ZonePool.Proofs.Pool.Order
import ZonePool.Proofs.Pool.Polling
import ZonePool.Proofs.Metrics
import ZonePool.Proofs.Pool.Available
import ZonePool.Proofs.Pool.Accounting
import ZonePool.Proofs.Pool.Interval
import ZonePool.Proofs.Pool.Requests
import ZonePool.Proofs.Network
import ZonePool.Proofs.Pool.Loop
import ZonePool.Proofs.Service
import ZonePool.Proofs.Config
import ZonePool.Proofs.Probe.Peer
import ZonePool.Proofs.Cycle.Independent
import ZonePool.Proofs.Pool.Launch
import ZonePool.Proofs.Admin
import ZonePool.Proofs.Net.Ipv6
import ZonePool.Proofs.Instance.Endpoint
import ZonePool.Proofs.Text.Blank
import ZonePool.Proofs.Config.Load
import ZonePool.Proofs.Json.Reading
import ZonePool.Proofs.Document
import ZonePool.Proofs.Instance.Spelling
import ZonePool.Proofs.Interval
