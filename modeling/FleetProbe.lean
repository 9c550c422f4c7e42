import FleetProbe.Main
import FleetProbe.Failure.Told
import FleetProbe.Log.Journal
import FleetProbe.Rehearsal.Callers
import FleetProbe.Rehearsal.Company
import FleetProbe.Rehearsal.Discovery
import FleetProbe.Rehearsal.Ledger
import FleetProbe.Rehearsal.Visit
import FleetProbe.Proofs.Catalog.Snapshot
import FleetProbe.Proofs.Fleet.Run
import FleetProbe.Proofs.Fleet.Reconcile
import FleetProbe.Proofs.Wire.Framing
import FleetProbe.Proofs.Wire.Layout
import FleetProbe.Proofs.Wire.Parts
import FleetProbe.Proofs.Wire.RoundTrip
import FleetProbe.Proofs.Wire.Requests
import FleetProbe.Proofs.Client.Reading
import FleetProbe.Proofs.Client.Conversation
import FleetProbe.Proofs.Metrics.Series
import FleetProbe.Proofs.Metrics.Ownership
import FleetProbe.Proofs.Metrics.Record
import FleetProbe.Proofs.Probe.Reports
import FleetProbe.Proofs.Fleet.Patrol
import FleetProbe.Proofs.Client.Exchange
import FleetProbe.Proofs.Probe.Connection
import FleetProbe.Proofs.Probe.Loss
import FleetProbe.Proofs.Probe.Survival
import FleetProbe.Proofs.Fleet.Bookkeeping
import FleetProbe.Proofs.Number.Exact
import FleetProbe.Proofs.Bucket.Level
import FleetProbe.Proofs.Bucket.Pacing
import FleetProbe.Proofs.Client.Attribution
import FleetProbe.Proofs.Catalog.Polls
import FleetProbe.Proofs.Catalog.Exact
import FleetProbe.Proofs.Fleet.Rounds
import FleetProbe.Proofs.Service.Polling
import FleetProbe.Proofs.Fleet.Turns
import FleetProbe.Proofs.Fleet.Closing
import FleetProbe.Proofs.Service.Steps
import FleetProbe.Proofs.Service.Cursor
import FleetProbe.Proofs.Metrics.Growth
import FleetProbe.Proofs.Probe.Handover
import FleetProbe.Proofs.Catalog.Identity
import FleetProbe.Proofs.Fleet.Faithful
import FleetProbe.Proofs.Probe.Sockets
import FleetProbe.Proofs.Settings.Accepted
import FleetProbe.Proofs.Settings.Probing
import FleetProbe.Proofs.Number.Range
import FleetProbe.Proofs.Settings.Valid
import FleetProbe.Proofs.Settings.Loading
import FleetProbe.Proofs.Service.Startup
import FleetProbe.Proofs.Service.Spacing
import FleetProbe.Proofs.Service.Books
import FleetProbe.Proofs.Service.Teardown
import FleetProbe.Proofs.Bucket.Eager
import FleetProbe.Proofs.Bucket.Sharing
import FleetProbe.Proofs.Probe.Transcript
import FleetProbe.Proofs.Probe.Stopping
import FleetProbe.Proofs.Metrics.Buckets
import FleetProbe.Proofs.Metrics.Counts
import FleetProbe.Proofs.Probe.Stages
import FleetProbe.Proofs.Probe.Pacing
import FleetProbe.Proofs.Probe.Retries
import FleetProbe.Proofs.Client.Reckoning
import FleetProbe.Proofs.Metrics.Reported
import FleetProbe.Proofs.Probe.Accounts
import FleetProbe.Proofs.Probe.Agreement
import FleetProbe.Proofs.Wire.Verdicts
import FleetProbe.Proofs.Catalog.Sifting
import FleetProbe.Proofs.Text.Decimal
import FleetProbe.Proofs.Json.Lines
import FleetProbe.Proofs.Log.Fields
import FleetProbe.Proofs.Bucket.Crowd
import FleetProbe.Proofs.Catalog.Tenure
import FleetProbe.Proofs.Fleet.Enlisting
import FleetProbe.Proofs.Fleet.Appearances
import FleetProbe.Proofs.Service.Hurry
import FleetProbe.Proofs.Service.Release
