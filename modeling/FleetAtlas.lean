import FleetAtlas.Cleaner
import FleetAtlas.Cluster.Cache
import FleetAtlas.Cluster.Identity
import FleetAtlas.Cluster.Image
import FleetAtlas.Cluster.Object
import FleetAtlas.Cluster.Read
import FleetAtlas.Confirmation
import FleetAtlas.Dict
import FleetAtlas.Dispatcher
import FleetAtlas.Entity.Basic
import FleetAtlas.Entity.Json
import FleetAtlas.Entity.Uid
import FleetAtlas.Failure
import FleetAtlas.Family
import FleetAtlas.Fingerprint.Sha512
import FleetAtlas.Fingerprint.Source
import FleetAtlas.Fleet.Basic
import FleetAtlas.Fleet.Observed
import FleetAtlas.Fleet.Operator
import FleetAtlas.Fleet.Rehearsal
import FleetAtlas.Handler.Events
import FleetAtlas.Handler.Pods
import FleetAtlas.Handler.Restarts
import FleetAtlas.Handler.Topology
import FleetAtlas.Handler.Workload
import FleetAtlas.Json.Basic
import FleetAtlas.Json.Reader
import FleetAtlas.Json.Writer
import FleetAtlas.Main
import FleetAtlas.Metrics
import FleetAtlas.Proofs.Cluster.ArtifactImage
import FleetAtlas.Proofs.Cluster.RuntimeImage
import FleetAtlas.Proofs.Dictionary
import FleetAtlas.Proofs.Dispatcher.Convergence
import FleetAtlas.Proofs.Dispatcher.Course
import FleetAtlas.Proofs.Dispatcher.Crew
import FleetAtlas.Proofs.Dispatcher.Deletion
import FleetAtlas.Proofs.Dispatcher.Events
import FleetAtlas.Proofs.Dispatcher.Mirror
import FleetAtlas.Proofs.Dispatcher.Retries
import FleetAtlas.Proofs.Dispatcher.Scope
import FleetAtlas.Proofs.Dispatcher.Shutdown
import FleetAtlas.Proofs.Dispatcher.Versions
import FleetAtlas.Proofs.Entity.Envelope
import FleetAtlas.Proofs.Entity.RoundTrip
import FleetAtlas.Proofs.Entity.Uid
import FleetAtlas.Proofs.Fingerprint.EntryOrder
import FleetAtlas.Proofs.Fingerprint.Stream
import FleetAtlas.Proofs.Fleet.Rounds
import FleetAtlas.Proofs.Handler.BackOff
import FleetAtlas.Proofs.Handler.Footprint
import FleetAtlas.Proofs.Handler.Independence
import FleetAtlas.Proofs.Handler.Isolation
import FleetAtlas.Proofs.Handler.Objections
import FleetAtlas.Proofs.Handler.PullFailures
import FleetAtlas.Proofs.Handler.Redelivery
import FleetAtlas.Proofs.Handler.RestartCounts
import FleetAtlas.Proofs.Handler.RestartGroups
import FleetAtlas.Proofs.Instance.Backing
import FleetAtlas.Proofs.Instance.Naming
import FleetAtlas.Proofs.Instance.StopRace
import FleetAtlas.Proofs.Instance.StopTime
import FleetAtlas.Proofs.Instance.Sweeps
import FleetAtlas.Proofs.Instance.Writes
import FleetAtlas.Proofs.Json.RoundTrip
import FleetAtlas.Proofs.Queue.Drain
import FleetAtlas.Proofs.Queue.Sound
import FleetAtlas.Proofs.Queue.Waiting
import FleetAtlas.Proofs.Settings.Layers
import FleetAtlas.Proofs.Storage.Agreement
import FleetAtlas.Proofs.Storage.Commute
import FleetAtlas.Proofs.Storage.Documents
import FleetAtlas.Proofs.Storage.Export
import FleetAtlas.Proofs.Storage.Frame
import FleetAtlas.Proofs.Storage.Graph
import FleetAtlas.Proofs.Storage.Integrity
import FleetAtlas.Proofs.Storage.Lines
import FleetAtlas.Proofs.Storage.Lists
import FleetAtlas.Proofs.Storage.Merge
import FleetAtlas.Proofs.Storage.Refusal
import FleetAtlas.Proofs.Storage.Rewrite
import FleetAtlas.Proofs.Storage.Saved
import FleetAtlas.Proofs.Storage.Service
import FleetAtlas.Proofs.Storage.Store
import FleetAtlas.Proofs.Task.Edits
import FleetAtlas.Proofs.Task.Endings
import FleetAtlas.Proofs.Task.Independence
import FleetAtlas.Proofs.Task.Journal
import FleetAtlas.Proofs.Task.Keeps
import FleetAtlas.Proofs.Task.Stores
import FleetAtlas.Proofs.Task.Writes
import FleetAtlas.Proofs.Text.ByteOrder
import FleetAtlas.Proofs.Text.Cut
import FleetAtlas.Proofs.Time.RoundTrip
import FleetAtlas.Queue.Backoff
import FleetAtlas.Queue.Basic
import FleetAtlas.Queue.Line
import FleetAtlas.Record
import FleetAtlas.Settings.Basic
import FleetAtlas.Settings.CommandLine
import FleetAtlas.Settings.File
import FleetAtlas.Settings.Storage
import FleetAtlas.Storage.Change
import FleetAtlas.Storage.Documents
import FleetAtlas.Storage.Error
import FleetAtlas.Storage.Export
import FleetAtlas.Storage.Graph
import FleetAtlas.Storage.Selection
import FleetAtlas.Storage.Service
import FleetAtlas.Storage.Store
import FleetAtlas.Sweep
import FleetAtlas.Task.Basic
import FleetAtlas.Task.Run
import FleetAtlas.Text.Base64
import FleetAtlas.Text.Blank
import FleetAtlas.Text.Shortest
import FleetAtlas.Time.Text
import FleetAtlas.Time.Timestamp
import FleetAtlas.Yaml.Character
import FleetAtlas.Yaml.Document
import FleetAtlas.Yaml.Gap
import FleetAtlas.Yaml.Indented
import FleetAtlas.Yaml.Layout
import FleetAtlas.Yaml.Node
import FleetAtlas.Yaml.Quoted
import FleetAtlas.Yaml.Scalar
import FleetAtlas.Yaml.Tag
import FleetAtlas.Yaml.Token
import FleetAtlas.Yaml.Value
