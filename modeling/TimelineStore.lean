import TimelineStore.Client
import TimelineStore.Future.Script
import TimelineStore.Property.Name
import TimelineStore.Session.Snapshot
import TimelineStore.Session.Workshop
import TimelineStore.Source.Memory
import TimelineStore.Source.Override
import TimelineStore.Proofs.Chunk.Contents
import TimelineStore.Proofs.Request
import TimelineStore.Proofs.Window
import TimelineStore.Proofs.Outcome
import TimelineStore.Proofs.Trace
import TimelineStore.Proofs.Reading.Store
import TimelineStore.Proofs.Reading.Modes
import TimelineStore.Proofs.Future
import TimelineStore.Proofs.Session.Reachable
import TimelineStore.Proofs.Session.Work
import TimelineStore.Proofs.Session.ReadPaths
import TimelineStore.Proofs.Sorting
import TimelineStore.Proofs.Chunk.Level
import TimelineStore.Proofs.Source.Memory
import TimelineStore.Proofs.Track
import TimelineStore.Proofs.Track.Removal
import TimelineStore.Proofs.Track.History
import TimelineStore.Proofs.Trace.Evictions
import TimelineStore.Proofs.Source.Levels
import TimelineStore.Proofs.Grid.Tiling
import TimelineStore.Proofs.Chunk.Divide
import TimelineStore.Proofs.Grid.Read
import TimelineStore.Proofs.Rocpd.Entries
import TimelineStore.Proofs.Sql.Cell
import TimelineStore.Proofs.Text.Digits
import TimelineStore.Proofs.Rocpd.Bounds
import TimelineStore.Proofs.Rocpd.Tracks
import TimelineStore.Proofs.Rocpd.Scan
import TimelineStore.Proofs.Rocpd.FullRead
import TimelineStore.Proofs.Reading.Failed
import TimelineStore.Proofs.Job
import TimelineStore.Proofs.Future.Lifecycle
import TimelineStore.Proofs.Session.Covering
import TimelineStore.Proofs.Future.Delivery
import TimelineStore.Proofs.Future.Undisturbed
import TimelineStore.Proofs.Session.Futures
import TimelineStore.Proofs.Reading.Sets
import TimelineStore.Proofs.Trace.Acts
import TimelineStore.Proofs.Session.Traces
import TimelineStore.Proofs.Session.Binding
import TimelineStore.Proofs.Session.Details
import TimelineStore.Proofs.Trace.Regular
import TimelineStore.Proofs.Chunk.Build
import TimelineStore.Proofs.Chunk.Lookup
import TimelineStore.Proofs.StringTable.Interning
import TimelineStore.Proofs.Trace.Accounting
import TimelineStore.Proofs.Session.Surface
import TimelineStore.Proofs.Reading.Answers
import TimelineStore.Proofs.Trace.Decoding
import TimelineStore.Proofs.Renaming
import TimelineStore.Proofs.Reading.Commuting
import TimelineStore.Proofs.Session.Runs
import TimelineStore.Proofs.Session.Drafts
import TimelineStore.Proofs.Session.Interruption
import TimelineStore.Proofs.Session.Targets
import TimelineStore.Proofs.Session.Isolation
import TimelineStore.Proofs.Session.Residence
import TimelineStore.Proofs.Session.Turns
import TimelineStore.Proofs.Client.DetailReads
import TimelineStore.Proofs.Future.Company
import TimelineStore.Proofs.Future.Overlap
import TimelineStore.Proofs.Future.Apart
import TimelineStore.Proofs.Rocpd.Membership
import TimelineStore.Proofs.Rocpd.Events
import TimelineStore.Proofs.Rocpd.Attributes
import TimelineStore.Proofs.Rocpd.Landing
import TimelineStore.Proofs.Rocpd.Flows
import TimelineStore.Proofs.Session.Occurrences
import TimelineStore.Proofs.Session.Issue
import TimelineStore.Proofs.Session.Layouts
import TimelineStore.Proofs.Session.Gone
import TimelineStore.Proofs.Session.Handles
import TimelineStore.Proofs.Session.Addressing
import TimelineStore.Proofs.Grid.Plan
import TimelineStore.Proofs.Grid.Requests
import TimelineStore.Proofs.Rocpd.Batch
import TimelineStore.Proofs.Rocpd.OwnRows
import TimelineStore.Proofs.Rocpd.Detection
import TimelineStore.Proofs.Source.Given
import TimelineStore.Proofs.Reading.Totals
import TimelineStore.Proofs.Session.Story
import TimelineStore.Proofs.Attribute.Canonical
