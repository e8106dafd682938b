import Deposition.Bytes.Lz4
import Deposition.Configuration
import Deposition.Flow
import Deposition.HeightMap
import Deposition.Segment
import Deposition.Setting.Assignment
import Deposition.Status
import Deposition.Archive.Reader
import Deposition.Timers
import Deposition.Url.Parser
import Deposition.Export.Archive
import Deposition.Export.Xyz
import Deposition.Endpoint
import Deposition.Preferences
import Deposition.Files.DataDirectory
import Deposition.Connection
import Deposition.Job.Basic
import Deposition.Job.Client
import Deposition.Rehearsal.Stage
import Deposition.CommandLine.Program
import Deposition.Main
import Deposition.Proofs.Session.Agreement
import Deposition.Proofs.Job.Clock
import Deposition.Proofs.Session.Clock
import Deposition.Proofs.Exchange.Basic
import Deposition.Proofs.Exchange.Cancellation
import Deposition.Proofs.Archive.Mirror
import Deposition.Proofs.Session.Requests
import Deposition.Proofs.Job.Run
import Deposition.Proofs.Session.Independence
import Deposition.Proofs.Job.Submission
import Deposition.Proofs.Job.Stall
import Deposition.Proofs.Segment.Fitting
import Deposition.Proofs.Session.Fate
import Deposition.Proofs.Job.Script
import Deposition.Proofs.Job.Ending
import Deposition.Proofs.Session.Acceptance
import Deposition.Proofs.Session.Rest
import Deposition.Proofs.Archive.Truncation
import Deposition.Proofs.Archive.Unfinished
import Deposition.Proofs.Archive.Delivery
import Deposition.Proofs.Session.Following
import Deposition.Proofs.Session.Announcements
import Deposition.Proofs.Connection.Line
import Deposition.Proofs.Connection.Protocol
import Deposition.Proofs.Session.Progress
import Deposition.Proofs.Session.Reconnection
import Deposition.Proofs.HeightMap.Envelope
import Deposition.Proofs.HeightMap.Survivors
import Deposition.Proofs.HeightMap.Grid
import Deposition.Proofs.HeightMap.Tops
import Deposition.Proofs.Session.Ids
import Deposition.Proofs.Archive.Lengths
import Deposition.Proofs.Configuration.JobName
import Deposition.Proofs.Message.Reading
import Deposition.Proofs.Configuration.Shadowing
import Deposition.Proofs.Setting.Sanitize
import Deposition.Proofs.Setting.Assignment
import Deposition.Proofs.Preferences.Layers
import Deposition.Proofs.Export.Xyz
