import GroupReplay.Action
import GroupReplay.Address
import GroupReplay.Backoff
import GroupReplay.Bytes
import GroupReplay.Call
import GroupReplay.Command
import GroupReplay.Disk.Basic
import GroupReplay.Disk.Database
import GroupReplay.Key
import GroupReplay.Main
import GroupReplay.Number.Double
import GroupReplay.Number.Integer
import GroupReplay.Number.Shortest
import GroupReplay.Projection.Basic
import GroupReplay.Projection.Desk
import GroupReplay.Projection.Recording
import GroupReplay.Projection.ToStore
import GroupReplay.Replay.Basic
import GroupReplay.Replay.Drain
import GroupReplay.Replay.Forwarding
import GroupReplay.Run
import GroupReplay.Service.Basic
import GroupReplay.Service.Client
import GroupReplay.Service.Error
import GroupReplay.Service.Log
import GroupReplay.Service.Request
import GroupReplay.Settings.Basic
import GroupReplay.Settings.KeyPath
import GroupReplay.Settings.Source
import GroupReplay.Settings.Value
import GroupReplay.Store.Access
import GroupReplay.Store.Any
import GroupReplay.Store.Basic
import GroupReplay.Store.Records
import GroupReplay.Store.Tables
import GroupReplay.Text.Hidden
import GroupReplay.Text.Quoted
import GroupReplay.Token
import GroupReplay.Wire.Codec
import GroupReplay.Wire.Declared
import GroupReplay.Wire.Enumeration
import GroupReplay.Wire.Error
import GroupReplay.Wire.Event
import GroupReplay.Wire.Kind
import GroupReplay.Wire.Message
import GroupReplay.Wire.Tag
import GroupReplay.Wire.Varint
import GroupReplay.Yaml.Node
import GroupReplay.Yaml.Node.Reader
import GroupReplay.Yaml.Token
import GroupReplay.Yaml.Token.Cursor
import GroupReplay.Yaml.Token.Lexer
import GroupReplay.Yaml.Token.Scalar
import GroupReplay.Proofs.Actions
import GroupReplay.Proofs.Tasks
import GroupReplay.Proofs.DirectLink
import GroupReplay.Proofs.TaskSteps
import GroupReplay.Proofs.CarryOut
import GroupReplay.Proofs.Flattening
import GroupReplay.Proofs.Plan
import GroupReplay.Proofs.Holding
import GroupReplay.Proofs.RecordedReplay
import GroupReplay.Proofs.FailedReplay
import GroupReplay.Proofs.Activation
import GroupReplay.Proofs.RecordsGrow
import GroupReplay.Proofs.TablesView
import GroupReplay.Proofs.StoreView
import GroupReplay.Proofs.StoreAgreement
import GroupReplay.Proofs.ProjectionWrites
import GroupReplay.Proofs.RepeatedReplay
import GroupReplay.Proofs.StoreReplay
import GroupReplay.Proofs.Handing
import GroupReplay.Proofs.AbsorbedEvents
import GroupReplay.Proofs.MessageProjection
import GroupReplay.Proofs.BuiltStore
import GroupReplay.Proofs.InterruptedReplay
import GroupReplay.Proofs.StoreHistory
import GroupReplay.Proofs.ForwardedDrain
import GroupReplay.Proofs.SequentialDrain
import GroupReplay.Proofs.NotedReplay
import GroupReplay.Proofs.CancelledReplay
import GroupReplay.Proofs.StoreChanges
import GroupReplay.Proofs.AnnouncedChanges
import GroupReplay.Proofs.SiteUpkeep
import GroupReplay.Proofs.ReplayedStore
import GroupReplay.Proofs.WireRoundTrip
import GroupReplay.Proofs.RemoteLink
import GroupReplay.Proofs.RemoteSession
import GroupReplay.Proofs.SettledTables
import GroupReplay.Proofs.InterleavedScripts
import GroupReplay.Proofs.EncodedLengths
import GroupReplay.Proofs.FailedApplies
import GroupReplay.Proofs.DrainFaults
import GroupReplay.Proofs.DrainOutcome
import GroupReplay.Proofs.KeyReading
import GroupReplay.Proofs.ReplayedOnce
import GroupReplay.Proofs.KeySpelling
import GroupReplay.Proofs.FurtherBytes
import GroupReplay.Proofs.OverlaidMessages
import GroupReplay.Proofs.UndeclaredFields
import GroupReplay.Proofs.NewerPeers
import GroupReplay.Proofs.SettingsValues
import GroupReplay.Proofs.SettingsDocuments
import GroupReplay.Proofs.SettingsLayers
import GroupReplay.Proofs.Directories
import GroupReplay.Proofs.StoreAddresses
import GroupReplay.Proofs.StoreFiles
