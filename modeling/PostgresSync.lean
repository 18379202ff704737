import PostgresSync.Data.ByteRunes
import PostgresSync.Data.Checked
import PostgresSync.Data.Decimal
import PostgresSync.Data.Dict
import PostgresSync.Data.Journal
import PostgresSync.Data.Json
import PostgresSync.Data.Loop
import PostgresSync.Data.Padded
import PostgresSync.Data.Path
import PostgresSync.Data.Quoted
import PostgresSync.Data.Registry
import PostgresSync.Data.Run
import PostgresSync.Pg.Announced
import PostgresSync.Pg.ApplyBatch
import PostgresSync.Pg.BatchKeys
import PostgresSync.Pg.BatchOffsets
import PostgresSync.Pg.BatchPlan
import PostgresSync.Pg.ChangeBatch
import PostgresSync.Pg.ClauseDependencies
import PostgresSync.Pg.ClauseSyntax
import PostgresSync.Pg.Columns
import PostgresSync.Pg.ConfirmedLSN
import PostgresSync.Pg.Coverage
import PostgresSync.Pg.Dependencies
import PostgresSync.Pg.DependencyScan
import PostgresSync.Pg.HandOff
import PostgresSync.Pg.Health
import PostgresSync.Pg.KeyRenderings
import PostgresSync.Pg.MessageKeys
import PostgresSync.Pg.Projection
import PostgresSync.Pg.Queries
import PostgresSync.Pg.QueryText
import PostgresSync.Pg.Reactions
import PostgresSync.Pg.Redelivery
import PostgresSync.Pg.RefreshPaths
import PostgresSync.Pg.Replication
import PostgresSync.Pg.ReplicationStart
import PostgresSync.Pg.Runtime
import PostgresSync.Pg.ScanBounds
import PostgresSync.Pg.ScanByIndex
import PostgresSync.Pg.ScanClause
import PostgresSync.Pg.ScanGrammar
import PostgresSync.Pg.ScanSuffix
import PostgresSync.Pg.ScanTrees
import PostgresSync.Pg.ShapeLife
import PostgresSync.Pg.Table
import PostgresSync.Pg.TableBatches
import PostgresSync.Pg.Transactions
import PostgresSync.Pg.Truncation
import PostgresSync.Pg.TupleKeys
import PostgresSync.Protocol.Admission
import PostgresSync.Protocol.Convergence
import PostgresSync.Protocol.Delivery
import PostgresSync.Protocol.ETags
import PostgresSync.Protocol.HandleShape
import PostgresSync.Protocol.Identifiers
import PostgresSync.Protocol.MustRefetch
import PostgresSync.Protocol.Recovery
import PostgresSync.Protocol.Resumable
import PostgresSync.Protocol.Service
import PostgresSync.Protocol.Validators
import PostgresSync.Shapes.Backend
import PostgresSync.Shapes.Catalog
import PostgresSync.Shapes.CatalogRuns
import PostgresSync.Shapes.CatchUp
import PostgresSync.Shapes.ChangeLog
import PostgresSync.Shapes.ClientView
import PostgresSync.Shapes.Definition
import PostgresSync.Shapes.Diff
import PostgresSync.Shapes.Effects
import PostgresSync.Shapes.Hydration
import PostgresSync.Shapes.Identity
import PostgresSync.Shapes.Keys
import PostgresSync.Shapes.LiveView
import PostgresSync.Shapes.LogOrder
import PostgresSync.Shapes.LogReads
import PostgresSync.Shapes.Manager
import PostgresSync.Shapes.MessageFaces
import PostgresSync.Shapes.MoveOut
import PostgresSync.Shapes.Offset
import PostgresSync.Shapes.OffsetOrder
import PostgresSync.Shapes.Persistence
import PostgresSync.Shapes.Refreshes
import PostgresSync.Shapes.RelationIndex
import PostgresSync.Shapes.Restart
import PostgresSync.Shapes.RowIdentity
import PostgresSync.Shapes.State
import PostgresSync.Shapes.Tombstones
import PostgresSync.Shapes.Waiting
import PostgresSync.Shapes.WriteThrough
import PostgresSync.Shapes.Writes
import PostgresSync.SqlInspect.Inspect
import PostgresSync.SqlInspect.Outside
import PostgresSync.Storage.Chunks
import PostgresSync.Storage.Compaction
import PostgresSync.Storage.Damage
import PostgresSync.Storage.Disk
import PostgresSync.Storage.Encoding
import PostgresSync.Storage.Interrupted
import PostgresSync.Storage.LastWrite
import PostgresSync.Storage.Store
