import SasLibclient.Monitor.Basic
import SasLibclient.Monitor.Sleepers
import SasLibclient.Queue.ThreadSafeBatchQueue
import SasLibclient.Queue.BatchInvariant
import SasLibclient.Queue.Workers
import SasLibclient.Queue.PopMode
import SasLibclient.Queue.GetMode
import SasLibclient.Queue.ReplayPlan
import SasLibclient.Queue.Replay
import SasLibclient.Loops.Strided
import SasLibclient.Partitions
import SasLibclient.Bytes.Memory
import SasLibclient.Hdat.SuperChunk
import SasLibclient.Hdat.Common
import SasLibclient.Hdat.ChunkReader
import SasLibclient.Hdat.ReaderBounds
import SasLibclient.Hdat.Layout
import SasLibclient.Hdat.RowsWritten
import SasLibclient.Hdat.RoundTrip
import SasLibclient.Queue.ConsumerQueue
import SasLibclient.S2Connection
import SasLibclient.ResultTableReader
import SasLibclient.ChunkQueue
import SasLibclient.Delivery
import SasLibclient.CreateChunkQueue
import SasLibclient.ErrorFree
import SasLibclient.ParallelRead
import SasLibclient.Hdat.RowsAccepted
import SasLibclient.NonParallelRead
import SasLibclient.Queue.SimpleMode
import SasLibclient.Sorting.OrderBy
import SasLibclient.ApiCalls
import SasLibclient.Hdat.WriterCalls
import SasLibclient.Queue.BatchBarrier
import SasLibclient.Queue.FreeBatchData
import SasLibclient.Queue.Provenance
import SasLibclient.Queue.Teardown
import SasLibclient.ReceivedChunks
import SasLibclient.SameChunks
import SasLibclient.Sql.OriginalTable
import SasLibclient.Sql.Repeatability
import SasLibclient.AccessRuns
import SasLibclient.FineAccesses
import SasLibclient.Calendar.Gregorian
import SasLibclient.Calendar.Moment
import SasLibclient.Calendar.Text
import SasLibclient.FetchPaths
import SasLibclient.Hdat.DatePrinting
import SasLibclient.MultipleRows
import SasLibclient.Sql.ExplainOperations
import SasLibclient.Text.LoadData
import SasLibclient.TsvTableWriter
import SasLibclient.Sql.ColumnTypes
import SasLibclient.ChunkAssertions
import SasLibclient.InfileRead
import SasLibclient.Queue.MixedMode
import SasLibclient.Sql.LoadDataAvro
import SasLibclient.Sql.SortKeys
import SasLibclient.ConnectionFetches
import SasLibclient.ConnectionSessions
import SasLibclient.CopiedRows
import SasLibclient.CopiedTables
import SasLibclient.Monitor.Progress
import SasLibclient.Queue.TeardownEnd
import SasLibclient.StreamingDestructor
import SasLibclient.StreamingEnd
import SasLibclient.Connections
import SasLibclient.Placement
import SasLibclient.Sql.Statements
import SasLibclient.TableLifecycle
import SasLibclient.Queue.Narrowing
