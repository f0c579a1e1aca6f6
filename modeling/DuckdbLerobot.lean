import DuckdbLerobot.Codec.ExecutorProgress
import DuckdbLerobot.Video.ProducerProgress
import DuckdbLerobot.Path.WriterPaths
import DuckdbLerobot.Path.CacheKey
import DuckdbLerobot.Storage.TimestampLookup
import DuckdbLerobot.Storage.SnapshotConsistency
import DuckdbLerobot.Scan.FrameScan
import DuckdbLerobot.Video.BindVersions
import DuckdbLerobot.Video.TargetOrdinals
import DuckdbLerobot.Video.DecodeClusters
import DuckdbLerobot.Video.FramesDelivery
import DuckdbLerobot.Copy.GeneratedTimestamps
import DuckdbLerobot.Path.DatasetRoot
import DuckdbLerobot.Copy.EmptyDataset
import DuckdbLerobot.Copy.QuantileMerge
import DuckdbLerobot.Image.DepthRoundTrip
import DuckdbLerobot.Image.VisualGrid
import DuckdbLerobot.Copy.ShardPacking
import DuckdbLerobot.Copy.EpisodeFiles
import DuckdbLerobot.Video.DecoderCacheInvariant
import DuckdbLerobot.Video.TemporalTargets
import DuckdbLerobot.Storage.RouteLookups
import DuckdbLerobot.Path.TemplateGrammar
import DuckdbLerobot.Copy.SizeLimit
import DuckdbLerobot.Video.DepthQuantization
import DuckdbLerobot.Storage.IndexFreshness
import DuckdbLerobot.Image.TiffPacket
import DuckdbLerobot.Path.RootStability
import DuckdbLerobot.Copy.InputColumns
import DuckdbLerobot.Image.FrameSample
import DuckdbLerobot.Copy.NestedArrays
import DuckdbLerobot.Reader.BatchIndependence
import DuckdbLerobot.Image.TiffAccess
import DuckdbLerobot.Copy.InfoJson
import DuckdbLerobot.Copy.NestedStatistics
import DuckdbLerobot.Copy.TaskTable
import DuckdbLerobot.Copy.VideoFiles
import DuckdbLerobot.Image.TiffLayout
import DuckdbLerobot.Copy.ChunkBoundaries
import DuckdbLerobot.Copy.FrameIndexes
import DuckdbLerobot.Copy.DataFiles
import DuckdbLerobot.Copy.ShardRoutes
import DuckdbLerobot.Copy.EpisodeVideos
import DuckdbLerobot.Copy.VideoTimeline
import DuckdbLerobot.Copy.FrameTimes
import DuckdbLerobot.Video.NearestFrames
import DuckdbLerobot.Library.LeftJoin
import DuckdbLerobot.Video.SourceRows
import DuckdbLerobot.Video.SourceScan
import DuckdbLerobot.Video.WindowRequests
import DuckdbLerobot.Video.FrameJoin
import DuckdbLerobot.Video.WindowAgreement
