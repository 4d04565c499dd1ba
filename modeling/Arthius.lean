import Arthius.Lib.Machine
import Arthius.Lib.KeyedList
import Arthius.Lib.Loop
import Arthius.Lib.EulerMotion
import Arthius.Lib.ObjectArray
import Arthius.Lib.FilePath
import Arthius.Lib.Polyline
import Arthius.Lib.RadialClamp
import Arthius.Lib.BinaryRounding
import Arthius.Lib.LittleEndian
import Arthius.Lib.LeftBuffer
import Arthius.Lib.Alignment
import Arthius.Lib.Attempt
import Arthius.Lib.Draining
import Arthius.Source.Geometry
import Arthius.Source.LevelData
import Arthius.Source.DownloadCounter
import Arthius.Source.ProgressHandler
import Arthius.Source.ViewController
import Arthius.Source.ColorBox
import Arthius.Source.PredictedPaths
import Arthius.Source.LevelView
import Arthius.Source.WellStage
import Arthius.Source.DoubleRounding
import Arthius.Source.LevelRun
import Arthius.Source.CreateLevelView
import Arthius.Source.PublishLevel
import Arthius.Source.LevelTexts
import Arthius.Source.LevelFiles
import Arthius.Source.GlobalLevels
import Arthius.Source.GlobalLevelSelect
import Arthius.Source.CampaignPlay
import Arthius.Source.LevelViews
import Arthius.Source.Thumbnail
import Arthius.Source.FlatBuffersScalars
import Arthius.Source.FlatBuffersBuilder
import Arthius.Source.FlatBuffersReader
import Arthius.Source.FlatBuffersTables
import Arthius.Source.LevelFB
import Arthius.Source.ProgressFB
import Arthius.Source.DataCompression
import Arthius.Source.StoredFiles
import Arthius.Source.SharedLevels
import Arthius.Guarantees.BinaryDocument
import Arthius.Guarantees.BinaryReading
import Arthius.Guarantees.BinaryWriting
import Arthius.Guarantees.VTableSharing
import Arthius.Guarantees.TableWriting
import Arthius.Guarantees.DocumentWriting
import Arthius.Guarantees.DocumentReading
import Arthius.Guarantees.LevelFormat
import Arthius.Guarantees.LevelEncoding
import Arthius.Guarantees.ProgressEncoding
import Arthius.Guarantees.UntrustedFiles
import Arthius.Guarantees.Checksum
import Arthius.Guarantees.Compression
import Arthius.Guarantees.DownloadCounterAccounting
import Arthius.Guarantees.ShardPresence
import Arthius.Guarantees.ListedFiles
import Arthius.Guarantees.AppSteps
import Arthius.Guarantees.ProgressFrame
import Arthius.Guarantees.ProgressSurvival
import Arthius.Guarantees.CampaignPlayable
import Arthius.Guarantees.CurrentScreen
import Arthius.Guarantees.ColorGate
import Arthius.Guarantees.PredictionFrame
import Arthius.Guarantees.PredictionFreshness
import Arthius.Guarantees.PredictionTermination
import Arthius.Guarantees.ForceLaw
import Arthius.Guarantees.DrawnSegments
import Arthius.Guarantees.PlayerWells
import Arthius.Guarantees.StaleFlags
import Arthius.Guarantees.PredictionRepeat
import Arthius.Guarantees.ScaledStage
import Arthius.Guarantees.PredictionScaling
import Arthius.Guarantees.EditorSync
import Arthius.Guarantees.LineIndependence
import Arthius.Guarantees.CentreAvoidance
import Arthius.Guarantees.WellOrder
import Arthius.Guarantees.WellGeometry
import Arthius.Guarantees.TextsShownOnce
import Arthius.Guarantees.TextLabel
import Arthius.Guarantees.LevelPaths
import Arthius.Guarantees.LevelContainment
import Arthius.Guarantees.LevelRoundTrip
import Arthius.Guarantees.StoredFiles
import Arthius.Guarantees.SharedLevels
import Arthius.Guarantees.Resaving
import Arthius.Guarantees.GlobalListDelivery
import Arthius.Guarantees.NewestList
import Arthius.Guarantees.CampaignGating
import Arthius.Guarantees.WellConsistency
import Arthius.Guarantees.WellProjection
import Arthius.Guarantees.VelocityBounds
import Arthius.Guarantees.CrashAtomicity
import Arthius.Guarantees.CorruptFiles
import Arthius.Guarantees.BundleSync
import Arthius.Guarantees.TileLayout
import Arthius.Guarantees.DetailViewFlag
import Arthius.Guarantees.ThumbnailRegion
import Arthius.Guarantees.RunAccounting
import Arthius.Guarantees.WinCondition
import Arthius.Guarantees.PreviewProgress
