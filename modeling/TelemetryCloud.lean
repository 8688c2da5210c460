import TelemetryCloud.AnalysisMemo
import TelemetryCloud.AnalysisRows
import TelemetryCloud.AnalysisRuns
import TelemetryCloud.AnalysisService
import TelemetryCloud.BestSectors
import TelemetryCloud.BrakingBurst
import TelemetryCloud.BrakingZones
import TelemetryCloud.BrowserSession
import TelemetryCloud.Calls
import TelemetryCloud.CanvasViewport
import TelemetryCloud.CarAccess
import TelemetryCloud.CarCredentials
import TelemetryCloud.CarRevocation
import TelemetryCloud.Cars
import TelemetryCloud.ChartView
import TelemetryCloud.CircuitOutline
import TelemetryCloud.Components
import TelemetryCloud.Decimation
import TelemetryCloud.Derivation
import TelemetryCloud.DerivedGates
import TelemetryCloud.EventLoop
import TelemetryCloud.Extents
import TelemetryCloud.FixedGates
import TelemetryCloud.Gates
import TelemetryCloud.Geometry
import TelemetryCloud.IngestLifecycle
import TelemetryCloud.IngestProvenance
import TelemetryCloud.IngestReplay
import TelemetryCloud.IngestService
import TelemetryCloud.IngestSystem
import TelemetryCloud.IngestWire
import TelemetryCloud.IngestWriter
import TelemetryCloud.Interpolation
import TelemetryCloud.LapAnalysis
import TelemetryCloud.LapComparison
import TelemetryCloud.LapMarkers
import TelemetryCloud.LapSegmenter
import TelemetryCloud.LapTrace
import TelemetryCloud.LineChart
import TelemetryCloud.Lists
import TelemetryCloud.LiveBuffers
import TelemetryCloud.LiveBus
import TelemetryCloud.LiveChannels
import TelemetryCloud.LiveDelivery
import TelemetryCloud.LiveGateway
import TelemetryCloud.LivePath
import TelemetryCloud.LiveViewers
import TelemetryCloud.MqttAdmin
import TelemetryCloud.MqttBroker
import TelemetryCloud.MqttQueue
import TelemetryCloud.MqttTopics
import TelemetryCloud.OptimalBraking
import TelemetryCloud.OptimalLap
import TelemetryCloud.OptimalTimes
import TelemetryCloud.OptimalTrace
import TelemetryCloud.OutlineListing
import TelemetryCloud.RacingLine
import TelemetryCloud.ReplaySources
import TelemetryCloud.Repository
import TelemetryCloud.RingSweep
import TelemetryCloud.RingWalk
import TelemetryCloud.RingWinding
import TelemetryCloud.Rounding
import TelemetryCloud.Runs
import TelemetryCloud.SampleTable
import TelemetryCloud.SectorGates
import TelemetryCloud.SectorSplits
import TelemetryCloud.SessionClosing
import TelemetryCloud.SessionScope
import TelemetryCloud.SlidingSession
import TelemetryCloud.SpeedProfile
import TelemetryCloud.TeamConsent
import TelemetryCloud.TeamOwners
import TelemetryCloud.TeamProtocol
import TelemetryCloud.Teams
import TelemetryCloud.TelemetryBuckets
import TelemetryCloud.TokenRevocation
import TelemetryCloud.TraceAxis
import TelemetryCloud.TraceBrackets
import TelemetryCloud.TrackGates
import TelemetryCloud.TrackMapBuilder
import TelemetryCloud.TrackMapRetries
import TelemetryCloud.TrackMapService
import TelemetryCloud.Trails
import TelemetryCloud.WriterQueue
