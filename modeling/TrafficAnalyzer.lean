import TrafficAnalyzer.Lib.Bytes
import TrafficAnalyzer.Lib.Slots
import TrafficAnalyzer.Lib.Lts
import TrafficAnalyzer.Lib.Simulation
import TrafficAnalyzer.Lib.Double
import TrafficAnalyzer.Lib.RealDouble
import TrafficAnalyzer.Lib.Smear
import TrafficAnalyzer.Lib.BoundedQueue
import TrafficAnalyzer.Lib.Ledger
import TrafficAnalyzer.Lib.LineTokens
import TrafficAnalyzer.Lib.CText
import TrafficAnalyzer.Lib.Defaults
import TrafficAnalyzer.Lib.Recency
import TrafficAnalyzer.Lib.FirstSeen
import TrafficAnalyzer.Lib.Joined
import TrafficAnalyzer.Lib.Tumbling
import TrafficAnalyzer.Lib.WrapCount
import TrafficAnalyzer.Lib.LineProtocol
import TrafficAnalyzer.Lib.StringField
import TrafficAnalyzer.Lib.Printf
import TrafficAnalyzer.Lib.ReadDecimal
import TrafficAnalyzer.Lib.Strtod
import TrafficAnalyzer.Lib.Backoff
import TrafficAnalyzer.Lib.PrintBuffer
import TrafficAnalyzer.Lib.Chains
import TrafficAnalyzer.Lib.Spans
import TrafficAnalyzer.Lib.Renumber
import TrafficAnalyzer.Lib.Ewma
import TrafficAnalyzer.Agent.Wire
import TrafficAnalyzer.Agent.Records
import TrafficAnalyzer.Agent.Baseline
import TrafficAnalyzer.Agent.KillChain
import TrafficAnalyzer.Agent.Detectors
import TrafficAnalyzer.Agent.Analyzer
import TrafficAnalyzer.Agent.Frames
import TrafficAnalyzer.Agent.Steps
import TrafficAnalyzer.Agent.Runs
import TrafficAnalyzer.Agent.Soundness
import TrafficAnalyzer.Agent.Correlation
import TrafficAnalyzer.Agent.Incidents
import TrafficAnalyzer.Agent.Severity
import TrafficAnalyzer.Agent.AuthWindow
import TrafficAnalyzer.Agent.PortScan
import TrafficAnalyzer.Agent.Floods
import TrafficAnalyzer.Agent.Reflectors
import TrafficAnalyzer.Agent.Windows
import TrafficAnalyzer.Agent.Thresholds
import TrafficAnalyzer.Agent.DnsNames
import TrafficAnalyzer.Agent.DnsVolume
import TrafficAnalyzer.Agent.Feeding
import TrafficAnalyzer.Agent.Masking
import TrafficAnalyzer.Agent.Tables
import TrafficAnalyzer.Agent.Coverage
import TrafficAnalyzer.Agent.Isolation
import TrafficAnalyzer.Agent.HomeNet
import TrafficAnalyzer.Agent.Config
import TrafficAnalyzer.Agent.EnvFile
import TrafficAnalyzer.Agent.RingBuf
import TrafficAnalyzer.Agent.RingSize
import TrafficAnalyzer.Agent.RingSlots
import TrafficAnalyzer.Agent.StopRequest
import TrafficAnalyzer.Agent.RingQueue
import TrafficAnalyzer.Agent.Pipeline
import TrafficAnalyzer.Agent.Publication
import TrafficAnalyzer.Agent.Sequential
import TrafficAnalyzer.Agent.Reconnect
import TrafficAnalyzer.Agent.Batch
import TrafficAnalyzer.Server.Scaler
import TrafficAnalyzer.Server.Pool
import TrafficAnalyzer.Server.Shutdown
import TrafficAnalyzer.Server.PoolOrder
import TrafficAnalyzer.Server.ScalerLoop
import TrafficAnalyzer.Server.Json
import TrafficAnalyzer.Cjson.Parse
import TrafficAnalyzer.Cjson.ParseSafety
import TrafficAnalyzer.Cjson.Numbers
import TrafficAnalyzer.Cjson.Text
import TrafficAnalyzer.Cjson.Print
import TrafficAnalyzer.Cjson.RoundTrip
import TrafficAnalyzer.Server.Ioc
import TrafficAnalyzer.Server.Abuse
import TrafficAnalyzer.Server.Whois
import TrafficAnalyzer.Server.TrafficPoint
import TrafficAnalyzer.Server.LineSafety
import TrafficAnalyzer.Server.Influx
import TrafficAnalyzer.Server.LineBuffer
import TrafficAnalyzer.Server.Delivery
import TrafficAnalyzer.Server.Consumer
import TrafficAnalyzer.Server.Drain
import TrafficAnalyzer.Server.Narration
import TrafficAnalyzer.Server.Escalation
import TrafficAnalyzer.Server.NarrativeField
import TrafficAnalyzer.Server.MetricsPoint
import TrafficAnalyzer.Agent.Collector
import TrafficAnalyzer.Agent.Agreement
import TrafficAnalyzer.Agent.Scoring
import TrafficAnalyzer.Agent.ReplayModes
import TrafficAnalyzer.Agent.LiveReplay
import TrafficAnalyzer.Control.Commands
import TrafficAnalyzer.Control.Replay
import TrafficAnalyzer.Control.Atomic
import TrafficAnalyzer.Control.Dashboards
