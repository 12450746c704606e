import Qwin.Library.Run
import Qwin.Library.Window
import Qwin.Limiter.Model
import Qwin.Limiter.Handler
import Qwin.Limiter.Step
import Qwin.Limiter.Client
import Qwin.Limiter.Epochs
import Qwin.Limiter.Connections
import Qwin.Limiter.Quota
import Qwin.Proxy.Model
import Qwin.Proxy.Step
import Qwin.Proxy.Integrity
import Qwin.Emulator.InfoReply
import Qwin.Proxy.Listening
import Qwin.Proxy.Startup
import Qwin.Emulator.Dispatch
import Qwin.Limiter.Accounting
import Qwin.Limiter.Loosening
import Qwin.Pool.LostWork
import Qwin.Proxy.PortLoops
import Qwin.Proxy.Reflection
import Qwin.Limiter.Agreement
import Qwin.Limiter.Outage
import Qwin.Limiter.Pruning
import Qwin.Emulator.Bounds
import Qwin.Emulator.MasterPacket
import Qwin.Config.Load
import Qwin.Proxy.FailedStart
import Qwin.Proxy.Calls
import Qwin.Proxy.Whole
import Qwin.Library.Simulation
import Qwin.Library.Ledger
import Qwin.Emulator.Reports
import Qwin.Proxy.Refinement
import Qwin.Proxy.Lifetime
import Qwin.Pool.Progress
import Qwin.Program.Main
import Qwin.Limiter.Plain
import Qwin.Library.Tags
import Qwin.Log.Journal
import Qwin.Log.Replay
import Qwin.Library.Lines
import Qwin.Log.Files
import Qwin.Library.Loop
import Qwin.Library.Utf8
import Qwin.Parser.Lexer
import Qwin.Library.JsonText
import Qwin.Parser.Strings
import Qwin.Parser.StringText
import Qwin.Parser.Numbers
import Qwin.Parser.Tokens
import Qwin.Parser.Document
import Qwin.Parser.Frames
import Qwin.Parser.Parser
import Qwin.Parser.Meaning
import Qwin.Parser.NumberText
import Qwin.Parser.TokenText
import Qwin.Parser.Completeness
import Qwin.Parser.Soundness
import Qwin.Parser.Texts
import Qwin.Library.JsonWriter
import Qwin.Config.Document
import Qwin.Config.File
import Qwin.Parser.Positions
