import RimeWinime.Gateway.Agreement
import RimeWinime.Gateway.Backends
import RimeWinime.Gateway.Calls
import RimeWinime.Gateway.CandidatePage
import RimeWinime.Gateway.FailedOperation
import RimeWinime.Gateway.FrameCodec
import RimeWinime.Gateway.HostTyping
import RimeWinime.Gateway.ImeClient
import RimeWinime.Gateway.Ipc
import RimeWinime.Gateway.LegacyWire
import RimeWinime.Gateway.Lending
import RimeWinime.Gateway.Observation
import RimeWinime.Gateway.Partition
import RimeWinime.Gateway.ProcessAccount
import RimeWinime.Gateway.QueryCache
import RimeWinime.Gateway.Reaping
import RimeWinime.Gateway.ReplyPairing
import RimeWinime.Gateway.Resets
import RimeWinime.Gateway.Sequence
import RimeWinime.Gateway.Service
import RimeWinime.Gateway.Solo
import RimeWinime.Gateway.Steps
import RimeWinime.Gateway.Survival
import RimeWinime.Gateway.Trace
import RimeWinime.Gateway.UnreadLines
import RimeWinime.Gateway.VersionCounter
import RimeWinime.Gateway.Versions
import RimeWinime.Gateway.Worker
import RimeWinime.Gateway.WorkerIsolation
import RimeWinime.Gateway.WorkerLoop
import RimeWinime.Host.CandidateBounds
import RimeWinime.Host.CandidateLayout
import RimeWinime.Host.ChannelAdapter
import RimeWinime.Host.CharMessages
import RimeWinime.Host.CompositionOffsets
import RimeWinime.Host.DigitSelection
import RimeWinime.Host.Isolation
import RimeWinime.Host.IssuedIds
import RimeWinime.Host.KeyTranslation
import RimeWinime.Host.PagedSelection
import RimeWinime.Host.Replay
import RimeWinime.Host.SessionTable
import RimeWinime.Lib.Gaps
import RimeWinime.Lib.LittleEndian
import RimeWinime.Lib.Reports
import RimeWinime.Lib.Table
import RimeWinime.Remote.AsciiMode
import RimeWinime.Remote.CandidatePositions
import RimeWinime.Remote.ClientPool
import RimeWinime.Remote.Delivery
import RimeWinime.Remote.Engines
import RimeWinime.Remote.HookedSelection
import RimeWinime.Remote.Lifetimes
import RimeWinime.Remote.MenuBounds
import RimeWinime.Remote.Orphans
import RimeWinime.Remote.Ownership
import RimeWinime.Remote.Proxy
import RimeWinime.Remote.SelectKeys
import RimeWinime.Remote.SnapshotTexts
import RimeWinime.Remote.Toggle
import RimeWinime.Skeleton.Account
import RimeWinime.Skeleton.Bounds
import RimeWinime.Skeleton.ReplyDecoded
import RimeWinime.Skeleton.RxBuffer
import RimeWinime.Skeleton.Serving
import RimeWinime.Win32Proxy.Sockets
import RimeWinime.Win32Proxy.Translator
import RimeWinime.WinImm.ForcedReal
import RimeWinime.WinImm.Strokes
