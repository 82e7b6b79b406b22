import ProtobufSandbox.Foundation.TransitionSystem
import ProtobufSandbox.Foundation.Separator
import ProtobufSandbox.Foundation.History
import ProtobufSandbox.Foundation.Varint
import ProtobufSandbox.Foundation.Decimal
import ProtobufSandbox.Foundation.Outcome
import ProtobufSandbox.Foundation.KeyedList
import ProtobufSandbox.Bytes
import ProtobufSandbox.Socket.LinuxSocket
import ProtobufSandbox.Socket.Ownership
import ProtobufSandbox.Socket.StateCoherence
import ProtobufSandbox.Transport.SocketTransport
import ProtobufSandbox.Transport.Framing
import ProtobufSandbox.Transport.Descriptors
import ProtobufSandbox.Transport.Isolation
import ProtobufSandbox.Transport.Segmentation
import ProtobufSandbox.Protocol.Payload
import ProtobufSandbox.Protocol.RequestLeg
import ProtobufSandbox.Processor.CommandProcessor
import ProtobufSandbox.Processor.Replies
import ProtobufSandbox.Processor.CommandQueue
import ProtobufSandbox.Processor.QueueSafety
import ProtobufSandbox.Processor.QueueRefinement
import ProtobufSandbox.Processor.MalformedFrames
import ProtobufSandbox.Processor.ResultAccess
import ProtobufSandbox.Server.ReplyRouting
import ProtobufSandbox.Server.Threads
import ProtobufSandbox.Json.Tree
import ProtobufSandbox.Json.Print
import ProtobufSandbox.Json.Parse
import ProtobufSandbox.Json.Progress
import ProtobufSandbox.Json.Shape
import ProtobufSandbox.Json.Scalars
import ProtobufSandbox.Json.Numbers
import ProtobufSandbox.Json.RoundTrip
import ProtobufSandbox.Json.File
import ProtobufSandbox.Json.Object
import ProtobufSandbox.Json.Attributes
import ProtobufSandbox.Json.Mutation
import ProtobufSandbox.Json.KeyUniqueness
import ProtobufSandbox.Json.Frame
import ProtobufSandbox.Server.StartUp
import ProtobufSandbox.Json.Coherence
import ProtobufSandbox.Json.Remainder
import ProtobufSandbox.Socket.Arrivals
import ProtobufSandbox.Protocol.ResponseLeg
import ProtobufSandbox.Json.GetAfterSet
import ProtobufSandbox.Json.CaseNames
import ProtobufSandbox.Json.RPCObject
import ProtobufSandbox.Json.Merge
import ProtobufSandbox.Json.NumberCopies
import ProtobufSandbox.Json.Diff
import ProtobufSandbox.Json.DiffWalk
import ProtobufSandbox.Json.DiffTurn
import ProtobufSandbox.Json.Termination
import ProtobufSandbox.Json.DiffStrings
import ProtobufSandbox.Json.DiffEntries
import ProtobufSandbox.Json.DiffOversights
import ProtobufSandbox.Foundation.LinkedChain
import ProtobufSandbox.Json.Store
import ProtobufSandbox.Json.StoreTrees
import ProtobufSandbox.Json.StoreReplacement
import ProtobufSandbox.Json.StoreSetter
import ProtobufSandbox.Json.LiveWrites
import ProtobufSandbox.Socket.ReadLine
import ProtobufSandbox.Socket.LineEnds
import ProtobufSandbox.Socket.LineStream
import ProtobufSandbox.Protocol.ShortWrites
import ProtobufSandbox.Json.ParamStorage
import ProtobufSandbox.Foundation.OrderedMap
import ProtobufSandbox.Foundation.StringStream
import ProtobufSandbox.Json.NumberMaps
import ProtobufSandbox.Json.NumberMapFailures
import ProtobufSandbox.Foundation.Grammar
import ProtobufSandbox.Json.Scan
import ProtobufSandbox.Json.TextGrammar
import ProtobufSandbox.Json.BufferReads
import ProtobufSandbox.Json.AttributeSearch
import ProtobufSandbox.Json.ArrayItems
import ProtobufSandbox.Json.ItemAccess
import ProtobufSandbox.Client.QueryReplies
import ProtobufSandbox.Client.LineReads
import ProtobufSandbox.Processor.QuerySamples
import ProtobufSandbox.Transport.ReadBuffer
import ProtobufSandbox.Transport.ReceiveModes
import ProtobufSandbox.Foundation.Heap
import ProtobufSandbox.Json.PrintMemory
import ProtobufSandbox.Json.NumberWidths
import ProtobufSandbox.Json.PrintSafety
import ProtobufSandbox.Json.ItemMemory
import ProtobufSandbox.Json.ParseMemory
import ProtobufSandbox.Json.Minify
import ProtobufSandbox.Json.MinifiedPrints
import ProtobufSandbox.Json.LocalReads
import ProtobufSandbox.Json.MinifiedParses
import ProtobufSandbox.Foundation.Cells
import ProtobufSandbox.Json.StoreCells
import ProtobufSandbox.Json.StoreForest
import ProtobufSandbox.Foundation.LinkedForest
import ProtobufSandbox.Json.StoreSessions
import ProtobufSandbox.Foundation.JsonText
import ProtobufSandbox.Json.TextMeaning
import ProtobufSandbox.Json.ValueMeaning
import ProtobufSandbox.Json.PrintMeaning
import ProtobufSandbox.Json.MinifiedMeaning
import ProtobufSandbox.Json.NumberAccuracy
import ProtobufSandbox.Server.Pipeline
import ProtobufSandbox.Json.NotFinite
import ProtobufSandbox.Protocol.WireFormat
import ProtobufSandbox.Json.PrintRequests
