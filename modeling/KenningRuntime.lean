import KenningRuntime.Library.LittleEndian
import KenningRuntime.Library.ByteSource
import KenningRuntime.Library.Chunks
import KenningRuntime.Library.Memory
import KenningRuntime.Library.Transition
import KenningRuntime.Library.Lifetime
import KenningRuntime.Library.Trace
import KenningRuntime.Library.SizedEntries
import KenningRuntime.Library.Ledger
import KenningRuntime.Library.Slices
import KenningRuntime.Library.Ownership
import KenningRuntime.Status
import KenningRuntime.Loaders
import KenningRuntime.MessageHeader
import KenningRuntime.KenningProtocol
import KenningRuntime.Framing
import KenningRuntime.Reception
import KenningRuntime.MessageRun
import KenningRuntime.Listening
import KenningRuntime.LoaderSimulation
import KenningRuntime.BufferReception
import KenningRuntime.Capacity
import KenningRuntime.History
import KenningRuntime.Resynchronisation
import KenningRuntime.Grammar
import KenningRuntime.RoundTrip
import KenningRuntime.ModelSpec
import KenningRuntime.Model
import KenningRuntime.ModelFrame
import KenningRuntime.Readiness
import KenningRuntime.Callbacks
import KenningRuntime.InferenceServer
import KenningRuntime.ServerFrame
import KenningRuntime.Responses
import KenningRuntime.SpecInvariant
import KenningRuntime.RuntimeTflite
import KenningRuntime.Interpreter
import KenningRuntime.InterpreterLifetime
import KenningRuntime.RuntimeLlext
import KenningRuntime.ExtensionPointers
import KenningRuntime.ExtensionLifetime
import KenningRuntime.TensorSizes
import KenningRuntime.OutputCopy
import KenningRuntime.RuntimeAi8x
import KenningRuntime.CnnLoading
import KenningRuntime.RuntimeEmlearn
import KenningRuntime.Benchmark
import KenningRuntime.EmlearnInput
import KenningRuntime.LoaderPointers
import KenningRuntime.CallOrder
import KenningRuntime.Logger
import KenningRuntime.LogStream
import KenningRuntime.Transmission
import KenningRuntime.Reentrancy
import KenningRuntime.LlextHeap
import KenningRuntime.ElfOwnership
import KenningRuntime.ElfLifetime
import KenningRuntime.CnnCompletion
import KenningRuntime.EntryBounds
import KenningRuntime.CnnInput
import KenningRuntime.ImageReception
import KenningRuntime.Statistics
import KenningRuntime.TvmGraph
import KenningRuntime.TvmHeap
import KenningRuntime.IreeHeap
import KenningRuntime.InputLayout
import KenningRuntime.OutputBounds
import KenningRuntime.OutputStorage
import KenningRuntime.PlannedBuffers
import KenningRuntime.IreeReferences
import KenningRuntime.Segmentation
import KenningRuntime.SpecAcceptance
import KenningRuntime.Uart
import KenningRuntime.TraceDelivery
import KenningRuntime.LogEntries
import KenningRuntime.RenderChunks
import KenningRuntime.SessionBackends
import KenningRuntime.ExtensionSession
import KenningRuntime.TvmInference
import KenningRuntime.LoggedServer
import KenningRuntime.UartSession
import KenningRuntime.SpecGenerator
