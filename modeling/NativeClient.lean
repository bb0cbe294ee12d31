import NativeClient.Validator64.MemorySandbox
import NativeClient.Validator64.RegisterDiscipline
import NativeClient.Runtime.CreateAtomicity
import NativeClient.ValidatorArm.StackDiscipline
import NativeClient.DecoderGenerator.Decoding
import NativeClient.Srpc.RoundTrip
import NativeClient.Srpc.PeerSafety
import NativeClient.Srpc.ArgumentTransfer
import NativeClient.Srpc.GenuineResults
import NativeClient.Desc.ReceiveReports
import NativeClient.Imc.OsxFraming
import NativeClient.Variants.RoundTrip
import NativeClient.Variants.Bounds
import NativeClient.Gio.GrowingFile
import NativeClient.Fs.ProxyTables
import NativeClient.Sync.IntrMutexRuns
import NativeClient.Sync.ConditionVariableRuns
import NativeClient.OuterSandbox.FilterRuns
import NativeClient.Srpc.ArgumentLengths
import NativeClient.Srpc.ArgumentCleanup
import NativeClient.ValidatorArm.FallthroughBounds
import NativeClient.Desc.QuotaCharges
import NativeClient.Gio.FixedFile
import NativeClient.Gdb.FrameRoundTrip
import NativeClient.Platform.SecureRandom
import NativeClient.Runtime.EnvCleanser
import NativeClient.Platform.CheckedCast
import NativeClient.Plugin.SharedMemoryWrites
import NativeClient.Plugin.NexeArch
import NativeClient.Plugin.ParameterLifetimes
import NativeClient.Callbacks.CallbackTables
import NativeClient.Sync.SyncQueue
import NativeClient.Variants.Secrecy
import NativeClient.Gio.GioMem
import NativeClient.Runtime.RegionSearch
import NativeClient.Runtime.InitialCopy
import NativeClient.HostDir.InodeScrub
import NativeClient.HostDir.WinGetdents
import NativeClient.Desc.WrappedMessages
import NativeClient.Runtime.WritableMapping
import NativeClient.Validator32.StubbedTwice
import NativeClient.Validator64.StubbedText
import NativeClient.Runtime.RemoveMarked
import NativeClient.Runtime.FreeSpace
import NativeClient.ValidatorArm.AddressSetArray
import NativeClient.Runtime.MainThread
import NativeClient.Loader.TextConfinement
import NativeClient.Validator64.ExpressionTrees
import NativeClient.Decoder64.LookbackRings
import NativeClient.Sync.ThreadKeys
