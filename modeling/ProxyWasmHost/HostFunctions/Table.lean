/-
  The table of the host functions, and what a call of one gives the guest.
-/
import ProxyWasmHost.HostFunctions.Shared
import ProxyWasmHost.HostFunctions.Callout
import ProxyWasmHost.HostFunctions.Wasi

namespace ProxyWasmHost

/-- A call of a host function, with the arguments the guest passes. -/
inductive HostCall where
  | proxyDone
  | proxySetEffectiveContext (contextId : I32)
  | proxyLog (logLevel messageData messageSize : I32)
  | proxyGetLogLevel (returnLogLevel : I32)
  | proxyGetCurrentTimeNanoseconds (returnTime : I32)
  | proxySetTickPeriodMilliseconds (tickPeriod : I32)
  | proxySetBufferBytes (bufferId start size valueData valueSize : I32)
  | proxyGetBufferBytes (bufferId start maxSize returnValueData returnValueSize : I32)
  | proxyGetBufferStatus (bufferId returnBufferSize returnUnused : I32)
  | proxyGetHeaderMapSize (mapId returnSize : I32)
  | proxyGetHeaderMapPairs (mapId returnData returnSize : I32)
  | proxySetHeaderMapPairs (mapId serializedPairsData serializedPairsSize : I32)
  | proxyGetHeaderMapValue (mapId keyData keySize returnData returnSize : I32)
  | proxyAddHeaderMapValue (mapId keyData keySize valueData valueSize : I32)
  | proxyReplaceHeaderMapValue (mapId keyData keySize valueData valueSize : I32)
  | proxyRemoveHeaderMapValue (mapId keyData keySize : I32)
  | proxyContinueStream (streamType : I32)
  | proxyCloseStream (streamType : I32)
  | proxyGetStatus (returnStatusCode returnStatusMessageData returnStatusMessageSize : I32)
  | proxySendLocalResponse (statusCode statusCodeDetailsData statusCodeDetailsSize bodyData
      bodySize serializedHeadersData serializedHeadersSize grpcStatus : I32)
  | proxyHttpCall (upstreamNameData upstreamNameSize serializedHeadersData
      serializedHeadersSize bodyData bodySize serializedTrailersData serializedTrailersSize
      timeout returnCallId : I32)
  | proxyGrpcCall (upstreamNameData upstreamNameSize serviceNameData serviceNameSize
      methodNameData methodNameSize serializedInitialMetadataData
      serializedInitialMetadataSize messageData messageSize timeout returnCallId : I32)
  | proxyGrpcStream (upstreamNameData upstreamNameSize serviceNameData serviceNameSize
      methodNameData methodNameSize serializedInitialMetadataData
      serializedInitialMetadataSize returnStreamId : I32)
  | proxyGrpcSend (streamId messageData messageSize endStream : I32)
  | proxyGrpcCancel (callOrStreamId : I32)
  | proxyGrpcClose (callOrStreamId : I32)
  | proxySetSharedData (keyData keySize valueData valueSize cas : I32)
  | proxyGetSharedData (keyData keySize returnValueData returnValueSize returnCas : I32)
  | proxyRegisterSharedQueue (nameData nameSize returnQueueId : I32)
  | proxyResolveSharedQueue (vmIdData vmIdSize nameData nameSize returnQueueId : I32)
  | proxyEnqueueSharedQueue (queueId valueData valueSize : I32)
  | proxyDequeueSharedQueue (queueId returnValueData returnValueSize : I32)
  | proxyDefineMetric (metricType nameData nameSize returnMetricId : I32)
  | proxyRecordMetric (metricId : I32) (value : I64)
  | proxyIncrementMetric (metricId : I32) (delta : I64)
  | proxyGetMetric (metricId returnValue : I32)
  | proxyGetProperty (pathData pathSize returnValueData returnValueSize : I32)
  | proxySetProperty (pathData pathSize valueData valueSize : I32)
  | proxyCallForeignFunction (nameData nameSize argumentsData argumentsSize
      returnResultsData returnResultsSize : I32)
  | fdWrite (fd iovs iovsLen nwritten : I32)
  | clockTimeGet (id : I32) (precision : I64) (time : I32)
  | randomGet (buf len : I32)
  | environSizesGet (countPtr sizePtr : I32)
  | environGet (array buffer : I32)
  | argsSizesGet (argc size : I32)
  | argsGet (argv buf : I32)
  | procExit (code : I32)

/-- Turns a body's result into what the guest receives. -/
def complete (body : Body Unit) : Host I32 := do
  match ← Prog.attempt body with
  | .ok () => return Status.ok.toI32
  | .error (.status status) => return status.toI32
  | .error (.unwind error _) => Prog.throw error

def errno (body : Wasi Unit) : Host I32 := do
  match ← Prog.attempt body with
  | .ok () => return WasiErrno.success.toI32
  | .error errno => return errno.toI32

/-- What a call of a host function does, and what the guest receives. -/
def HostCall.run (env : Env) : HostCall → Host I32
  | .proxyDone => complete ProxyWasmHost.proxyDone
  | .proxySetEffectiveContext a => complete (ProxyWasmHost.proxySetEffectiveContext a)
  | .proxyLog a b c => complete (ProxyWasmHost.proxyLog env a b c)
  | .proxyGetLogLevel a => complete (ProxyWasmHost.proxyGetLogLevel a)
  | .proxyGetCurrentTimeNanoseconds a =>
    complete (ProxyWasmHost.proxyGetCurrentTimeNanoseconds env a)
  | .proxySetTickPeriodMilliseconds a => complete (ProxyWasmHost.proxySetTickPeriodMilliseconds a)
  | .proxySetBufferBytes a b c d e => complete (ProxyWasmHost.proxySetBufferBytes env a b c d e)
  | .proxyGetBufferBytes a b c d e => complete (ProxyWasmHost.proxyGetBufferBytes env a b c d e)
  | .proxyGetBufferStatus a b c => complete (ProxyWasmHost.proxyGetBufferStatus env a b c)
  | .proxyGetHeaderMapSize a b => complete (ProxyWasmHost.proxyGetHeaderMapSize env a b)
  | .proxyGetHeaderMapPairs a b c => complete (ProxyWasmHost.proxyGetHeaderMapPairs env a b c)
  | .proxySetHeaderMapPairs a b c => complete (ProxyWasmHost.proxySetHeaderMapPairs env a b c)
  | .proxyGetHeaderMapValue a b c d e =>
    complete (ProxyWasmHost.proxyGetHeaderMapValue env a b c d e)
  | .proxyAddHeaderMapValue a b c d e =>
    complete (ProxyWasmHost.proxyAddHeaderMapValue env a b c d e)
  | .proxyReplaceHeaderMapValue a b c d e =>
    complete (ProxyWasmHost.proxyReplaceHeaderMapValue env a b c d e)
  | .proxyRemoveHeaderMapValue a b c =>
    complete (ProxyWasmHost.proxyRemoveHeaderMapValue env a b c)
  | .proxyContinueStream a => complete (ProxyWasmHost.proxyContinueStream env a)
  | .proxyCloseStream a => complete (ProxyWasmHost.proxyCloseStream env a)
  | .proxyGetStatus a b c => complete (ProxyWasmHost.proxyGetStatus env a b c)
  | .proxySendLocalResponse a b c d e f g h =>
    complete (ProxyWasmHost.proxySendLocalResponse env a b c d e f g h)
  | .proxyHttpCall a b c d e f g h i j =>
    complete (ProxyWasmHost.proxyHttpCall env a b c d e f g h i j)
  | .proxyGrpcCall a b c d e f g h i j k l =>
    complete (ProxyWasmHost.proxyGrpcCall env a b c d e f g h i j k l)
  | .proxyGrpcStream a b c d e f g h i =>
    complete (ProxyWasmHost.proxyGrpcStream env a b c d e f g h i)
  | .proxyGrpcSend a b c d => complete (ProxyWasmHost.proxyGrpcSend env a b c d)
  | .proxyGrpcCancel a => complete (ProxyWasmHost.proxyGrpcCancel env a)
  | .proxyGrpcClose a => complete (ProxyWasmHost.proxyGrpcClose env a)
  | .proxySetSharedData a b c d e => complete (ProxyWasmHost.proxySetSharedData env a b c d e)
  | .proxyGetSharedData a b c d e => complete (ProxyWasmHost.proxyGetSharedData env a b c d e)
  | .proxyRegisterSharedQueue a b c => complete (ProxyWasmHost.proxyRegisterSharedQueue env a b c)
  | .proxyResolveSharedQueue a b c d e =>
    complete (ProxyWasmHost.proxyResolveSharedQueue env a b c d e)
  | .proxyEnqueueSharedQueue a b c => complete (ProxyWasmHost.proxyEnqueueSharedQueue env a b c)
  | .proxyDequeueSharedQueue a b c => complete (ProxyWasmHost.proxyDequeueSharedQueue env a b c)
  | .proxyDefineMetric a b c d => complete (ProxyWasmHost.proxyDefineMetric env a b c d)
  | .proxyRecordMetric a b => complete (ProxyWasmHost.proxyRecordMetric env a b)
  | .proxyIncrementMetric a b => complete (ProxyWasmHost.proxyIncrementMetric env a b)
  | .proxyGetMetric a b => complete (ProxyWasmHost.proxyGetMetric env a b)
  | .proxyGetProperty a b c d => complete (ProxyWasmHost.proxyGetProperty env a b c d)
  | .proxySetProperty a b c d => complete (ProxyWasmHost.proxySetProperty env a b c d)
  | .proxyCallForeignFunction a b c d e f =>
    complete (ProxyWasmHost.proxyCallForeignFunction env a b c d e f)
  | .fdWrite a b c d => errno (Wasi.fdWrite env a b c d)
  | .clockTimeGet a _ c => errno (Wasi.clockTimeGet env a c)
  | .randomGet a b => errno (Wasi.randomGet env a b)
  | .environSizesGet a b => errno (Wasi.environSizesGet a b)
  | .environGet a b => errno (Wasi.environGet a b)
  | .argsSizesGet a b => errno (Wasi.argsSizesGet a b)
  | .argsGet _ _ => return WasiErrno.success.toI32
  | .procExit code => Prog.throw (.guestExit code)

end ProxyWasmHost
