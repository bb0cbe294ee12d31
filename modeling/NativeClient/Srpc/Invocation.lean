import NativeClient.Srpc.MessageWrites

/-!
# Waiting for a response

A thread that invokes a method of its peer sends a request and then receives
messages until the response comes.  Requests that arrive before it are served by
the same thread, and the method that serves one may invoke methods of the peer
in turn.  The invocations that wait form a stack.  The state changes only when a
message arrives: the top of the stack gets it.
-/

namespace NativeClient.Srpc

open NativeClient.Library

variable {δ : Type}

/-- `NACL_SRPC_RESULT_BREAK`: a method asks for the loop that called it to
end. -/
def resultBreak : UInt32 := 257

def resultBadRpcNumber : UInt32 := 261

def resultInArgTypeMismatch : UInt32 := 265

def resultOutArgTypeMismatch : UInt32 := 266

def protocolVersion : UInt32 := 0xc0da0002

/-- The code that calls into the peer: the main program or a method of the
server.  `sent` is what `NaClSrpcRequestWrite` returns, and `next` goes on with
the result and the returns. -/
inductive Program (δ : Type) where
  | done (result : UInt32)
  | invoke (rpcNumber : UInt32) (args rets : List (Arg δ)) (sent : Bool)
      (next : UInt32 → List (Arg δ) → Program δ)

structure MethodTypes where
  inputTypes : List UInt8
  outputTypes : List UInt8

structure Method (δ : Type) extends MethodTypes where
  handler : Option (List (Arg δ) → List (Arg δ) → Program δ)

/-- The parts of a channel that stay the same.  Among them is the id of the next
request: no code changes it after the constructor. -/
structure Channel (δ : Type) where
  platform : Platform δ
  client : List MethodTypes
  server : Option (List (Method δ))
  nextOutgoingRequestId : UInt64

/-- A datagram of the peer.  `answers` is the number of the request that it was
produced for, which the datagram does not tell. -/
structure PeerMessage (δ : Type) where
  datagram : Datagram δ
  answers : Option Nat

/-- `endOfStream` stands for every failure to receive. -/
inductive Arrival (δ : Type) where
  | endOfStream
  | message (message : PeerMessage δ)

/-- An invocation that waits.  `number` counts the requests sent so far. -/
structure Pending (δ : Type) where
  number : Nat
  rpc : Rpc
  retTypes : List UInt8
  rets : List (Arg δ)

structure Frame (δ : Type) where
  pending : Pending δ
  next : UInt32 → List (Arg δ) → Program δ

structure Returned (δ : Type) where
  pending : Pending δ
  result : UInt32
  response : Option (PeerMessage δ)

structure Thread (δ : Type) where
  stack : List (Frame δ)
  requests : Nat
  returned : List (Returned δ)

def typeCheckArgs : List UInt8 → List (Arg δ) → Bool
  | [], args => args.isEmpty
  | type :: types, args =>
      if type = ':'.toUInt8 then args.isEmpty
      else
        match args with
        | [] => false
        | arg :: args =>
            (argsGetEltInterface type).isSome && arg.tag == type &&
              typeCheckArgs types args

section Thread

variable (channel : Channel δ)

/-- The checks of `NaClSrpcInvokeV`: the types of the returns, or the error. -/
def checkInvocation (rpcNumber : UInt32) (args rets : List (Arg δ)) (sent : Bool) :
    Except UInt32 (List UInt8) :=
  match channel.client[rpcNumber.toNat]? with
  | none => .error resultBadRpcNumber
  | some types =>
      if ¬typeCheckArgs types.inputTypes args then .error resultInArgTypeMismatch
      else if ¬typeCheckArgs types.outputTypes rets then
        .error resultOutArgTypeMismatch
      else if ¬sent then .error resultInternal
      else .ok types.outputTypes

/-- The result of the call is `OK` from the moment that the request is put
together. -/
def requestRpc (rpcNumber : UInt32) : Rpc where
  protocolVersion := protocolVersion
  requestId := channel.nextOutgoingRequestId
  isRequest := 1
  rpcNumber := rpcNumber
  result := resultOk

/-- Runs a program above the frames `below` until it waits or is done. -/
def runProgram (below : List (Frame δ)) (whenDone : UInt32 → Thread δ → Thread δ) :
    Program δ → Thread δ → Thread δ
  | .done result, thread => whenDone result thread
  | .invoke rpcNumber args rets sent next, thread =>
      match checkInvocation channel rpcNumber args rets sent with
      | .error result => runProgram below whenDone (next result rets) thread
      | .ok retTypes =>
          { thread with
            stack := ⟨⟨thread.requests, requestRpc channel rpcNumber, retTypes,
              rets⟩, next⟩ :: below
            requests := thread.requests + 1 }

def noteReturn (frame : Frame δ) (result : UInt32)
    (response : Option (PeerMessage δ)) (thread : Thread δ) : Thread δ :=
  { thread with
    returned := thread.returned ++ [⟨frame.pending, result, response⟩] }

/-- Goes on with a program above the frames that wait.  When a method is done,
the invocation below waits on, unless the method asks for a break: then the
invocation returns the result as it is. -/
def resume : List (Frame δ) → Program δ → Thread δ → Thread δ
  | [], program, thread =>
      runProgram channel [] (fun _ thread => { thread with stack := [] }) program
        thread
  | frame :: below, program, thread =>
      runProgram channel (frame :: below)
        (fun result thread =>
          if result = resultBreak then
            resume below (frame.next frame.pending.rpc.result frame.pending.rets)
              (noteReturn frame frame.pending.rpc.result none thread)
          else { thread with stack := frame :: below })
        program thread

def returnTo (frame : Frame δ) (below : List (Frame δ)) (result : UInt32)
    (rets : List (Arg δ)) (response : Option (PeerMessage δ))
    (thread : Thread δ) : Thread δ :=
  resume channel below (frame.next result rets)
    (noteReturn frame result response thread)

/-- What `NaClSrpcReceiveAndDispatch` does with a request. -/
def dispatchRequest (frame : Frame δ) (below : List (Frame δ)) (rpc : Rpc)
    (rest : Datagram δ) (thread : Thread δ) : Thread δ :=
  let fail := returnTo channel frame below resultInternal frame.pending.rets none
  match channel.server with
  | none => fail thread
  | some methods =>
      match methods[rpc.rpcNumber.toNat]? with
      | none => thread
      | some method =>
          match requestGet channel.platform method.inputTypes method.outputTypes
              rest with
          | none => fail thread
          | some (args, rets) =>
              match method.handler with
              | none => thread
              | some handler =>
                  resume channel (frame :: below) (handler args rets) thread

/-- What `NaClSrpcReceiveAndDispatch` and `NaClSrpcRpcWait` do with a response.
One with another id ends the wait, and the result stays as it was. -/
def acceptResponse (frame : Frame δ) (below : List (Frame δ)) (rpc : Rpc)
    (rest : Datagram δ) (message : PeerMessage δ) (thread : Thread δ) : Thread δ :=
  if rpc.requestId = frame.pending.rpc.requestId then
    match responseGet channel.platform rpc.result frame.pending.retTypes
        frame.pending.rets rest with
    | none =>
        returnTo channel frame below resultInternal frame.pending.rets
          (some message) thread
    | some rets =>
        returnTo channel frame below rpc.result rets (some message) thread
  else
    returnTo channel frame below frame.pending.rpc.result frame.pending.rets none
      thread

/-- One turn of the loop of `NaClSrpcRpcWait` for the invocation on top. -/
def receiveAndDispatch (arrival : Arrival δ) (thread : Thread δ) : Thread δ :=
  match thread.stack with
  | [] => thread
  | frame :: below =>
      match arrival with
      | .endOfStream =>
          returnTo channel frame below resultInternal frame.pending.rets none
            thread
      | .message message =>
          match rpcGet message.datagram with
          | none => thread
          | some (rpc, rest) =>
              if rpc.isRequest ≠ 0 then
                dispatchRequest channel frame below rpc rest thread
              else acceptResponse channel frame below rpc rest message thread

def start (program : Program δ) : Thread δ :=
  resume channel [] program ⟨[], 0, []⟩

def runThread (program : Program δ) (arrivals : List (Arrival δ)) : Thread δ :=
  arrivals.foldl (fun thread arrival => receiveAndDispatch channel arrival thread)
    (start channel program)

end Thread

end NativeClient.Srpc
