import BinderRpc.Model.Server

/-!
Client.cpp and rpc_client.cpp. The caller's memory is the bytes reached through
each argument pointer. The connections a call can open are part of its
environment: the binder's, and one for each server address.
-/

namespace BinderRpc.Client

open Octets Text Signature Marshal Socket Server

structure LocationRequestMessage where
  type : CInt
  funcNameLength : Nat
  argTypesLength : Nat
  funcNameBuffer : Bytes
  argTypesBuffer : ArgTypes

def createLocationRequest (funcName : Bytes) (argTypes : ArgTypes) :
    Except Fault LocationRequestMessage := do
  let whole ← intOfSize (funcName.length + 1)
  let funcNameLength := if whole > maxFuncName then maxFuncName else whole
  return { type := locationRequest, funcNameLength := funcNameLength,
           argTypesLength := scanLength argTypes.array,
           funcNameBuffer := (funcName ++ [0]).take funcNameLength,
           argTypesBuffer := argTypes }

/-- The C string that starts at a buffer: it runs on into `heap`, the memory
behind the buffer, when the buffer holds no terminator. -/
def bufferText (buffer heap : Bytes) : Except Fault Bytes :=
  if 0 ∈ buffer ++ heap then .ok (cText (buffer ++ heap)) else .error .unterminated

/-- The function send_location_request rebuilds from the message. -/
def locationFunction (heap : Bytes) (m : LocationRequestMessage) : Except Fault Function := do
  return ⟨← bufferText m.funcNameBuffer heap, m.argTypesBuffer⟩

/-- The message send_location_request hands to send_all. -/
def locationRequestFrame (heap : Bytes) (m : LocationRequestMessage) : Except Fault Bytes := do
  let func ← locationFunction heap m
  let keySize := func.getKey.length + 1
  let byteLength ← intOfSize (keySize + 8)
  return wordBytes m.type ++ lengthBytes (byteLength - 8) ++ (func.getKey ++ [0])

def sendLocationRequest (heap : Bytes) (m : LocationRequestMessage) (binder : Link) :
    Except Fault (CInt × Link) := do
  let buffer ← locationRequestFrame heap m
  match sendAll binder buffer with
  | (ret, _, binder) => return (ret, binder)

/-- The message send_execute_request hands to send_all. -/
def executeRequestFrame (fp : FloatText) (name : Bytes) (argTypes : ArgTypes)
    (args : List (Option Bytes)) : Except Fault Bytes := do
  let argLength := scanLength argTypes.array
  let func : Function := ⟨name, argTypes⟩
  let dataMarshallingKey ← marshallArgs fp argTypes.array args argLength
  let funcSize := func.getKey.length + 1
  let marshallSize := dataMarshallingKey.length + 1
  let byteLength ← intOfSize (funcSize + marshallSize + 16)
  return wordBytes execute ++ lengthBytes (byteLength - 8) ++ lengthBytes funcSize ++
    (func.getKey ++ [0]) ++ lengthBytes marshallSize ++ (dataMarshallingKey ++ [0])

def sendExecuteRequest (fp : FloatText) (server : Link) (name : Bytes) (argTypes : ArgTypes)
    (args : List (Option Bytes)) : Except Fault (CInt × Link) := do
  let buffer ← executeRequestFrame fp name argTypes args
  match sendAll server buffer with
  | (ret, _, server) => return (ret, server)

/-! Replies. -/

structure Locals where
  msgType : Stale
  location : Stale
  flag : Stale
  reasonCode : Stale
  response : Stale

inductive LocationReply where
  /-- The type was not received. -/
  | lost
  /-- `res` of the second read, and the reason code. -/
  | failure (res : Option Nat) (reasonCode : CInt)
  | success (sName : Bytes) (port : CInt)
  | other
  deriving DecidableEq, Repr

/-- rpcCall from the first read on the binder's connection to the address of
the server. End of stream does not stop it. -/
def recvLocationReply (locals : Locals) (binder : Link) : LocationReply × Link :=
  match recvInto binder (staleBytes locals.msgType 4) with
  | (none, _, binder) => (.lost, binder)
  | (some _, msgType, binder) =>
      if wordOf msgType = locationFailure then
        match recvInto binder [0, 0, 0, 0] with
        | (res, reasonCode, binder) => (.failure res (wordOf reasonCode), binder)
      else if wordOf msgType = locationSuccess then
        match recvInto binder (staleBytes locals.location (maxHostName + 1 + 4)) with
        | (_, buff, binder) =>
            (.success (cText (buff.take maxHostName)) (wordOf ((buff.drop (maxHostName + 1)).take 4)),
              binder)
      else (.other, binder)

inductive ExecuteReply where
  /-- A read failed; the value is what rpcCall returns. -/
  | lost (ret : CInt)
  | failure (reasonCode : CInt)
  /-- The two character arrays, up to their last terminator. -/
  | success (marshalled key : Bytes)
  deriving DecidableEq, Repr

/-- An execute response from its received length on. -/
def recvResultsBody (stale : Stale) (server : Link) (mLength : CInt) :
    Except Fault (ExecuteReply × Link) := do
  let nLen ← arraySize mLength.toInt
  match recvInto server (staleBytes stale nLen) with
  | (none, _, server) => return (.lost errServerClientRecv, server)
  | (some _, buff, server) =>
      let nMarsLen := (wordOf (← slice buff 0 4)).toInt
      let nKeyLen := (wordOf (← slice buff 4 4)).toInt
      let _ ← arraySize (nMarsLen + 1)
      let marshalled ← slice buff 8 nMarsLen
      let _ ← arraySize (nKeyLen + 1)
      let key ← slice buff (8 + nMarsLen.toNat) (nKeyLen + 1)
      -- the byte behind the key is overwritten with the terminator
      return (.success marshalled (key.take nKeyLen.toNat), server)

/-- The length-prefixed part of an execute response. -/
def recvResults (stale : Stale) (server : Link) : Except Fault (ExecuteReply × Link) :=
  match recvLength server with
  | (none, server) => .ok (.lost errServerClientRecv, server)
  | (some mLength, server) => recvResultsBody stale server mLength

/-- rpcCall's reads on the server's connection. Any type but EXECUTE_FAILURE
counts as success. -/
def recvExecuteReply (locals : Locals) (server : Link) : Except Fault (ExecuteReply × Link) :=
  match recvInto server (staleBytes locals.flag 4) with
  | (none, _, server) => .ok (.lost errRecvClient, server)
  | (some _, flag, server) =>
      if wordOf flag = executeFailure then
        match recvInto server (staleBytes locals.reasonCode 4) with
        | (_, reasonCode, server) => .ok (.failure (wordOf reasonCode), server)
      else recvResults locals.response server

/-- What rpcCall does with a response: it takes it apart and counts its bytes.
The call of unmarshall_args stands in a comment. -/
def concludeCall (reply : ExecuteReply) : Except Fault CInt :=
  match reply with
  | .lost ret => .ok ret
  | .failure reasonCode => .ok reasonCode
  | .success marshalled key => do
      let parsed ← parseKey (cText key)
      let _ ← split (cText marshalled) bar
      let _argSize := calculateArgSize parsed.argInfo
      return 0

/-- receive_execute_response of the Client class, with reads of its own: the return
value and, once it is allocated, the table that `*args` is set to. `margin` and `stale`
are what unmarshall_args finds in memory. -/
def receiveExecuteResponse (fp : FloatText) (locals : Locals) (margin : Margin) (stale : Nat → Stale)
    (server : Link) : Except Fault (CInt × Option Slots × Link) :=
  match recvInto server (staleBytes locals.flag 4) with
  | (none, _, server) => .ok (errRecvClient, none, server)
  | (some _, flag, server) =>
      if wordOf flag = executeFailure then
        match recvInto server (staleBytes locals.reasonCode 4) with
        | (_, reasonCode, server) => .ok (wordOf reasonCode, none, server)
      else
        match recvInto server [0, 0, 0, 0] with
        | (none, _, server) => .ok (errServerClientRecv, none, server)
        | (some _, mLength, server) => do
            let nLen ← arraySize (wordOf mLength).toInt
            match recvInto server (staleBytes locals.response nLen) with
            | (none, _, server) => return (errServerClientRecv, none, server)
            | (some _, buff, server) =>
                let nMarsLen := (wordOf (← slice buff 0 4)).toInt
                let nKeyLen := (wordOf (← slice buff 4 4)).toInt
                let _ ← arraySize (nMarsLen + 1)
                let marshalled ← slice buff 8 nMarsLen
                let _ ← arraySize (nKeyLen + 1)
                let key ← slice buff (8 + nMarsLen.toNat) (nKeyLen + 1)
                let parsed ← parseKey (cText (key.take nKeyLen.toNat))
                let argsS ← split (cText marshalled) bar
                let _argSize := calculateArgSize parsed.argInfo
                let unmarshall ← unmarshallArgs fp margin parsed.argInfo argsS
                let table := slots stale unmarshall.writes
                if unmarshall.ret < 0 then return (errUnmarshallingServer, some table, server)
                return (0, some table, server)

/-- The connections a call can open: `connect_to_something` on the binder's
address, `connect_to` on a server's. -/
structure Network where
  binder : Except CInt Link
  server : Bytes → Bytes → Option Link

structure Called where
  ret : CInt
  /-- The caller's memory when the call returns. -/
  args : List (Option Bytes)
  /-- What came back over the server's connection, if one was opened. -/
  reply : Option ExecuteReply
  deriving DecidableEq, Repr

/-- rpcCall from the connected server on. A failed send is reported and
nothing else. -/
def callServer (fp : FloatText) (locals : Locals) (server : Link) (name : Bytes)
    (argTypes : ArgTypes) (args : List (Option Bytes)) : Except Fault Called := do
  let (_, server) ← sendExecuteRequest fp server name argTypes args
  let (reply, _) ← recvExecuteReply locals server
  let ret ← concludeCall reply
  return ⟨ret, args, some reply⟩

def rpcCall (fp : FloatText) (heap : Bytes) (locals : Locals) (network : Network) (name : Bytes)
    (argTypes : ArgTypes) (args : List (Option Bytes)) : Except Fault Called := do
  match network.binder with
  | .error connectionResult => return ⟨connectionResult, args, none⟩
  | .ok binder =>
      let locMsg ← createLocationRequest name argTypes
      let (messageResult, binder) ← sendLocationRequest heap locMsg binder
      if messageResult.toInt < 0 then return ⟨messageResult, args, none⟩
      match recvLocationReply locals binder with
      | (.lost, _) => return ⟨errBinderRecvFail, args, none⟩
      | (.failure none reasonCode, _) => return ⟨reasonCode, args, none⟩
      -- a received reason code leaves the branch and reaches the end of the function
      | (.failure (some _) _, _) => throw .noReturn
      | (.success sName port, _) =>
          match network.server sName (toStri port.toInt) with
          | none => return ⟨-1, args, none⟩
          | some server => callServer fp locals server name argTypes args
      | (.other, _) => return ⟨0, args, none⟩

end BinderRpc.Client
