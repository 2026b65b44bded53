import BinderRpc.Model.Database
import BinderRpc.Model.Marshal

/-!
Server.cpp and rpc_server.cpp: registering a procedure and answering an execute
request. A skeleton is a function from the registered argument types and the
memory reached through `args` to a return value and that memory afterwards.
-/

namespace BinderRpc

structure Server where
  host : Bytes
  port : CInt
  deriving DecidableEq, Repr

namespace Server

open Octets Text Signature Marshal Socket Database

structure RegisterMessage where
  type : CInt
  sName : Bytes
  sPort : CInt
  fName : Bytes
  argKey : Bytes
  buff : Bytes
  buffLength : Nat
  deriving DecidableEq, Repr

def createRegisterMessage (s : Server) (hostBeyond nameBeyond : Stale) (f : Function) :
    Except Fault RegisterMessage := do
  let keySize := f.getKey.length + 1
  -- the buffer length is the largest of the `int` lengths computed here
  let buffLength ← intOfSize (maxHostName + 1 + maxFuncName + 1 + keySize + 12)
  let buffer := wordBytes register ++ lengthBytes (buffLength - 8) ++
    cStrField s.host (maxHostName + 1) hostBeyond ++ wordBytes s.port ++
    cStrField f.name (maxFuncName + 1) nameBeyond ++ (f.getKey ++ [0])
  return { type := register, sName := s.host, sPort := s.port, fName := f.name, argKey := f.getKey,
           buff := buffer, buffLength := buffLength }

def sendRegisterRequest (m : RegisterMessage) (binder : Link) : CInt × Link :=
  match sendAll binder (m.buff.take m.buffLength) with
  | (ret, _, binder) => (if ret = -1 then -8 else 0, binder)

structure Process where
  /-- What it holds as C strings. -/
  strings : BitVec 64 → Option Bytes
  /-- The addresses `delete` takes. -/
  blocks : BitVec 64 → Bool
  /-- Where the empty string `flag` keeps its characters: in the object itself. -/
  data : BitVec 64
  hostBeyond : Stale
  nameBeyond : Stale

/-- The four bytes from the binder land in the object of the empty string
`flag`, over the low half of its data pointer, which comes back with the flag. -/
def recvFlag (strings : BitVec 64 → Option Bytes) (data : BitVec 64) (binder : Link) :
    Except Fault (CInt × BitVec 64 × Link) :=
  let flag : StringObject := ⟨data, []⟩
  match recvInto binder (flag.bytes.take 4) with
  | (_, low, binder) =>
      let pointer := BitVec.ofNat 64 (leNat (low ++ flag.bytes.drop 4))
      match if pointer = data then some flag.text else strings pointer with
      | none => .error .dangling
      | some text => .ok (atoi text, pointer, binder)

/-- The destructor of `flag` frees characters that are not in the object. -/
def Process.destroyFlag (process : Process) (pointer : BitVec 64) : Except Fault Unit :=
  if pointer = process.data ∨ process.blocks pointer then .ok () else .error .badFree

def concludeRegister {Skel : Type} (db : ServerDB Skel) (flag : CInt) (func : Function) (f : Skel) :
    CInt × ServerDB Skel :=
  if flag = registerFailure then (errRegFail, db) else db.updateDb flag func f

def rpcRegister {Skel : Type} (process : Process) (s : Server) (db : ServerDB Skel) (binder : Link)
    (name : Bytes) (argTypes : ArgTypes) (f : Skel) : Except Fault (CInt × ServerDB Skel × Link) := do
  let func : Function := ⟨name, argTypes⟩
  let regMsg ← s.createRegisterMessage process.hostBeyond process.nameBeyond func
  match sendRegisterRequest regMsg binder with
  | (mSend, binder) =>
      if mSend.toInt < 0 then return (registerFailure, db, binder)
      let (flag, pointer, binder) ← recvFlag process.strings process.data binder
      let (ret, db) := concludeRegister db flag func f
      process.destroyFlag pointer
      return (ret, db, binder)

/-! Execute requests. -/

/-- The memory reached through `args[k]`, `none` for a pointer nothing has set. -/
abbrev Slots := Nat → Option Bytes

abbrev Skeleton := List CInt → Slots → CInt × Slots

structure Call where
  q : Skeleton
  argTypes : List CInt
  args : Slots

/-- The decoder's blocks, with the bytes the allocator left where nothing was
written. -/
def slots (stale : Nat → Stale) (writes : List (Nat × Block)) : Slots := fun k =>
  (slotTable writes k).map fun block => block.cells.mapIdx fun i cell => cell.getD (stale k i)

def sendExecuteResponse (stale : Stale) (socket : Link) (f : Function) (key marshall : Bytes)
    (reasonCode : CInt) : Except Fault (CInt × Link) :=
  if reasonCode ≠ 0 then
    -- the result of send_all is not looked at
    match sendAll socket (wordBytes executeFailure ++ wordBytes reasonCode) with
    | (_, _, socket) => .ok (0, socket)
  else do
    let byteLength ← intOfSize (marshall.length + 1 + (key.length + 1) + 16)
    let buff := wordBytes executeSuccess ++ lengthBytes (byteLength - 8) ++
      lengthBytes (marshall.length + 1) ++ lengthBytes f.getKey.length ++
      (marshall ++ [0]) ++ (f.getKey ++ [0])
    -- the buffer is sized by `key` and filled with the key of `f`
    if byteLength < buff.length then throw .badIndex
    match sendAll socket (buff ++ staleBytes stale (byteLength - buff.length)) with
    | (ret, _, socket) => return (ret, socket)

structure Served where
  ret : CInt
  calls : List Call
  db : ServerDB Skeleton
  socket : Link

structure Memory where
  messageType : Stale
  request : Stale
  /-- What can be read behind the strings that array tokens are run together in. -/
  margin : Margin
  blocks : Nat → Stale
  response : Stale

def invoke (f : Function) (args : Slots) : Option Skeleton → CInt × List Call × Slots
  | none => (0, [], args)
  | some q =>
      let result := q f.argTypes.array args
      (if result.1 = 0 then 0 else errInvalidArgs, [⟨q, f.argTypes.array, args⟩], result.2)

def execArgs (fp : FloatText) (memory : Memory) (db : ServerDB Skeleton) (socket : Link)
    (key argS : Bytes) : Except Fault Served := do
  let parsed ← parseKey key
  let argsS ← split argS bar
  let unmarshall ← unmarshallArgs fp memory.margin parsed.argInfo argsS
  if unmarshall.ret < 0 then return ⟨errUnmarshallingServer, [], db, socket⟩
  match db.functions key with
  | none => return ⟨errServerDoesntContainFunc, [], db, socket⟩
  | some f =>
      let (res, calls, args) := invoke f (slots memory.blocks unmarshall.writes) (db.lookup key)
      let argLength := parsed.argLength.toNat
      let marshall ← marshallArgs fp f.argTypes.array ((List.range argLength).map args) argLength
      let (ret, socket) ← sendExecuteResponse memory.response socket f key marshall res
      return ⟨ret, calls, db, socket⟩

structure ExecuteRequest where
  key : Bytes
  args : Bytes
  deriving DecidableEq, Repr

/-- The EXECUTE case of handle_request from the received length to exec_args. -/
def recvExecuteBody (stale : Stale) (socket : Link) (mLength : CInt) :
    Except Fault (Option ExecuteRequest × Link) := do
  let nLen ← arraySize mLength.toInt
  -- the result of this `recv` is not looked at
  let (_, buff, socket) := recvInto socket (staleBytes stale nLen)
  let nKeyLen := (wordOf (← slice buff 0 4)).toInt
  let _ ← arraySize (nKeyLen + 1)
  let key ← slice buff 4 nKeyLen
  let nArgsLen := (wordOf (← slice buff (4 + nKeyLen.toNat) 4)).toInt
  let _ ← arraySize (nArgsLen + 1)
  let args ← slice buff (8 + nKeyLen.toNat) nArgsLen
  return (some ⟨cText key, cText args⟩, socket)

def recvExecuteRequest (stale : Stale) (socket : Link) : Except Fault (Option ExecuteRequest × Link) :=
  match recvLength socket with
  | (none, socket) => .ok (none, socket)
  | (some mLength, socket) => recvExecuteBody stale socket mLength

def handleRequest (fp : FloatText) (memory : Memory) (db : ServerDB Skeleton) (socket : Link)
    (messageType : CInt) : Except Fault Served :=
  if messageType = execute then do
    match ← recvExecuteRequest memory.request socket with
    | (none, socket) => return ⟨errServerClientRecv, [], db, socket⟩
    | (some request, socket) => execArgs fp memory db socket request.key request.args
  else .ok ⟨0, [], db, socket⟩

/-- The body of rpcExecute's loop for one readable connection; `none` closes it. -/
def rpcExecuteTurn (fp : FloatText) (memory : Memory) (db : ServerDB Skeleton) (socket : Link) :
    Except Fault (Option Served) :=
  match recvType memory.messageType socket with
  | (none, _) => .ok none
  | (some messageType, socket) => (handleRequest fp memory db socket messageType).map some

end Server
end BinderRpc
