import BinderRpc.Model.Database

/-!
Binder.cpp: what the binder does with one readable connection. Local buffers
start with whatever memory held (`stale`); a host name is copied with the bytes
behind its terminator (`beyond`); `pointer` is the address of the characters of
the string built for an acknowledgement.
-/

namespace BinderRpc.Binder

open Octets Text Socket Database

structure RegisterRequest where
  sName : Bytes
  port : CInt
  fName : Bytes
  key : Bytes
  deriving DecidableEq, Repr

/-- `&buf` is the address of the string object, not of its characters. -/
def sendRegisterResponse (pointer : BitVec 64) (socket : Link) (flag : CInt) : CInt × Link :=
  let buf : StringObject := ⟨pointer, toStri flag.toInt⟩
  match socket.send (buf.bytes.take 4) with
  | (none, socket) => (errBinderSendFail, socket)
  | (some _, socket) => (0, socket)

/-- receive_register_request up to the database; `none` when `recv` fails. -/
def recvRegisterRequest (stale : Stale) (socket : Link) (length : CInt) :
    Except Fault (Option RegisterRequest × Link) := do
  let keySize : Int := length.toInt - (maxFuncName + 1 + maxHostName + 1 + 4)
  let _ ← arraySize (keySize + 1)
  let size ← arraySize length.toInt
  match recvInto socket (staleBytes stale size) with
  | (none, _, socket) => return (none, socket)
  | (some _, buff, socket) =>
      let sName ← slice buff 0 (maxHostName + 1)
      let port ← slice buff (maxHostName + 1) 4
      let fName ← slice buff (maxHostName + 1 + 4) (maxFuncName + 1)
      let key ← slice buff (maxHostName + 1 + maxFuncName + 1 + 4) keySize
      -- the last byte of each name array is overwritten with the terminator
      return (some ⟨cText (sName.take maxHostName), wordOf port, cText (fName.take maxFuncName),
        cText key⟩, socket)

def receiveRegisterRequest (stale : Stale) (pointer : BitVec 64) (db : BinderDB) (socket : Link)
    (length : CInt) : Except Fault (CInt × BinderDB × Link) := do
  match ← recvRegisterRequest stale socket length with
  | (none, socket) => return (errBinderRecvFail, db, socket)
  | (some request, socket) =>
      let (retUpdate, db) := db.updateDb request.fName request.sName request.port request.key
      let (ret, socket) := sendRegisterResponse pointer socket retUpdate
      return (ret, db, socket)

def sendLocationResponse (beyond : Stale) (db : BinderDB) (socket : Link) (key : Bytes) :
    Except Fault (CInt × BinderDB × Link) :=
  if db.lookup key = none then
    match sendAll socket (wordBytes locationFailure) with
    | (res, _, socket) =>
        if res = -1 then .ok (errBinderSendFail, db, socket)
        else
          match sendAll socket (wordBytes errServerNotFound) with
          | (res, _, socket) => .ok (if res = -1 then errBinderSendFail else res, db, socket)
  else do
    let (servers, db) := db.subscript key
    let s ← Signature.element servers 0
    match sendAll socket (wordBytes locationSuccess) with
    | (res, _, socket) =>
        if res = -1 then return (errBinderSendFail, db, socket)
        match sendAll socket (cStrField s.host (maxHostName + 1) beyond ++ wordBytes s.port) with
        | (ret, _, socket) => return (if ret = -1 then errBinderSendFail else 0, db, socket)

/-- receive_location_request up to the answer; `none` when `recv` fails. -/
def recvLocationRequest (stale : Stale) (socket : Link) (length : CInt) :
    Except Fault (Option Bytes × Link) := do
  let _ ← arraySize (length.toInt + 1)
  let size ← arraySize length.toInt
  match recvInto socket (staleBytes stale size) with
  | (none, _, socket) => return (none, socket)
  | (some _, buff, socket) =>
      let key ← slice buff 0 length.toInt
      return (some (cText key), socket)

def receiveLocationRequest (stale beyond : Stale) (db : BinderDB) (socket : Link) (length : CInt) :
    Except Fault (CInt × BinderDB × Link) := do
  match ← recvLocationRequest stale socket length with
  | (none, socket) => return (errBinderRecvFail, db, socket)
  | (some key, socket) => sendLocationResponse beyond db socket key

def handleRequest (stale beyond : Stale) (pointer : BitVec 64) (db : BinderDB) (socket : Link)
    (type : CInt) : Except Fault (CInt × BinderDB × Link) :=
  if type = register then
    match recvLength socket with
    | (none, socket) => .ok (errBinderRecvFail, db, socket)
    | (some mLen, socket) => do
        let (recRegReq, db, socket) ← receiveRegisterRequest stale pointer db socket mLen
        return (if recRegReq = 0 then 0 else errBinderRecvFail, db, socket)
  else if type = locationRequest then
    match recvLength socket with
    | (none, socket) => .ok (errBinderRecvFail, db, socket)
    | (some mLen, socket) => receiveLocationRequest stale beyond db socket mLen
  else .ok (0, db, socket)

structure Scratch where
  messageType : Stale
  request : Stale
  beyond : Stale
  pointer : BitVec 64

/-- The body of init's loop for one readable connection; `none` closes it. An error
code is printed and nothing else. -/
def initTurn (scratch : Scratch) (db : BinderDB) (socket : Link) :
    Except Fault (Option (CInt × BinderDB × Link)) :=
  match recvType scratch.messageType socket with
  | (none, _) => .ok none
  | (some type, socket) =>
      (handleRequest scratch.request scratch.beyond scratch.pointer db socket type).map some

end BinderRpc.Binder
