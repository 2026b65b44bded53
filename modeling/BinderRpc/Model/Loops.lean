import BinderRpc.Lib.Multiplexer
import BinderRpc.Model.Binder
import BinderRpc.Model.Server

/-!
The endless loops of the two servers, followed for any number of passes from the
listening socket on. A fault in one turn ends the process.
-/

namespace BinderRpc

open Marshal Socket Database Multiplexer

namespace Binder

def init (listener : Nat) (rounds : List (Round listener Link Scratch)) :
    Except Fault (State BinderDB Link CInt) :=
  run listener initTurn rounds (start BinderDB.empty listener)

end Binder

namespace Server

def executeTurn (fp : FloatText) (memory : Memory) (db : ServerDB Skeleton) (socket : Link) :
    Except Fault (Option (Served × ServerDB Skeleton × Link)) :=
  (rpcExecuteTurn fp memory db socket).map (Option.map fun served => (served, served.db, served.socket))

def rpcExecute (fp : FloatText) (db : ServerDB Skeleton) (listener : Nat)
    (rounds : List (Round listener Link Memory)) :
    Except Fault (State (ServerDB Skeleton) Link Served) :=
  run listener (executeTurn fp) rounds (start db listener)

end Server
end BinderRpc
