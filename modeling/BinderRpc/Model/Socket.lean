import BinderRpc.Lib.Link
import BinderRpc.Lib.Octets
import BinderRpc.Model.Text

/-!
The message and reason codes of Message.h and error.h, send_all and recv_all of
helpers.cpp, and the pieces every message handler uses: an `int` in network order
and the fixed-width copy of a C string.
-/

namespace BinderRpc.Socket

open Octets Text

/-! Message.h. -/
def register : CInt := 1
def registerSuccess : CInt := 2
def registerFailure : CInt := 3
def registerWarning : CInt := 4
def locationRequest : CInt := 5
def locationSuccess : CInt := 6
def locationFailure : CInt := 7
def execute : CInt := 8
def executeSuccess : CInt := 9
def executeFailure : CInt := 10

/-! error.h. -/
def errRegFail : CInt := -4
def errBinderRecvFail : CInt := -6
def errBinderSendFail : CInt := -7
def errServerNotFound : CInt := -9
def errServerClientRecv : CInt := -10
def errUnmarshallingServer : CInt := -11
def errServerDoesntContainFunc : CInt := -12
def errInvalidArgs : CInt := -13
def errRecvClient : CInt := -14

/-! constants.h. -/
def maxHostName : Nat := 64
def maxFuncName : Nat := 64

abbrev Stale := Nat → UInt8

def staleBytes (stale : Stale) (count : Nat) : Bytes := (List.range count).map stale

@[simp] theorem length_staleBytes (stale : Stale) (count : Nat) :
    (staleBytes stale count).length = count := by
  simp [staleBytes]

/-- `memcpy` of `count` bytes from `text.c_str()`: past the terminator comes
whatever lies there. -/
def cStrField (text : Bytes) (count : Nat) (beyond : Stale) : Bytes :=
  (text ++ 0 :: staleBytes beyond count).take count

@[simp] theorem length_cStrField (text : Bytes) (count : Nat) (beyond : Stale) :
    (cStrField text count beyond).length = count := by
  simp only [cStrField, List.length_take, List.length_append, List.length_cons, length_staleBytes]
  omega

def lengthBytes (n : Nat) : Bytes := wordBytes (BitVec.ofNat 32 n)

@[simp] theorem length_lengthBytes (n : Nat) : (lengthBytes n).length = 4 := length_wordBytes _

theorem toInt_ofNat (n : Nat) (small : n < 2 ^ 31) : (BitVec.ofNat 32 n).toInt = n := by
  have bits : (BitVec.ofNat 32 n).toNat = n := by
    rw [BitVec.toNat_ofNat]
    exact Nat.mod_eq_of_lt (by omega)
  rw [BitVec.toInt_eq_toNat_of_lt (by omega), bits]

theorem wordOf_lengthBytes (n : Nat) (small : n < 2 ^ 31) :
    (wordOf (lengthBytes n)).toInt = n := by
  rw [lengthBytes, wordOf_wordBytes, toInt_ofNat n small]

/-- A `std::string` object: it begins with the address of its characters. -/
structure StringObject where
  data : BitVec 64
  text : Bytes
  deriving DecidableEq, Repr

def StringObject.bytes (s : StringObject) : Bytes := leBytes 8 s.data.toNat

/-- The element count of an array declared or allocated with an `int` size. -/
def arraySize (n : Int) : Except Fault Nat :=
  if 0 ≤ n ∧ n < 2 ^ 31 then .ok n.toNat else .error .badSize

theorem arraySize_ok (n : Nat) (small : n < 2 ^ 31) : arraySize (n : Int) = .ok n := by
  rw [arraySize, if_pos ⟨by omega, by exact_mod_cast small⟩, Int.toNat_natCast]

theorem arraySize_ok_iff (n : Int) (size : Nat) :
    arraySize n = .ok size ↔ 0 ≤ n ∧ n < 2 ^ 31 ∧ size = n.toNat := by
  rw [arraySize]
  split
  · rename_i fits
    simp only [Except.ok.injEq, fits.1, fits.2, true_and]
    exact eq_comm
  · rename_i wrong
    simp only [reduceCtorEq, false_iff]
    exact fun fits => wrong ⟨fits.1, fits.2.1⟩

def slice (buff : Bytes) (offset : Nat) (count : Int) : Except Fault Bytes :=
  if 0 ≤ count ∧ offset + count.toNat ≤ buff.length then
    .ok ((buff.drop offset).take count.toNat)
  else .error .badIndex

theorem slice_middle (before part after : Bytes) (offset : Nat) (count : Int)
    (place : before.length = offset) (size : (part.length : Int) = count) :
    slice (before ++ part ++ after) offset count = .ok part := by
  subst size
  subst place
  have inside : (0 : Int) ≤ part.length ∧
      before.length + (part.length : Int).toNat ≤ (before ++ part ++ after).length := by
    constructor
    · omega
    · simp only [Int.toNat_natCast, List.length_append]
      omega
  rw [slice, if_pos inside, List.append_assoc, List.drop_left, Int.toNat_natCast, List.take_left]

theorem slice_ok_iff (buff part : Bytes) (offset : Nat) (count : Int) :
    slice buff offset count = .ok part ↔
      0 ≤ count ∧ offset + count.toNat ≤ buff.length ∧ part = (buff.drop offset).take count.toNat := by
  rw [slice]
  split
  · rename_i inside
    simp only [Except.ok.injEq, inside, true_and]
    exact eq_comm
  · rename_i outside
    simp only [reduceCtorEq, false_iff]
    exact fun inside => outside ⟨inside.1, inside.2.1⟩

theorem slice_within (buff : Bytes) (offset count : Nat) (inside : offset + count ≤ buff.length) :
    slice buff offset count = .ok ((buff.drop offset).take count) := by
  rw [slice, if_pos ⟨by omega, by rwa [Int.toNat_natCast]⟩, Int.toNat_natCast]

/-- One `recv` into memory that held `old`: the count, the memory after it. -/
def recvInto (socket : Link) (old : Bytes) : Option Nat × Bytes × Link :=
  let result := socket.recv old.length
  (result.1.map List.length, Link.filled old result.1, result.2)

theorem recvInto_eq (socket : Link) (old : Bytes) (count : Nat) (length : old.length = count) :
    recvInto socket old =
      ((socket.recv count).1.map List.length, Link.filled old (socket.recv count).1,
        (socket.recv count).2) := by
  subst length
  rfl

theorem recvInto_failed (socket : Link) (old : Bytes) (failed : (recvInto socket old).1 = none) :
    (recvInto socket old).2.1 = old := by
  have none : (socket.recv old.length).1 = none := Option.map_eq_none_iff.mp failed
  simp only [recvInto, none, Link.filled]

theorem recvInto_length (socket : Link) (old : Bytes) : (recvInto socket old).2.1.length = old.length := by
  rw [recvInto]
  cases received : (socket.recv old.length).1 with
  | none => rw [Link.filled]
  | some data => exact Link.length_filled old data (Link.length_recv socket _ data received)

theorem recvInto_front (socket : Link) (old front rest : Bytes) (prompt : socket.Prompt)
    (stream : socket.incoming = front ++ rest) (length : front.length = old.length) :
    recvInto socket old = (some front.length, front, { socket with incoming := rest }) := by
  rw [recvInto, Link.recv_front socket front rest old.length prompt stream length]
  simp only [Option.map_some]
  rw [Link.filled_whole old front (Nat.le_of_eq length.symm)]

/-- The message type read in front of every request, into an `int` nothing has
set. The connection is closed on end of stream and on errors. -/
def recvType (stale : Stale) (socket : Link) : Option CInt × Link :=
  match recvInto socket (staleBytes stale 4) with
  | (none, _, socket) => (none, socket)
  | (some 0, _, socket) => (none, socket)
  | (some (_ + 1), messageType, socket) => (some (wordOf messageType), socket)

/-- An `int` that starts as 0, received in network order; `none` for -1. -/
def recvLength (socket : Link) : Option CInt × Link :=
  match recvInto socket [0, 0, 0, 0] with
  | (none, _, socket) => (none, socket)
  | (some _, mLength, socket) => (some (wordOf mLength), socket)

theorem recvType_front (stale : Stale) (socket : Link) (word : CInt) (rest : Bytes)
    (prompt : socket.Prompt) (stream : socket.incoming = wordBytes word ++ rest) :
    recvType stale socket = (some word, { socket with incoming := rest }) := by
  rw [recvType, recvInto_front socket _ _ rest prompt stream (by simp), length_wordBytes]
  simp

theorem recvLength_front (socket : Link) (word : CInt) (rest : Bytes) (prompt : socket.Prompt)
    (stream : socket.incoming = wordBytes word ++ rest) :
    recvLength socket = (some word, { socket with incoming := rest }) := by
  rw [recvLength, recvInto_front socket _ _ rest prompt stream (by simp)]
  simp

/-- send_all: `send` until the buffer is out, or an error. The result is the
return value and `*bytesToSend`. -/
def sendLoop (buf : Bytes) : Nat → Link → Nat → CInt × Nat × Link
  | 0, link, total => (0, total, link)
  | fuel + 1, link, total =>
      if total < buf.length then
        match link.send (buf.drop total) with
        | (none, after) => (-1, total, after)
        | (some n, after) => sendLoop buf fuel after (total + n)
      else (0, total, link)

/-- Each round uses one entry of the schedule, and past its end one round is
enough. -/
def sendAll (link : Link) (buf : Bytes) : CInt × Nat × Link :=
  sendLoop buf (link.departures.length + 2) link 0

/-- recv_all: `recv` until the buffer is full, or an error. The result is the return
value, `*bytesToReceive` and the buffer. The loop is followed for so many rounds;
it need not end, for at the end of the stream a round changes nothing. -/
def recvLoop : Nat → Link → Bytes → Nat → Option (CInt × Nat × Bytes × Link)
  | 0, _, _, _ => none
  | rounds + 1, link, buf, total =>
      if total < buf.length then
        match recvInto link (buf.drop total) with
        | (none, _, after) => some (-1, total, buf, after)
        | (some n, rest, after) => recvLoop rounds after (buf.take total ++ rest) (total + n)
      else some (0, total, buf, link)

def recvAll (rounds : Nat) (link : Link) (buf : Bytes) : Option (CInt × Nat × Bytes × Link) :=
  recvLoop rounds link buf 0

theorem sendAll_clear (link : Link) (buf : Bytes) (clear : link.Clear) :
    sendAll link buf = (0, buf.length, { link with sent := link.sent ++ buf }) := by
  have schedule : link.departures = [] := clear
  cases buf with
  | nil => simp [sendAll, sendLoop]
  | cons byte rest =>
      simp [sendAll, schedule, sendLoop, Link.send_clear link (byte :: rest) clear]

theorem sendLoop_receives (buf : Bytes) (fuel : Nat) (link : Link) (total : Nat) :
    (sendLoop buf fuel link total).2.2.incoming = link.incoming ∧
      (sendLoop buf fuel link total).2.2.arrivals = link.arrivals := by
  induction fuel generalizing link total with
  | zero => exact ⟨rfl, rfl⟩
  | succ fuel ih =>
      rw [sendLoop]
      by_cases inside : total < buf.length
      · rw [if_pos inside]
        obtain ⟨incoming, arrivals⟩ := Link.send_receives link (buf.drop total)
        generalize link.send (buf.drop total) = result at *
        obtain ⟨count, after⟩ := result
        cases count with
        | none => exact ⟨incoming, arrivals⟩
        | some n =>
            obtain ⟨rest, others⟩ := ih after (total + n)
            exact ⟨rest.trans incoming, others.trans arrivals⟩
      · rw [if_neg inside]
        exact ⟨rfl, rfl⟩

theorem sendAll_receives (link : Link) (buf : Bytes) :
    (sendAll link buf).2.2.incoming = link.incoming ∧ (sendAll link buf).2.2.arrivals = link.arrivals :=
  sendLoop_receives buf _ link 0

end BinderRpc.Socket
