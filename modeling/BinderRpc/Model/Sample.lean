import BinderRpc.Model.Signature

/-!
f3 of sample_code/server_functions.c, which sorts an array of `long` whose first
element is its length. The exchange goes through `int k`, and the length through
`int len`.
-/

namespace BinderRpc.Sample

open Signature

def throughInt (value : Int) : Int := (BitVec.ofInt 32 value).toInt

/-- The body of the inner loop. -/
def exchange (a : List Int) (j : Nat) : Except Fault (List Int) := do
  let right ← element a j
  let left ← element a (j - 1)
  if right > left then
    let k := throughInt right
    return (a.set j left).set (j - 1) k
  else return a

/-- `for (j = ..; j > i; j--)`. -/
def innerLoop (i : Nat) : Nat → List Int → Except Fault (List Int)
  | 0, a => .ok a
  | j + 1, a =>
      if j + 1 > i then do
        let a ← exchange a (j + 1)
        innerLoop i j a
      else .ok a

/-- `for (i = ..; i < len; i++)`, with so many rounds to go. -/
def outerLoop (len : Nat) : Nat → Nat → List Int → Except Fault (List Int)
  | 0, _, a => .ok a
  | rounds + 1, i, a => do
      let a ← innerLoop i (len - 1) a
      outerLoop len rounds (i + 1) a

def f3 (a : List Int) : Except Fault (List Int) := do
  let len := throughInt (← element a 0)
  outerLoop len.toNat len.toNat 0 a

end BinderRpc.Sample
