import Mathlib.Data.List.Forall2
import BinderRpc.Model.Marshal

/-!
What marshall_args writes for arguments whose memory has the declared size:
the printed texts of the elements, joined by '|'. The texts are free of '|' as
long as no char is one, so `split` gives them back.
-/

namespace BinderRpc.Marshalled

open Text Signature Marshal Octets Joining Decimal

def Describes (a : Args) (memory : Bytes) : Prop :=
  ∃ kind, a.kind = some kind ∧ memory.length = kind.size * a.tokenCount

def Matching (infos : List Args) (args : List Bytes) : Prop := List.Forall₂ Describes infos args

def Holds (a : Args) (memory : Bytes) : Prop :=
  ∃ kind, a.kind = some kind ∧ kind.size * a.tokenCount ≤ memory.length

def Readable (infos : List Args) (args : List Bytes) : Prop := List.Forall₂ Holds infos args

theorem Matching.readable (infos : List Args) (args : List Bytes) (matching : Matching infos args) :
    Readable infos args := by
  apply matching.imp
  rintro a memory ⟨kind, known, size⟩
  exact ⟨kind, known, Nat.le_of_eq size.symm⟩

def argTexts (fp : FloatText) (a : Args) (memory : Bytes) : List Bytes :=
  match a.kind with
  | none => []
  | some kind => (chunks kind.size a.tokenCount memory).map (elementText fp kind)

def allTexts (fp : FloatText) : List Args → List Bytes → List Bytes
  | a :: infos, memory :: args => argTexts fp a memory ++ allTexts fp infos args
  | _, _ => []

def joinedText (fp : FloatText) (infos : List Args) (args : List Bytes) : Bytes :=
  [bar].intercalate (allTexts fp infos args)

theorem readElements_eq (fp : FloatText) (kind : Kind) (memory : Bytes) (count m : Nat)
    (enough : kind.size * (m + count) ≤ memory.length) :
    readElements fp kind memory count m =
      .ok ((chunks kind.size count (memory.drop (kind.size * m))).map (elementText fp kind)) := by
  induction count generalizing m with
  | zero => rfl
  | succ count ih =>
      have room : kind.size * m + kind.size + kind.size * count ≤ memory.length := by
        have := enough
        rw [show m + (count + 1) = m + 1 + count by omega, Nat.mul_add, Nat.mul_add] at this
        omega
      have whole : ((memory.drop (kind.size * m)).take kind.size).length = kind.size := by
        simp only [List.length_take, List.length_drop]
        omega
      have next := ih (m + 1) (by rw [Nat.mul_add, Nat.mul_add]; omega)
      have after : memory.drop (kind.size * (m + 1)) = (memory.drop (kind.size * m)).drop kind.size := by
        rw [List.drop_drop, Nat.mul_succ]
      simp only [readElements, readElement, whole, if_true, next, after, chunks, Outcome.ok_bind,
        List.map_cons, pure, Except.pure]

theorem marshallOne_eq (fp : FloatText) (a : Args) (kind : Kind) (memory : Bytes)
    (known : a.kind = some kind) (size : kind.size * a.tokenCount ≤ memory.length) :
    marshallOne fp a kind (some memory) = .ok (argTexts fp a memory) := by
  rw [marshallOne, readElements_eq fp kind memory a.tokenCount 0 (by simpa using size)]
  simp [argTexts, known]

theorem marshallLoop_eq (fp : FloatText) (infos : List Args) (args : List Bytes)
    (readable : Readable infos args) :
    marshallLoop fp infos (args.map some) = .ok (some (allTexts fp infos args)) := by
  induction readable with
  | nil => rfl
  | @cons a memory infos args holds _ ih =>
      obtain ⟨kind, known, size⟩ := holds
      simp only [marshallLoop, List.map_cons, known, marshallOne_eq fp a kind memory known size, ih,
        allTexts, Outcome.ok_bind, Option.map_some, pure, Except.pure]

theorem marshallArgs_eq (fp : FloatText) (types after : List CInt) (args : List Bytes)
    (readable : Readable (types.map Args.ofType) args) :
    marshallArgs fp (types ++ after) (args.map some) types.length =
      .ok (joinedText fp (types.map Args.ofType) args) := by
  have inside : ¬ (types ++ after).length < types.length := by simp
  rw [marshallArgs, if_neg inside, List.take_left' rfl, marshallLoop_eq fp _ args readable]
  simp only [joinedText, dropLast_terminated, Outcome.ok_bind, pure, Except.pure]

def isExact : Kind → Bool
  | .char | .short | .int | .long => true
  | _ => false

def ExactTypes (infos : List Args) : Prop :=
  ∀ a ∈ infos, ∃ kind, a.kind = some kind ∧ isExact kind = true

def CharsAvoid (byte : UInt8) (infos : List Args) (args : List Bytes) : Prop :=
  List.Forall₂ (fun a memory => a.kind = some .char → byte ∉ memory.take a.tokenCount) infos args

section Free

/-! A byte that no decimal text contains is in the encoding only as a char. -/

variable (byte : UInt8) (plain : ∀ value : Int, byte ∉ decimal value)
include plain

theorem elementText_free (fp : FloatText) (kind : Kind) (object : Bytes)
    (exact_kind : isExact kind = true) (chars : kind = .char → byte ∉ object) :
    byte ∉ elementText fp kind object := by
  cases kind with
  | char => exact chars rfl
  | short => exact plain _
  | int => exact plain _
  | long => exact plain _
  | double => exact absurd exact_kind (by decide)
  | float => exact absurd exact_kind (by decide)

theorem argTexts_free (fp : FloatText) (a : Args) (memory : Bytes) (kind : Kind)
    (known : a.kind = some kind) (exact_kind : isExact kind = true)
    (size : kind.size * a.tokenCount ≤ memory.length)
    (chars : kind = .char → byte ∉ memory.take a.tokenCount) :
    ∀ text ∈ argTexts fp a memory, byte ∉ text := by
  intro text member
  simp only [argTexts, known, List.mem_map] at member
  obtain ⟨object, listed, rfl⟩ := member
  rw [← chunks_take] at listed
  have inside := (mem_chunks _ _ _ object (by rw [List.length_take]; omega) listed).2
  apply elementText_free byte plain fp kind object exact_kind
  rintro rfl held
  apply chars rfl
  have covered := inside byte held
  rwa [Kind.size, Nat.one_mul] at covered

theorem allTexts_free (fp : FloatText) (infos : List Args) (args : List Bytes)
    (readable : Readable infos args) (exact_types : ExactTypes infos)
    (chars : CharsAvoid byte infos args) : ∀ text ∈ allTexts fp infos args, byte ∉ text := by
  induction readable with
  | nil => simp [allTexts]
  | @cons a memory infos args holds _ ih =>
      obtain ⟨kind, known, size⟩ := holds
      obtain ⟨first, others⟩ := List.forall₂_cons.mp chars
      obtain ⟨kind', known', exact_kind⟩ := exact_types a List.mem_cons_self
      have same : kind' = kind := Option.some.inj (known'.symm.trans known)
      subst same
      intro text member
      rcases List.mem_append.mp member with here | later
      · exact argTexts_free byte plain fp a memory kind' known exact_kind size
          (fun char => first (by rw [known, char])) text here
      · exact ih (fun b listed => exact_types b (List.mem_cons_of_mem a listed)) others text later

end Free

theorem nul_not_in_joinedText (fp : FloatText) (infos : List Args) (args : List Bytes)
    (readable : Readable infos args) (exact_types : ExactTypes infos)
    (chars : CharsAvoid 0 infos args) : 0 ∉ joinedText fp infos args := by
  intro member
  rcases mem_intercalate bar _ 0 member with sep | ⟨text, listed, inside⟩
  · exact absurd sep (by decide)
  · exact allTexts_free 0 nul_not_in_decimal fp infos args readable exact_types chars text listed inside

theorem length_argTexts (fp : FloatText) (a : Args) (memory : Bytes) (kind : Kind)
    (known : a.kind = some kind) : (argTexts fp a memory).length = a.tokenCount := by
  simp [argTexts, known]

theorem argTexts_ne_nil (fp : FloatText) (infos : List Args) (args : List Bytes)
    (matching : Matching infos args) (some_infos : infos ≠ [])
    (lengths : ∀ a ∈ infos, 0 ≤ a.arrLength) : allTexts fp infos args ≠ [] := by
  cases matching with
  | nil => exact absurd rfl some_infos
  | @cons a memory infos args describes others =>
      obtain ⟨kind, known, _⟩ := describes
      have length := length_argTexts fp a memory kind known
      have count := tokenCount_eq a (lengths a List.mem_cons_self)
      rw [allTexts]
      intro empty
      rw [(List.append_eq_nil_iff.mp empty).1, List.length_nil] at length
      omega

theorem split_joinedText (fp : FloatText) (infos : List Args) (args : List Bytes)
    (some_text : allTexts fp infos args ≠ [])
    (free : ∀ text ∈ allTexts fp infos args, bar ∉ text)
    (fits : Splittable (joinedText fp infos args) bar) :
    split (joinedText fp infos args) bar = .ok (allTexts fp infos args) := by
  rw [split_ok _ _ fits, joinedText, List.splitOn_intercalate bar free some_text]

end BinderRpc.Marshalled
