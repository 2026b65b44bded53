import BinderRpc.Frames

/-!
The three keys made from one name and one signature. The register and execute
messages take the name whole; the location request copies it into a buffer of at
most MAXFUNCNAME bytes, terminator included, and reads it back as a C string.
-/

namespace BinderRpc.Naming

open Octets Text Signature Marshal Socket Database Binder Client Server Frames

/-- The key a client puts in its location request, with `heap` behind the buffer
of the name. -/
def locationKey (heap name : Bytes) (argTypes : ArgTypes) : Except Fault Bytes := do
  let m ← createLocationRequest name argTypes
  let func ← locationFunction heap m
  return func.getKey

/-- Every message for this name and signature carries the function's key, and
a registered procedure is found. -/
structure KeysAgree (name : Bytes) (argTypes : ArgTypes) : Prop where
  location : ∀ heap, locationKey heap name argTypes = .ok (Function.mk name argTypes).getKey
  requested : ∀ heap stale m frame key, createLocationRequest name argTypes = .ok m →
    locationRequestFrame heap m = .ok frame →
    (ReadsLocation stale frame key ↔ key = (Function.mk name argTypes).getKey)
  registered : ∀ (s : Server) hostBeyond nameBeyond stale m request, HostText s.host →
    s.createRegisterMessage hostBeyond nameBeyond ⟨name, argTypes⟩ = .ok m →
    ReadsRegister stale m.buff request → request.key = (Function.mk name argTypes).getKey
  executed : ∀ fp args stale frame request, executeRequestFrame fp name argTypes args = .ok frame →
    ReadsExecute stale frame request → request.key = (Function.mk name argTypes).getKey
  found : ∀ heap (db : BinderDB) fName sName port, ∃ key, locationKey heap name argTypes = .ok key ∧
    ((db.updateDb fName sName port (Function.mk name argTypes).getKey).2.lookup key).isSome

theorem createLocationRequest_short (name : Bytes) (argTypes : ArgTypes) (short : name.length ≤ 63) :
    createLocationRequest name argTypes =
      .ok ⟨locationRequest, name.length + 1, scanLength argTypes.array, name ++ [0], argTypes⟩ := by
  have fits : intOfSize (name.length + 1) = .ok (name.length + 1) := if_pos (by omega)
  have whole : (name ++ [0]).take (name.length + 1) = name ++ [0] :=
    List.take_of_length_le (by simp)
  have unclipped : ¬ name.length + 1 > maxFuncName := by
    simp only [maxFuncName]
    omega
  simp only [createLocationRequest, fits, Outcome.ok_bind, if_neg unclipped, whole, pure, Except.pure]

theorem createLocationRequest_long (name : Bytes) (argTypes : ArgTypes) (long : 63 < name.length)
    (m : LocationRequestMessage) (built : createLocationRequest name argTypes = .ok m) :
    m.funcNameBuffer = name.take maxFuncName := by
  obtain ⟨whole, fits, built⟩ := (Outcome.bind_eq_ok _ _ _).mp built
  obtain ⟨_, rfl⟩ := intOfSize_ok _ _ fits
  cases built
  have clipped : name.length + 1 > maxFuncName := by
    simp only [maxFuncName]
    omega
  simp only [if_pos clipped]
  rw [List.take_append_of_le_length]
  simp only [maxFuncName]
  omega

theorem locationFunction_short (heap name : Bytes) (argTypes : ArgTypes) (free : 0 ∉ name)
    (type : CInt) (length count : Nat) :
    locationFunction heap ⟨type, length, count, name ++ [0], argTypes⟩ = .ok ⟨name, argTypes⟩ := by
  have terminated : 0 ∈ name ++ [0] ++ heap := by simp
  have text : cText (name ++ [0] ++ heap) = name := by
    rw [List.append_assoc]
    exact cText_append_nul name heap free
  simp only [locationFunction, bufferText, if_pos terminated, text, Outcome.ok_bind, pure, Except.pure]

theorem locationKey_short (heap name : Bytes) (argTypes : ArgTypes) (free : 0 ∉ name)
    (short : name.length ≤ 63) : locationKey heap name argTypes = .ok (Function.mk name argTypes).getKey := by
  rw [locationKey, createLocationRequest_short name argTypes short, Outcome.ok_bind,
    locationFunction_short heap name argTypes free]
  rfl

theorem executed_key (fp : FloatText) (name : Bytes) (argTypes : ArgTypes) (free : 0 ∉ name)
    (args : List (Option Bytes)) (stale : Stale) (frame : Bytes) (request : ExecuteRequest)
    (built : executeRequestFrame fp name argTypes args = .ok frame)
    (read : ReadsExecute stale frame request) : request.key = (Function.mk name argTypes).getKey := by
  obtain ⟨text, _, fits, rfl⟩ := executeRequestFrame_ok fp name argTypes args frame built
  rw [(reads_execute stale _ text (nul_not_in_getKey ⟨name, argTypes⟩ free) fits request).mp read]

theorem keysAgree_iff (name : Bytes) (argTypes : ArgTypes) (free : 0 ∉ name) :
    KeysAgree name argTypes ↔ name.length ≤ 63 := by
  constructor
  · intro agree
    by_contra long
    -- memory without a terminator behind the buffer
    have key := agree.location []
    obtain ⟨m, built, key⟩ := (Outcome.bind_eq_ok _ _ _).mp key
    have buffer := createLocationRequest_long name argTypes (by omega) m built
    have open_end : ¬ 0 ∈ m.funcNameBuffer ++ [] := by
      rw [buffer, List.append_nil]
      exact fun member => free (List.mem_of_mem_take member)
    rw [locationFunction, bufferText, if_neg open_end] at key
    cases key
  · intro short
    have located := fun heap => locationKey_short heap name argTypes free short
    constructor
    · exact located
    · intro heap stale m frame key built framed_ok
      rw [createLocationRequest_short name argTypes short] at built
      cases built
      obtain ⟨func, same, fits, rfl⟩ := locationRequestFrame_ok heap _ frame framed_ok
      rw [locationFunction_short heap name argTypes free] at same
      cases same
      exact reads_location stale ⟨name, argTypes⟩ free (by omega) key
    · intro s hostBeyond nameBeyond stale m request host built read
      rw [(reads_register s host ⟨name, argTypes⟩ free hostBeyond nameBeyond stale m built request).mp
        read]
    · intro fp args stale frame request built read
      exact executed_key fp name argTypes free args stale frame request built read
    · intro heap db fName sName port
      refine ⟨_, located heap, ?_⟩
      rw [updateDb_lookup, Function.update_self]
      rfl

theorem keysAgree_sixtyThree : KeysAgree (List.replicate 63 97) ⟨[], by simp⟩ :=
  (keysAgree_iff _ _ (by decide)).mpr (by decide)

/-- A name of 64 bytes is read on into the memory behind its buffer, here "b",
and the registered procedure is not found. -/
theorem sixtyFour_missed :
    ∃ key, locationKey [98, 0] (List.replicate 64 97) ⟨[], by simp⟩ = .ok key ∧
      key ≠ (Function.mk (List.replicate 64 97) ⟨[], by simp⟩).getKey ∧
      (BinderDB.empty.updateDb [] [104] 1
        (Function.mk (List.replicate 64 97) ⟨[], by simp⟩).getKey).2.lookup key = none ∧
      ¬ KeysAgree (List.replicate 64 97) ⟨[], by simp⟩ := by
  have other : locationKey [98, 0] (List.replicate 64 97) ⟨[], by simp⟩ =
      .ok (List.replicate 64 97 ++ [98, 124, 48, 124]) := by rfl
  have differs : List.replicate 64 97 ++ [98, 124, 48, 124] ≠
      (Function.mk (List.replicate 64 97) ⟨[], by simp⟩).getKey := by
    have key : (Function.mk (List.replicate 64 97) ⟨[], by simp⟩).getKey =
        List.replicate 64 97 ++ [124, 48, 124] := by rfl
    rw [key]
    exact fun same => absurd (List.append_cancel_left same) (by decide)
  refine ⟨_, other, differs, ?_, ?_⟩
  · rw [updateDb_lookup, Function.update_of_ne differs]
    rfl
  · intro agree
    have same := agree.location [98, 0]
    rw [other] at same
    exact differs (Except.ok.inj same)

end BinderRpc.Naming
