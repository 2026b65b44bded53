import BinderRpc.Lib.Runs
import BinderRpc.Location
import BinderRpc.Registering

/-!
One binder and any number of servers whose rpcRegister calls interleave. A call
is three steps: its run begins and sends the message, a turn of the binder reads
the message and updates the database, the run ends. The flag that the run ends by
is taken to be the one the binder decided. Between the last two steps the binder
is one procedure ahead of that server; otherwise both sides agree on every key.
-/

namespace BinderRpc.Agreement

open Octets Text Signature Socket Database Binder Server Frames Registry Location Registering

inductive Phase (Skel : Type) where
  | idle
  /-- The message is on its way to the binder. -/
  | requested (call : RegisterCall Skel) (message : Bytes)
  /-- The flag is on its way back. -/
  | answered (call : RegisterCall Skel) (message : Bytes) (flag : CInt)

structure World (ι Skel : Type) where
  binder : BinderDB
  servers : ι → ServerDB Skel
  phase : ι → Phase Skel
  /-- Keys and skeletons of the completed calls, newest first. -/
  completed : ι → List (Bytes × Skel)

def latest {Skel : Type} : List (Bytes × Skel) → Bytes → Option Skel
  | [], _ => none
  | entry :: older, key => if entry.1 = key then some entry.2 else latest older key

theorem latest_isSome {Skel : Type} (log : List (Bytes × Skel)) (key : Bytes) :
    (latest log key).isSome ↔ ∃ f, (key, f) ∈ log := by
  induction log with
  | nil => simp [latest]
  | cons entry older ih =>
      by_cases hit : entry.1 = key
      · subst hit
        simp only [latest, if_true, Option.isSome_some, true_iff]
        exact ⟨entry.2, List.mem_cons_self⟩
      · rw [latest, if_neg hit, ih]
        constructor
        · rintro ⟨f, listed⟩
          exact ⟨f, List.mem_cons_of_mem entry listed⟩
        · rintro ⟨f, listed⟩
          rcases List.mem_cons.mp listed with rfl | older
          · exact absurd rfl hit
          · exact ⟨f, older⟩

variable {ι Skel : Type} [DecidableEq ι]

/-- Distinct addresses, with hosts as rpcInit copies them out of their array. -/
structure Addressed (address : ι → Server) : Prop where
  distinct : ∀ i j, (address i).host = (address j).host → (address i).port = (address j).port → i = j
  hosts : ∀ i, HostText (address i).host

def World.start : World ι Skel where
  binder := BinderDB.empty
  servers := fun _ => ServerDB.empty Skel
  phase := fun _ => .idle
  completed := fun _ => []

inductive Step (address : ι → Server) (w : World ι Skel) : World ι Skel → Prop where
  | request (i : ι) (call : RegisterCall Skel) (message : Bytes) (idle : w.phase i = .idle)
      (name_free : 0 ∉ call.name) (begins : Begins (address i) (w.servers i) call message) :
      Step address w { w with phase := Function.update w.phase i (.requested call message) }
  | process (i : ι) (call : RegisterCall Skel) (message : Bytes) (flag : CInt) (after : BinderDB)
      (waiting : w.phase i = .requested call message) (turn : Processes w.binder message flag after) :
      Step address w
        { w with
          binder := after
          phase := Function.update w.phase i (.answered call message flag) }
  | conclude (i : ι) (call : RegisterCall Skel) (message : Bytes) (flag : CInt) (after : ServerDB Skel)
      (waiting : w.phase i = .answered call message flag)
      (run : Registers (address i) (w.servers i) call message flag after) :
      Step address w
        { w with
          servers := Function.update w.servers i after
          phase := Function.update w.phase i .idle
          completed := Function.update w.completed i ((call.func.getKey, call.f) :: w.completed i) }

def Reachable (address : ι → Server) (w : World ι Skel) : Prop :=
  Runs.Reached (· = World.start) (Step address) w

def info (s : Server) : ServerInfo := ⟨s.host, s.port⟩

/-- The binder has processed a call of `i` for this key that `i` has not concluded. -/
def InFlight (w : World ι Skel) (i : ι) (key : Bytes) : Prop :=
  ∃ call message flag, w.phase i = .answered call message flag ∧ call.func.getKey = key

structure Invariant (address : ι → Server) (w : World ι Skel) : Prop where
  nonempty : ∀ key, w.binder.lookup key ≠ some []
  messages : ∀ i call message, w.phase i = .requested call message →
    0 ∉ call.name ∧ ∃ m, call.message (address i) = .ok m ∧ message = m.buff
  skeletons : ∀ i key, (w.servers i).lookup key = latest (w.completed i) key
  functions : ∀ i key, ((w.servers i).functions key).isSome = (latest (w.completed i) key).isSome
  enrolled : ∀ i key, info (address i) ∈ (w.binder.lookup key).getD [] ↔
    (latest (w.completed i) key).isSome ∨ InFlight w i key
  flags : ∀ i call message flag, w.phase i = .answered call message flag →
    flag = if (latest (w.completed i) call.func.getKey).isSome then registerWarning else registerSuccess

omit [DecidableEq ι] in
theorem invariant_start (address : ι → Server) : Invariant address (World.start : World ι Skel) := by
  constructor
  · intro key
    simp [World.start, BinderDB.empty]
  · intro i call message waiting
    cases waiting
  · intro i key
    rfl
  · intro i key
    rfl
  · intro i key
    simp [World.start, BinderDB.empty, latest, InFlight]
  · intro i call message flag waiting
    cases waiting

theorem lookup_conclude (db : ServerDB Skel) (func : Function) (f : Skel) (flag : CInt) (known : Bool)
    (has : (db.lookup func.getKey).isSome = known)
    (told : flag = if known then registerWarning else registerSuccess) :
    (concludeRegister db flag func f).2.lookup = Function.update db.lookup func.getKey (some f) := by
  cases known with
  | true =>
      have flag_eq : flag = registerWarning := told
      subst flag_eq
      rfl
  | false =>
      have flag_eq : flag = registerSuccess := told
      subst flag_eq
      have fresh : ¬ (db.lookup func.getKey).isSome = true := by simp [has]
      change insertMissing db.lookup func.getKey f = _
      rw [insertMissing, if_neg fresh]

theorem functions_conclude (db : ServerDB Skel) (func : Function) (f : Skel) (flag : CInt) (known : Bool)
    (has : (db.functions func.getKey).isSome = known)
    (told : flag = if known then registerWarning else registerSuccess) (key : Bytes) :
    ((concludeRegister db flag func f).2.functions key).isSome =
      (decide (func.getKey = key) || (db.functions key).isSome) := by
  cases known with
  | true =>
      have flag_eq : flag = registerWarning := told
      subst flag_eq
      change (db.functions key).isSome = _
      by_cases same : func.getKey = key
      · subst same
        simp [has]
      · simp [same]
  | false =>
      have flag_eq : flag = registerSuccess := told
      subst flag_eq
      have fresh : ¬ (db.functions func.getKey).isSome = true := by simp [has]
      change (insertMissing db.functions func.getKey func key).isSome = _
      rw [insertMissing, if_neg fresh]
      by_cases same : func.getKey = key
      · subst same
        simp
      · rw [Function.update_of_ne (Ne.symm same)]
        simp [same]

/-- After one party's step a party's state is its new one, or another's old one. -/
theorem update_cases {β : Type} (states : ι → β) (i j : ι) (state next : β)
    (there : Function.update states i state j = next) :
    (j = i ∧ state = next) ∨ (j ≠ i ∧ states j = next) := by
  by_cases same : j = i
  · subst same
    rw [Function.update_self] at there
    exact Or.inl ⟨rfl, there⟩
  · rw [Function.update_of_ne same] at there
    exact Or.inr ⟨same, there⟩

section Steps

variable (address : ι → Server) (w : World ι Skel)

theorem inFlight_update (i j : ι) (key : Bytes) (phase : Phase Skel) (binder : BinderDB)
    (servers : ι → ServerDB Skel) (completed : ι → List (Bytes × Skel)) :
    InFlight ⟨binder, servers, Function.update w.phase i phase, completed⟩ j key ↔
      if j = i then ∃ call message flag, phase = .answered call message flag ∧ call.func.getKey = key
      else InFlight w j key := by
  by_cases same : j = i
  · subst same
    simp only [InFlight, Function.update_self, if_true]
  · simp only [InFlight, Function.update_of_ne same, if_neg same]

theorem invariant_request (i : ι) (call : RegisterCall Skel) (message : Bytes)
    (idle : w.phase i = .idle) (name_free : 0 ∉ call.name)
    (begins : Begins (address i) (w.servers i) call message) (before : Invariant address w) :
    Invariant address { w with phase := Function.update w.phase i (.requested call message) } := by
  constructor
  · exact before.nonempty
  · intro j call' message' waiting
    rcases update_cases w.phase i j _ _ waiting with ⟨rfl, sent⟩ | ⟨_, waiting⟩
    · cases sent
      exact ⟨name_free, (begins_iff (address j) (w.servers j) call message).mp begins⟩
    · exact before.messages j call' message' waiting
  · exact before.skeletons
  · exact before.functions
  · intro j key
    rw [before.enrolled j key, inFlight_update w i j key _ w.binder w.servers w.completed]
    by_cases same : j = i
    · subst same
      simp [InFlight, idle]
    · rw [if_neg same]
  · intro j call' message' flag waiting
    rcases update_cases w.phase i j _ _ waiting with ⟨_, sent⟩ | ⟨_, waiting⟩
    · cases sent
    · exact before.flags j call' message' flag waiting

theorem invariant_process (addressed : Addressed address) (i : ι) (call : RegisterCall Skel)
    (message : Bytes) (flag : CInt) (after : BinderDB) (waiting : w.phase i = .requested call message)
    (turn : Processes w.binder message flag after) (before : Invariant address w) :
    Invariant address
      { w with
        binder := after
        phase := Function.update w.phase i (.answered call message flag) } := by
  obtain ⟨name_free, m, built, rfl⟩ := before.messages i call message waiting
  obtain ⟨decided, rfl⟩ := (processes_iff (address i) (addressed.hosts i) call name_free m built w.binder
    after flag).mp turn
  rw [updateDb_flag] at decided
  -- the server has no call in flight, so its own log says whether it is enlisted
  have known : info (address i) ∈ (w.binder.lookup call.func.getKey).getD [] ↔
      (latest (w.completed i) call.func.getKey).isSome := by
    rw [before.enrolled]
    simp [InFlight, waiting]
  constructor
  · exact nonempty_updateDb w.binder _ _ _ _ before.nonempty
  · intro j call' message' other
    rcases update_cases w.phase i j _ _ other with ⟨_, answered⟩ | ⟨_, other⟩
    · cases answered
    · exact before.messages j call' message' other
  · exact before.skeletons
  · exact before.functions
  · intro j key
    rw [inFlight_update w i j key _ _ w.servers w.completed,
      mem_updateDb w.binder _ _ _ _ before.nonempty, before.enrolled]
    by_cases same : j = i
    · subst same
      have answers : key = call.func.getKey ↔ call.func.getKey = key := eq_comm
      simp [info, InFlight, waiting, answers, or_comm]
    · rw [if_neg same]
      constructor
      · rintro (⟨_, equal⟩ | old)
        · have fields := ServerInfo.mk.inj equal
          exact absurd (addressed.distinct j i fields.1 fields.2) same
        · exact old
      · exact Or.inr
  · intro j call' message' flag' other
    rcases update_cases w.phase i j _ _ other with ⟨rfl, answered⟩ | ⟨_, other⟩
    · cases answered
      rw [decided]
      exact if_congr known rfl rfl
    · exact before.flags j call' message' flag' other

theorem invariant_conclude (i : ι) (call : RegisterCall Skel) (message : Bytes) (flag : CInt)
    (after : ServerDB Skel) (waiting : w.phase i = .answered call message flag)
    (run : Registers (address i) (w.servers i) call message flag after) (before : Invariant address w) :
    Invariant address
      { w with
        servers := Function.update w.servers i after
        phase := Function.update w.phase i .idle
        completed := Function.update w.completed i ((call.func.getKey, call.f) :: w.completed i) } := by
  obtain ⟨_, rfl⟩ := registers_step (address i) (w.servers i) after call message flag run
  have told := before.flags i call message flag waiting
  have skeleton := lookup_conclude (w.servers i) call.func call.f flag _
    (congrArg Option.isSome (before.skeletons i call.func.getKey)) told
  have function := functions_conclude (w.servers i) call.func call.f flag _
    (before.functions i call.func.getKey) told
  constructor
  · exact before.nonempty
  · intro j call' message' other
    rcases update_cases w.phase i j _ _ other with ⟨_, idle⟩ | ⟨_, other⟩
    · cases idle
    · exact before.messages j call' message' other
  · intro j key
    by_cases same : j = i
    · subst same
      simp only [Function.update_self, skeleton, latest]
      by_cases here : call.func.getKey = key
      · subst here
        simp
      · rw [Function.update_of_ne (Ne.symm here), if_neg here]
        exact before.skeletons j key
    · simp only [Function.update_of_ne same]
      exact before.skeletons j key
  · intro j key
    by_cases same : j = i
    · subst same
      simp only [Function.update_self, function, before.functions, latest]
      by_cases here : call.func.getKey = key
      · simp [here]
      · simp [here]
    · simp only [Function.update_of_ne same]
      exact before.functions j key
  · intro j key
    rw [inFlight_update w i j key _ w.binder _ _, before.enrolled j key]
    by_cases same : j = i
    · subst same
      -- what was in flight is now in the server's own log
      rw [if_pos rfl]
      simp only [Function.update_self, latest, InFlight, waiting]
      by_cases here : call.func.getKey = key
      · subst here
        simp
      · simp [here]
    · simp only [Function.update_of_ne same, if_neg same]
  · intro j call' message' flag' other
    rcases update_cases w.phase i j _ _ other with ⟨_, idle⟩ | ⟨same, other⟩
    · cases idle
    · simp only [Function.update_of_ne same]
      exact before.flags j call' message' flag' other

end Steps

theorem invariant_step (address : ι → Server) (addressed : Addressed address) (w w' : World ι Skel)
    (before : Invariant address w) (taken : Step address w w') : Invariant address w' := by
  cases taken with
  | request i call message idle name_free begins =>
      exact invariant_request address w i call message idle name_free begins before
  | process i call message flag after waiting turn =>
      exact invariant_process address w addressed i call message flag after waiting turn before
  | conclude i call message flag after waiting run =>
      exact invariant_conclude address w i call message flag after waiting run before

theorem invariant_reachable (address : ι → Server) (addressed : Addressed address) (w : World ι Skel)
    (reachable : Reachable address w) : Invariant address w := by
  refine Runs.always _ _ _ ?_ (invariant_step address addressed) w reachable
  rintro _ rfl
  exact invariant_start address

def HasRegistered (w : World ι Skel) (i : ι) (key : Bytes) : Prop := ∃ f, (key, f) ∈ w.completed i

structure Agrees (address : ι → Server) (w : World ι Skel) (i : ι) (key : Bytes) : Prop where
  binder : (∃ servers, w.binder.lookup key = some servers ∧ info (address i) ∈ servers) ↔
    HasRegistered w i key
  functions : ((w.servers i).functions key).isSome ↔ HasRegistered w i key
  lookup : ((w.servers i).lookup key).isSome ↔ HasRegistered w i key
  skeleton : (w.servers i).lookup key = latest (w.completed i) key

theorem agrees_of_idle (address : ι → Server) (addressed : Addressed address) (w : World ι Skel)
    (reachable : Reachable address w) (i : ι) (idle : w.phase i = .idle) (key : Bytes) :
    Agrees address w i key := by
  have holds := invariant_reachable address addressed w reachable
  have registered := latest_isSome (w.completed i) key
  constructor
  · have enrolled := holds.enrolled i key
    have quiet : ¬ InFlight w i key := by
      rintro ⟨call, message, flag, waiting, _⟩
      rw [idle] at waiting
      cases waiting
    rw [or_iff_left quiet, registered] at enrolled
    rw [HasRegistered, ← enrolled]
    cases w.binder.lookup key with
    | none => simp
    | some servers => simp
  · rw [holds.functions i key, registered]
    rfl
  · rw [holds.skeletons i key, registered]
    rfl
  · exact holds.skeletons i key

theorem registration_completes (address : ι → Server) (addressed : Addressed address) (w : World ι Skel)
    (reachable : Reachable address w) (i : ι) (idle : w.phase i = .idle) (func : Function) (f : Skel)
    (name_free : 0 ∉ func.name) (fits : func.getKey.length + 143 < 2 ^ 31) :
    ∃ w', Reachable address w' ∧ w'.phase i = .idle ∧
      w'.completed i = (func.getKey, f) :: w.completed i := by
  let call : RegisterCall Skel := ⟨literal, func.name, func.argTypes, f⟩
  obtain ⟨m, built, _⟩ := createRegisterMessage_fits (address i) literal.hostBeyond literal.nameBeyond func
    fits
  have turn := (processes_iff (address i) (addressed.hosts i) call name_free m built w.binder _ _).mpr
    ⟨rfl, rfl⟩
  have run := literal_registers (address i) (w.servers i) call m
    (w.binder.updateDb (call.name.take maxFuncName) (address i).host (address i).port call.func.getKey).1
    rfl built
  have first := Runs.Reached.step _ _ reachable
    (Step.request i call m.buff idle name_free ⟨_, _, run⟩)
  have second := Runs.Reached.step _ _ first
    (Step.process i call m.buff _ _ (Function.update_self ..) turn)
  have third := Runs.Reached.step _ _ second
    (Step.conclude i call m.buff _ _ (Function.update_self ..) run)
  exact ⟨_, third, Function.update_self .., Function.update_self ..⟩

def twoServers (i : Bool) : Server := ⟨[104], if i then 1 else 2⟩

theorem twoServers_addressed : Addressed twoServers := by
  constructor
  · intro i j _ ports
    cases i <;> cases j <;> first | rfl | exact absurd ports (by decide)
  · intro i
    exact ⟨by simp [twoServers, maxHostName], by simp [twoServers]⟩

theorem agrees_after_registration :
    ∃ w : World Bool Unit, HasRegistered w true noArguments.getKey ∧
      Agrees twoServers w true noArguments.getKey := by
  have start : Reachable twoServers (World.start : World _ Unit) := Runs.Reached.start _ rfl
  obtain ⟨w, reachable, idle, log⟩ := registration_completes twoServers twoServers_addressed
    World.start start true rfl noArguments () (by decide) (by decide)
  have listed : (noArguments.getKey, ()) ∈ w.completed true := by
    rw [log]
    exact List.mem_cons_self
  exact ⟨w, ⟨(), listed⟩,
    agrees_of_idle twoServers twoServers_addressed w reachable true idle noArguments.getKey⟩

end BinderRpc.Agreement
