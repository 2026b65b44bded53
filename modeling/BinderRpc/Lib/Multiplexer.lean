import Mathlib.Data.Finset.Sort
import Mathlib.Logic.Function.Basic
import BinderRpc.Lib.Outcome

/-!
A loop around `select`: a listening descriptor, connections under other
descriptors, and a state that every turn on a connection may change. One pass
copies the master set and walks over all descriptors up to the largest; accepting
and hanging up change the master set under its feet. `scan_eq_visits` says what
the walk comes to: the ready descriptors, once each, in ascending order.
-/

namespace BinderRpc.Multiplexer

open Outcome

inductive Turn (Note : Type) where
  /-- No connection was open under it. -/
  | stale
  | hungUp
  | served (note : Note)
  deriving DecidableEq, Repr

structure State (Shared Conn Note : Type) where
  shared : Shared
  /-- The connections that are open. -/
  conns : Nat → Option Conn
  master : Finset Nat
  fdmax : Nat
  /-- All turns so far. -/
  turns : List (Nat × Turn Note)

/-- `accept`; `none` for -1. A descriptor in use is not handed out again. -/
structure Accept (listener : Nat) (Conn : Type) where
  next : (Nat → Option Conn) → Option (Nat × Conn)
  unused : ∀ conns newfd conn, next conns = some (newfd, conn) → newfd ≠ listener ∧ conns newfd = none

def Accept.offering {listener : Nat} {Conn : Type} (k : Nat) (conn : Conn) : Accept listener Conn where
  next conns := if (conns (listener + 1 + k)).isNone then some (listener + 1 + k, conn) else none
  unused := by
    intro conns newfd handed given
    by_cases free : (conns (listener + 1 + k)).isNone
    · rw [if_pos free] at given
      cases given
      exact ⟨by omega, Option.isNone_iff_eq_none.mp free⟩
    · rw [if_neg free] at given
      cases given

structure Round (listener : Nat) (Conn Scratch : Type) where
  /-- The descriptors `select` reports, of those it is asked about. -/
  ready : Finset Nat
  accept : Accept listener Conn
  scratch : Nat → Scratch

variable {ε Shared Conn Scratch Note : Type}

def start (shared : Shared) (listener : Nat) : State Shared Conn Note where
  shared := shared
  conns := fun _ => none
  master := {listener}
  fdmax := listener
  turns := []

def accepted {listener : Nat} (accept : Accept listener Conn) (s : State Shared Conn Note) :
    State Shared Conn Note :=
  match accept.next s.conns with
  | none => s
  | some (newfd, conn) =>
      { s with
        conns := Function.update s.conns newfd (some conn)
        master := insert newfd s.master
        fdmax := if newfd > s.fdmax then newfd else s.fdmax }

/-- `close` and `FD_CLR`. -/
def dropped (fd : Nat) (how : Turn Note) (s : State Shared Conn Note) : State Shared Conn Note :=
  { s with
    conns := Function.update s.conns fd none
    master := s.master.erase fd
    turns := s.turns ++ [(fd, how)] }

def answered (fd : Nat) (note : Note) (shared : Shared) (conn : Conn) (s : State Shared Conn Note) :
    State Shared Conn Note :=
  { s with
    shared := shared
    conns := Function.update s.conns fd (some conn)
    turns := s.turns ++ [(fd, .served note)] }

section Loop
variable (listener : Nat) (turn : Scratch → Shared → Conn → Except ε (Option (Note × Shared × Conn)))

/-- The body of the loop for descriptor `i`. -/
def visit (round : Round listener Conn Scratch) (readFds : Finset Nat) (i : Nat)
    (s : State Shared Conn Note) : Except ε (State Shared Conn Note) :=
  if i ∉ readFds then .ok s
  else if i = listener then .ok (accepted round.accept s)
  else
    match s.conns i with
    -- a read from a closed descriptor fails like one from a lost peer
    | none => .ok (dropped i .stale s)
    | some conn =>
        match turn (round.scratch i) s.shared conn with
        | .error fault => .error fault
        | .ok none => .ok (dropped i .hungUp s)
        | .ok (some (note, shared, conn)) => .ok (answered i note shared conn s)

inductive Visited (round : Round listener Conn Scratch) (i : Nat) (s : State Shared Conn Note) :
    State Shared Conn Note → Prop where
  | accepts (here : i = listener) : Visited round i s (accepted round.accept s)
  | stale (other : i ≠ listener) (closed : s.conns i = none) : Visited round i s (dropped i .stale s)
  | hangsUp (other : i ≠ listener) (conn : Conn) (opened : s.conns i = some conn)
      (ended : turn (round.scratch i) s.shared conn = .ok none) :
      Visited round i s (dropped i .hungUp s)
  | serves (other : i ≠ listener) (conn after : Conn) (note : Note) (shared : Shared)
      (opened : s.conns i = some conn)
      (taken : turn (round.scratch i) s.shared conn = .ok (some (note, shared, after))) :
      Visited round i s (answered i note shared after s)

theorem visit_unready (round : Round listener Conn Scratch) (readFds : Finset Nat) (i : Nat)
    (s : State Shared Conn Note) (unready : i ∉ readFds) :
    visit listener turn round readFds i s = .ok s := by
  rw [visit, if_pos unready]

theorem visit_ok (round : Round listener Conn Scratch) (readFds : Finset Nat) (i : Nat)
    (s after : State Shared Conn Note) (ready : i ∈ readFds)
    (run : visit listener turn round readFds i s = .ok after) : Visited listener turn round i s after := by
  rw [visit, if_neg (not_not.mpr ready)] at run
  by_cases here : i = listener
  · rw [if_pos here] at run
    cases run
    exact .accepts here
  · rw [if_neg here] at run
    cases opened : s.conns i with
    | none =>
        rw [opened] at run
        cases run
        exact .stale here opened
    | some conn =>
        rw [opened] at run
        simp only at run
        cases taken : turn (round.scratch i) s.shared conn with
        | error fault =>
            rw [taken] at run
            cases run
        | ok outcome =>
            rw [taken] at run
            cases outcome with
            | none =>
                cases run
                exact .hangsUp here conn opened taken
            | some result =>
                cases run
                exact .serves here conn _ _ _ opened taken

theorem accepted_fdmax (accept : Accept listener Conn) (s : State Shared Conn Note) :
    s.fdmax ≤ (accepted accept s).fdmax := by
  unfold accepted
  split
  · exact Nat.le_refl _
  · simp only
    split <;> omega

theorem visit_fdmax (round : Round listener Conn Scratch) (readFds : Finset Nat) (i : Nat)
    (s after : State Shared Conn Note) (run : visit listener turn round readFds i s = .ok after) :
    s.fdmax ≤ after.fdmax ∧ (i ≠ listener → after.fdmax = s.fdmax) := by
  by_cases ready : i ∈ readFds
  · cases visit_ok listener turn round readFds i s after ready run with
    | accepts here => exact ⟨accepted_fdmax listener round.accept s, fun other => absurd here other⟩
    | stale => exact ⟨Nat.le_refl _, fun _ => rfl⟩
    | hangsUp => exact ⟨Nat.le_refl _, fun _ => rfl⟩
    | serves => exact ⟨Nat.le_refl _, fun _ => rfl⟩
  · rw [visit_unready listener turn round readFds i s ready] at run
    cases run
    exact ⟨Nat.le_refl _, fun _ => rfl⟩

/-- `for (i = ..; i <= fdmax; i++)`, the bound read again for each `i`. It grows
at the listener alone. -/
def scan (round : Round listener Conn Scratch) (readFds : Finset Nat) (i : Nat)
    (s : State Shared Conn Note) : Except ε (State Shared Conn Note) :=
  if i ≤ s.fdmax then
    match run : visit listener turn round readFds i s with
    | .error fault => .error fault
    | .ok after => scan round readFds (i + 1) after
  else .ok s
termination_by (listener + 1 - i, s.fdmax + 1 - i)
decreasing_by
  obtain ⟨_, same⟩ := visit_fdmax listener turn round readFds i s after run
  -- up to the listener the bound may move away; past it only `i` moves
  by_cases behind : i ≤ listener
  · exact Prod.Lex.left _ _ (by omega)
  · have first : listener + 1 - (i + 1) = listener + 1 - i := by omega
    have bound := same (by omega)
    rw [first, bound]
    exact Prod.Lex.right _ (by omega)

def pass (round : Round listener Conn Scratch) (s : State Shared Conn Note) :
    Except ε (State Shared Conn Note) :=
  scan listener turn round (round.ready ∩ s.master) 0 s

def run : List (Round listener Conn Scratch) → State Shared Conn Note →
    Except ε (State Shared Conn Note)
  | [], s => .ok s
  | round :: rest, s => do
      let after ← pass listener turn round s
      run rest after

end Loop

structure WellFormed (listener : Nat) (s : State Shared Conn Note) : Prop where
  bounded : ∀ fd ∈ s.master, fd ≤ s.fdmax
  members : ∀ fd, fd ∈ s.master ↔ fd = listener ∨ (s.conns fd).isSome
  apart : s.conns listener = none

theorem wellFormed_start (shared : Shared) (listener : Nat) :
    WellFormed listener (start shared listener : State Shared Conn Note) where
  bounded := by
    intro fd member
    exact Nat.le_of_eq (Finset.mem_singleton.mp member)
  members := by
    intro fd
    simp [start]
  apart := rfl

theorem wellFormed_accepted (listener : Nat) (accept : Accept listener Conn) (s : State Shared Conn Note)
    (valid : WellFormed listener s) : WellFormed listener (accepted accept s) := by
  unfold accepted
  cases next : accept.next s.conns with
  | none => exact valid
  | some handed =>
      obtain ⟨newfd, conn⟩ := handed
      obtain ⟨other, unused⟩ := accept.unused s.conns newfd conn next
      constructor
      · intro fd member
        simp only
        rcases Finset.mem_insert.mp member with rfl | old
        · split <;> omega
        · have := valid.bounded fd old
          split <;> omega
      · intro fd
        simp only [Finset.mem_insert, valid.members]
        by_cases same : fd = newfd
        · subst same
          simp
        · simp [same]
      · simp only [Function.update_of_ne (Ne.symm other), valid.apart]

theorem wellFormed_dropped (listener fd : Nat) (how : Turn Note) (s : State Shared Conn Note)
    (other : fd ≠ listener) (valid : WellFormed listener s) :
    WellFormed listener (dropped fd how s) where
  bounded := fun i member => valid.bounded i (Finset.mem_of_mem_erase member)
  members := by
    intro i
    simp only [dropped, Finset.mem_erase, valid.members]
    by_cases same : i = fd
    · subst same
      simp [other]
    · simp [same]
  apart := by
    simp only [dropped, Function.update_of_ne (Ne.symm other), valid.apart]

theorem wellFormed_answered (listener fd : Nat) (note : Note) (shared : Shared) (conn : Conn)
    (s : State Shared Conn Note) (opened : (s.conns fd).isSome) (valid : WellFormed listener s) :
    WellFormed listener (answered fd note shared conn s) where
  bounded := valid.bounded
  members := by
    intro i
    simp only [answered, valid.members]
    by_cases same : i = fd
    · subst same
      simp [opened]
    · simp [same]
  apart := by
    have other : listener ≠ fd := by
      rintro rfl
      rw [valid.apart] at opened
      cases opened
    simp only [answered, Function.update_of_ne other, valid.apart]

section Runs
variable (listener : Nat) (turn : Scratch → Shared → Conn → Except ε (Option (Note × Shared × Conn)))
  (round : Round listener Conn Scratch)

theorem Visited.wellFormed (i : Nat) (s after : State Shared Conn Note)
    (visited : Visited listener turn round i s after) (valid : WellFormed listener s) :
    WellFormed listener after := by
  cases visited with
  | accepts => exact wellFormed_accepted listener round.accept s valid
  | stale other => exact wellFormed_dropped listener i _ s other valid
  | hangsUp other => exact wellFormed_dropped listener i _ s other valid
  | serves _ conn _ _ _ opened =>
      exact wellFormed_answered listener i _ _ _ s (by rw [opened]; rfl) valid

theorem Visited.frame (i fd : Nat) (s after : State Shared Conn Note)
    (visited : Visited listener turn round i s after) (other : fd ≠ i) (conn : Conn)
    (opened : s.conns fd = some conn) : after.conns fd = some conn := by
  cases visited with
  | accepts =>
      unfold accepted
      cases next : round.accept.next s.conns with
      | none => exact opened
      | some handed =>
          obtain ⟨newfd, new⟩ := handed
          have unused := (round.accept.unused s.conns newfd new next).2
          have apart : fd ≠ newfd := by
            rintro rfl
            rw [opened] at unused
            cases unused
          simp only [Function.update_of_ne apart, opened]
  | stale => simp only [dropped, Function.update_of_ne other, opened]
  | hangsUp => simp only [dropped, Function.update_of_ne other, opened]
  | serves => simp only [answered, Function.update_of_ne other, opened]

/-! The walk as a list of visits. -/

def visits (readFds : Finset Nat) : List Nat → State Shared Conn Note → Except ε (State Shared Conn Note)
  | [], s => .ok s
  | i :: rest, s => do
      let after ← visit listener turn round readFds i s
      visits readFds rest after

theorem sort_from (fds : Finset Nat) (i : Nat) (member : i ∈ fds) :
    (fds.filter (i ≤ ·)).sort = i :: (fds.filter (i + 1 ≤ ·)).sort := by
  have cut : fds.filter (i ≤ ·) = insert i (fds.filter (i + 1 ≤ ·)) := by
    ext fd
    simp only [Finset.mem_filter, Finset.mem_insert]
    constructor
    · rintro ⟨listed, above⟩
      by_cases same : fd = i
      · exact Or.inl same
      · exact Or.inr ⟨listed, by omega⟩
    · rintro (rfl | ⟨listed, above⟩)
      · exact ⟨member, Nat.le_refl _⟩
      · exact ⟨listed, by omega⟩
  rw [cut, Finset.sort_insert]
  · intro fd above
    have := (Finset.mem_filter.mp above).2
    omega
  · simp

theorem filter_past (fds : Finset Nat) (i : Nat) (absent : i ∉ fds) :
    fds.filter (i ≤ ·) = fds.filter (i + 1 ≤ ·) := by
  ext fd
  simp only [Finset.mem_filter, and_congr_right_iff]
  intro listed
  have apart : fd ≠ i := fun same => absent (same ▸ listed)
  omega

theorem scan_next (readFds : Finset Nat) (i : Nat) (s : State Shared Conn Note) (inside : i ≤ s.fdmax) :
    scan listener turn round readFds i s =
      visit listener turn round readFds i s >>= scan listener turn round readFds (i + 1) := by
  rw [scan, if_pos inside]
  split
  · rename_i fault run
    rw [run]
    rfl
  · rename_i after run
    rw [run]
    rfl

/-- The walk is a visit to each descriptor of the copied set, in ascending order.
Whatever accepting adds to the master set is not in the copy. -/
theorem scan_eq_visits (readFds : Finset Nat) (i : Nat) (s : State Shared Conn Note)
    (bounded : ∀ fd ∈ readFds, fd ≤ s.fdmax) :
    scan listener turn round readFds i s =
      visits listener turn round readFds (readFds.filter (i ≤ ·)).sort s := by
  induction i, s using scan.induct listener turn round readFds with
  | case1 i s inside fault run =>
      -- a descriptor that is not ready cannot fail
      have ready : i ∈ readFds := by
        by_contra unready
        rw [visit_unready listener turn round readFds i s unready] at run
        cases run
      rw [scan_next listener turn round readFds i s inside, sort_from readFds i ready, visits, run]
      rfl
  | case2 i s inside after run ih =>
      have grown := (visit_fdmax listener turn round readFds i s after run).1
      have later := ih fun fd listed => Nat.le_trans (bounded fd listed) grown
      rw [scan_next listener turn round readFds i s inside]
      by_cases ready : i ∈ readFds
      · rw [sort_from readFds i ready, visits, run, ok_bind, ok_bind, later]
      · rw [run, ok_bind, later, filter_past readFds i ready]
        rw [visit_unready listener turn round readFds i s ready] at run
        cases run
        rfl
  | case3 i s past =>
      have empty : readFds.filter (i ≤ ·) = ∅ := by
        rw [Finset.filter_eq_empty_iff]
        intro fd listed above
        have := bounded fd listed
        omega
      rw [scan, if_neg past, empty, Finset.sort_empty, visits]

theorem pass_eq_visits (s : State Shared Conn Note) (valid : WellFormed listener s) :
    pass listener turn round s =
      visits listener turn round (round.ready ∩ s.master) (round.ready ∩ s.master).sort s := by
  have all : (round.ready ∩ s.master).filter (0 ≤ ·) = round.ready ∩ s.master :=
    Finset.filter_true_of_mem fun fd _ => Nat.zero_le fd
  rw [pass, scan_eq_visits, all]
  exact fun fd listed => valid.bounded fd (Finset.mem_inter.mp listed).2

theorem pass_single (s : State Shared Conn Note) (valid : WellFormed listener s) (fd : Nat)
    (member : fd ∈ s.master) (only : round.ready = {fd}) :
    pass listener turn round s = visit listener turn round {fd} fd s := by
  have ready : round.ready ∩ s.master = {fd} := by
    rw [only]
    exact Finset.inter_eq_left.mpr (Finset.singleton_subset_iff.mpr member)
  rw [pass_eq_visits listener turn round s valid, ready, Finset.sort_singleton, visits]
  cases visit listener turn round {fd} fd s <;> rfl

theorem run_single (rest : List (Round listener Conn Scratch)) (s next : State Shared Conn Note)
    (valid : WellFormed listener s) (fd : Nat) (member : fd ∈ s.master) (only : round.ready = {fd})
    (visited : visit listener turn round {fd} fd s = .ok next) :
    run listener turn (round :: rest) s = run listener turn rest next ∧ WellFormed listener next := by
  constructor
  · rw [run, pass_single listener turn round s valid fd member only, visited, ok_bind]
  · have step := visit_ok listener turn round {fd} fd s next (Finset.mem_singleton_self fd) visited
    exact step.wellFormed listener turn round fd s next valid

/-- What a visit adds to the turns: nothing at the listener, one elsewhere, and no
stale one where a connection is open. -/
theorem Visited.turns (i : Nat) (s after : State Shared Conn Note)
    (visited : Visited listener turn round i s after) :
    (i = listener ∧ after.turns = s.turns) ∨
      ∃ how, i ≠ listener ∧ after.turns = s.turns ++ [(i, how)] ∧
        ((s.conns i).isSome → how ≠ .stale) := by
  cases visited with
  | accepts here =>
      refine Or.inl ⟨here, ?_⟩
      unfold accepted
      split <;> rfl
  | stale other closed =>
      refine Or.inr ⟨.stale, other, rfl, fun opened => ?_⟩
      rw [closed] at opened
      cases opened
  | hangsUp other => exact Or.inr ⟨.hungUp, other, rfl, fun _ same => by cases same⟩
  | serves other _ _ note => exact Or.inr ⟨.served note, other, rfl, fun _ same => by cases same⟩

theorem visits_turns (readFds : Finset Nat) (fds : List Nat) (distinct : fds.Nodup)
    (listed : ∀ fd ∈ fds, fd ∈ readFds) (s after : State Shared Conn Note)
    (opened : ∀ fd ∈ fds, fd ≠ listener → (s.conns fd).isSome)
    (run : visits listener turn round readFds fds s = .ok after) :
    ∃ new, after.turns = s.turns ++ new ∧ new.map Prod.fst = fds.filter (· ≠ listener) ∧
      ∀ entry ∈ new, entry.2 ≠ .stale := by
  induction fds generalizing s with
  | nil =>
      cases run
      exact ⟨[], by simp, rfl, by simp⟩
  | cons i rest ih =>
      obtain ⟨fresh, distinct⟩ := List.nodup_cons.mp distinct
      obtain ⟨next, first, run⟩ := (bind_eq_ok _ _ _).mp run
      have visited := visit_ok listener turn round readFds i s next (listed i List.mem_cons_self) first
      -- the visit closes no other connection, so no later turn is stale
      have still : ∀ fd ∈ rest, fd ≠ listener → (next.conns fd).isSome := by
        intro fd member other
        have apart : fd ≠ i := fun same => fresh (same ▸ member)
        obtain ⟨conn, before⟩ := Option.isSome_iff_exists.mp
          (opened fd (List.mem_cons_of_mem i member) other)
        rw [visited.frame listener turn round i fd s next apart conn before]
        rfl
      obtain ⟨later, turns, order, known⟩ := ih distinct
        (fun fd member => listed fd (List.mem_cons_of_mem i member)) next still run
      rcases visited.turns listener turn round i s next with ⟨here, same⟩ | ⟨how, other, added, open_known⟩
      · refine ⟨later, by rw [turns, same], ?_, known⟩
        rw [order, List.filter_cons_of_neg (by simp [here])]
      · refine ⟨(i, how) :: later, by rw [turns, added, List.append_assoc]; rfl, ?_, ?_⟩
        · rw [List.map_cons, order, List.filter_cons_of_pos (by simp [other])]
        · intro entry member
          rcases List.mem_cons.mp member with rfl | old
          · exact open_known (opened i List.mem_cons_self other)
          · exact known entry old

theorem visits_wellFormed (readFds : Finset Nat) (fds : List Nat) (listed : ∀ fd ∈ fds, fd ∈ readFds)
    (s after : State Shared Conn Note) (valid : WellFormed listener s)
    (run : visits listener turn round readFds fds s = .ok after) : WellFormed listener after := by
  induction fds generalizing s with
  | nil =>
      cases run
      exact valid
  | cons i rest ih =>
      obtain ⟨next, first, run⟩ := (bind_eq_ok _ _ _).mp run
      have visited := visit_ok listener turn round readFds i s next (listed i List.mem_cons_self) first
      exact ih (fun fd member => listed fd (List.mem_cons_of_mem i member)) next
        (visited.wellFormed listener turn round i s next valid) run

theorem ready_open (s : State Shared Conn Note) (valid : WellFormed listener s) (fd : Nat)
    (member : fd ∈ (round.ready ∩ s.master).sort) (other : fd ≠ listener) : (s.conns fd).isSome := by
  have inside := (Finset.mem_inter.mp ((Finset.mem_sort _).mp member)).2
  exact ((valid.members fd).mp inside).resolve_left other

/-- One pass serves every ready connection, once, in ascending order, and no
descriptor without one. -/
structure Serves (s after : State Shared Conn Note) : Prop where
  valid : WellFormed listener after
  turns : ∃ new, after.turns = s.turns ++ new ∧
    new.map Prod.fst = (round.ready.filter fun fd => (s.conns fd).isSome).sort ∧
    ∀ entry ∈ new, entry.2 ≠ .stale

theorem pass_serves (s after : State Shared Conn Note) (valid : WellFormed listener s)
    (taken : pass listener turn round s = .ok after) : Serves listener round s after := by
  rw [pass_eq_visits listener turn round s valid] at taken
  have listed : ∀ fd ∈ (round.ready ∩ s.master).sort, fd ∈ round.ready ∩ s.master :=
    fun fd member => (Finset.mem_sort _).mp member
  obtain ⟨new, turns, order, known⟩ := visits_turns listener turn round _ _ (Finset.sort_nodup _ _)
    listed s after (ready_open listener round s valid) taken
  refine ⟨visits_wellFormed listener turn round _ _ listed s after valid taken, new, turns, ?_, known⟩
  have sorted : ((round.ready ∩ s.master).sort.filter (· ≠ listener)).SortedLT :=
    ((Finset.sortedLT_sort _).pairwise.filter _).sortedLT
  rw [order]
  -- both are strictly ascending, so they are equal by their members
  refine sorted.eq_of_mem_iff (Finset.sortedLT_sort _) fun fd => ?_
  simp only [List.mem_filter, Finset.mem_sort, Finset.mem_inter, Finset.mem_filter, valid.members,
    decide_eq_true_eq]
  constructor
  · rintro ⟨⟨ready, here | conn⟩, other⟩
    · exact absurd here other
    · exact ⟨ready, conn⟩
  · rintro ⟨ready, conn⟩
    refine ⟨⟨ready, Or.inr conn⟩, ?_⟩
    rintro rfl
    rw [valid.apart] at conn
    cases conn

theorem visits_keeps (holds : State Shared Conn Note → Prop)
    (kept : ∀ round i s after, WellFormed listener s → holds s →
      Visited listener turn round i s after → holds after)
    (readFds : Finset Nat) (fds : List Nat) (listed : ∀ fd ∈ fds, fd ∈ readFds)
    (s after : State Shared Conn Note) (valid : WellFormed listener s) (before : holds s)
    (run : visits listener turn round readFds fds s = .ok after) : holds after := by
  induction fds generalizing s with
  | nil =>
      cases run
      exact before
  | cons i rest ih =>
      obtain ⟨next, first, run⟩ := (bind_eq_ok _ _ _).mp run
      have visited := visit_ok listener turn round readFds i s next (listed i List.mem_cons_self) first
      exact ih (fun fd member => listed fd (List.mem_cons_of_mem i member)) next
        (visited.wellFormed listener turn round i s next valid) (kept round i s next valid before visited) run

omit round in
theorem run_keeps (holds : State Shared Conn Note → Prop)
    (kept : ∀ round i s after, WellFormed listener s → holds s →
      Visited listener turn round i s after → holds after)
    (rounds : List (Round listener Conn Scratch)) (s after : State Shared Conn Note)
    (valid : WellFormed listener s) (before : holds s)
    (ended : run listener turn rounds s = .ok after) : WellFormed listener after ∧ holds after := by
  induction rounds generalizing s with
  | nil =>
      cases ended
      exact ⟨valid, before⟩
  | cons round rest ih =>
      obtain ⟨next, first, ended⟩ := (bind_eq_ok _ _ _).mp ended
      have later := (pass_serves listener turn round s next valid first).valid
      rw [pass_eq_visits listener turn round s valid] at first
      exact ih next later (visits_keeps listener turn round holds kept _ _
        (fun fd member => (Finset.mem_sort _).mp member) s next valid before first) ended

end Runs

end BinderRpc.Multiplexer
