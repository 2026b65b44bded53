import BinderRpc.Lib.Multiplexer

/-!
A single connection of the loop. Its turns are interleaved with those of the
others, but as far as they do not depend on the shared state the connection comes
out of a run as its own turns alone would leave it.
-/

namespace BinderRpc.Multiplexer

open Outcome

variable {ε Shared Conn Scratch Note : Type}

/-- What is heard on a connection, its turns taken by themselves. -/
def solo {View Heard : Type} (own : Scratch → View → Option (Heard × View)) :
    List Scratch → View → List Heard × Option View
  | [], view => ([], some view)
  | scratch :: rest, view =>
      match own scratch view with
      | none => ([], none)
      | some (first, later) => (first :: (solo own rest later).1, (solo own rest later).2)

def Turn.note : Turn Note → Option Note
  | .served note => some note
  | _ => none

def heard {Heard : Type} (hear : Note → Heard) (fd : Nat) (turns : List (Nat × Turn Note)) : List Heard :=
  (turns.filter fun entry => entry.1 = fd).filterMap fun entry => entry.2.note.map hear

/-- What a turn reads of its connection, and leaves of it, is not up to the shared
state. -/
structure Projects {View Heard : Type}
    (turn : Scratch → Shared → Conn → Except ε (Option (Note × Shared × Conn)))
    (holds : Shared → Prop) (view : Conn → View) (hear : Note → Heard)
    (own : Scratch → View → Option (Heard × View)) : Prop where
  ended : ∀ scratch shared conn, holds shared → turn scratch shared conn = .ok none →
    own scratch (view conn) = none
  taken : ∀ scratch shared conn note later after, holds shared →
    turn scratch shared conn = .ok (some (note, later, after)) →
      holds later ∧ own scratch (view conn) = some (hear note, view after)

theorem heard_append {Heard : Type} (hear : Note → Heard) (fd : Nat)
    (first second : List (Nat × Turn Note)) :
    heard hear fd (first ++ second) = heard hear fd first ++ heard hear fd second := by
  rw [heard, List.filter_append, List.filterMap_append]
  rfl

theorem heard_other {Heard : Type} (hear : Note → Heard) (fd i : Nat) (how : Turn Note)
    (other : fd ≠ i) : heard hear fd [(i, how)] = [] := by
  rw [heard, List.filter_cons_of_neg (by simpa using Ne.symm other)]
  rfl

theorem solo_append {View Heard : Type} (own : Scratch → View → Option (Heard × View))
    (first second : List Scratch) (view middle : View) (half : (solo own first view).2 = some middle) :
    solo own (first ++ second) view =
      ((solo own first view).1 ++ (solo own second middle).1, (solo own second middle).2) := by
  induction first generalizing view with
  | nil =>
      cases half
      rfl
  | cons scratch rest ih =>
      simp only [solo, List.cons_append] at half ⊢
      cases taken : own scratch view with
      | none =>
          rw [taken] at half
          cases half
      | some result =>
          rw [taken] at half
          simp only at half ⊢
          rw [ih result.2 half]
          rfl

theorem solo_front {View Heard : Type} (own : Scratch → View → Option (Heard × View))
    (first second : List Scratch) (view last : View)
    (whole : (solo own (first ++ second) view).2 = some last) :
    ∃ middle, (solo own first view).2 = some middle := by
  induction first generalizing view with
  | nil => exact ⟨view, rfl⟩
  | cons scratch rest ih =>
      simp only [solo, List.cons_append] at whole ⊢
      cases taken : own scratch view with
      | none =>
          rw [taken] at whole
          cases whole
      | some result =>
          rw [taken] at whole
          exact ih result.2 whole

section Tracking
variable {View Heard : Type} (view : Conn → View) (hear : Note → Heard)
  (own : Scratch → View → Option (Heard × View)) (fd : Nat)

/-- Between two states the connection under `fd` has had these turns, as it would
have had them by itself. -/
def Tracks (s after : State Shared Conn Note) (scratches : List Scratch) : Prop :=
  ∃ new, after.turns = s.turns ++ new ∧
    ∀ conn last, s.conns fd = some conn → (solo own scratches (view conn)).2 = some last →
      heard hear fd new = (solo own scratches (view conn)).1 ∧
        ∃ later, after.conns fd = some later ∧ view later = last

theorem tracks_refl (s : State Shared Conn Note) : Tracks view hear own fd s s [] := by
  refine ⟨[], by simp, ?_⟩
  intro conn last opened ends
  cases ends
  exact ⟨rfl, conn, opened, rfl⟩

theorem tracks_trans (s middle after : State Shared Conn Note) (first second : List Scratch)
    (sooner : Tracks view hear own fd s middle first)
    (later : Tracks view hear own fd middle after second) :
    Tracks view hear own fd s after (first ++ second) := by
  obtain ⟨front, turns, early⟩ := sooner
  obtain ⟨back, more, late⟩ := later
  refine ⟨front ++ back, by rw [more, turns, List.append_assoc], ?_⟩
  intro conn last opened ends
  -- the second half starts where the first leaves the connection
  obtain ⟨half, reached⟩ := solo_front own first second (view conn) last ends
  obtain ⟨heards, conn', opened', same⟩ := early conn half opened reached
  rw [solo_append own first second (view conn) half reached] at ends ⊢
  subst same
  obtain ⟨others, ended⟩ := late conn' last opened' ends
  exact ⟨by rw [heard_append, heards, others], ended⟩

end Tracking

def scratches {listener : Nat} (fd : Nat) (rounds : List (Round listener Conn Scratch)) : List Scratch :=
  (rounds.filter fun round => fd ∈ round.ready).map fun round => round.scratch fd

section Projection
variable {View Heard : Type} (listener : Nat)
  (turn : Scratch → Shared → Conn → Except ε (Option (Note × Shared × Conn)))
  (holds : Shared → Prop) (view : Conn → View) (hear : Note → Heard)
  (own : Scratch → View → Option (Heard × View)) (projects : Projects turn holds view hear own)
  (round : Round listener Conn Scratch) (fd : Nat)
include projects

theorem Visited.keeps (i : Nat) (s after : State Shared Conn Note) (before : holds s.shared)
    (visited : Visited listener turn round i s after) : holds after.shared := by
  cases visited with
  | accepts =>
      unfold accepted
      split <;> exact before
  | stale => exact before
  | hangsUp => exact before
  | serves _ conn after note shared _ taken => exact (projects.taken _ _ _ _ _ _ before taken).1

theorem Visited.tracks (i : Nat) (s after : State Shared Conn Note) (before : holds s.shared)
    (served : fd ≠ listener) (visited : Visited listener turn round i s after) :
    Tracks view hear own fd s after (if fd = i then [round.scratch fd] else []) := by
  by_cases here : fd = i
  · rw [if_pos here]
    subst here
    cases visited with
    | accepts same => exact absurd same served
    | stale _ closed =>
        refine ⟨_, rfl, ?_⟩
        intro conn last opened
        rw [closed] at opened
        cases opened
    | hangsUp _ conn opened ended =>
        refine ⟨_, rfl, ?_⟩
        intro conn' last opened' ends
        cases opened.symm.trans opened'
        rw [solo, projects.ended _ _ _ before ended] at ends
        cases ends
    | serves _ conn later note shared opened taken =>
        refine ⟨_, rfl, ?_⟩
        intro conn' last opened' ends
        cases opened.symm.trans opened'
        rw [solo, (projects.taken _ _ _ _ _ _ before taken).2] at ends ⊢
        cases ends
        exact ⟨by simp [heard, Turn.note, solo], later, by simp [answered], rfl⟩
  · rw [if_neg here]
    rcases visited.turns listener turn round i s after with ⟨_, same⟩ | ⟨how, _, added, _⟩
    · refine ⟨[], by simp [same], ?_⟩
      intro conn last opened ends
      cases ends
      exact ⟨rfl, conn, visited.frame listener turn round i fd s after here conn opened, rfl⟩
    · refine ⟨_, added, ?_⟩
      intro conn last opened ends
      cases ends
      exact ⟨heard_other hear fd i how here, conn,
        visited.frame listener turn round i fd s after here conn opened, rfl⟩

theorem visits_track (served : fd ≠ listener) (readFds : Finset Nat) (fds : List Nat)
    (distinct : fds.Nodup) (listed : ∀ i ∈ fds, i ∈ readFds) (s after : State Shared Conn Note)
    (before : holds s.shared) (run : visits listener turn round readFds fds s = .ok after) :
    holds after.shared ∧
      Tracks view hear own fd s after (if fd ∈ fds then [round.scratch fd] else []) := by
  induction fds generalizing s with
  | nil =>
      cases run
      exact ⟨before, tracks_refl view hear own fd _⟩
  | cons i rest ih =>
      obtain ⟨fresh, distinct⟩ := List.nodup_cons.mp distinct
      obtain ⟨next, first, run⟩ := (bind_eq_ok _ _ _).mp run
      have visited := visit_ok listener turn round readFds i s next (listed i List.mem_cons_self) first
      obtain ⟨kept, later⟩ := ih distinct (fun j member => listed j (List.mem_cons_of_mem i member)) next
        (visited.keeps listener turn holds view hear own projects round i s next before) run
      have sooner := visited.tracks listener turn holds view hear own projects round fd i s next before served
      refine ⟨kept, ?_⟩
      have whole := tracks_trans view hear own fd s next after _ _ sooner later
      -- no descriptor is visited twice, so one of the halves has no turn of `fd`
      by_cases here : fd = i
      · subst here
        rw [if_pos rfl, if_neg fresh] at whole
        rwa [if_pos List.mem_cons_self]
      · rw [if_neg here] at whole
        simpa [here] using whole

theorem pass_tracks (served : fd ≠ listener) (s after : State Shared Conn Note)
    (valid : WellFormed listener s) (before : holds s.shared)
    (taken : pass listener turn round s = .ok after) :
    holds after.shared ∧ Tracks view hear own fd s after (scratches fd [round]) := by
  rw [pass_eq_visits listener turn round s valid] at taken
  obtain ⟨kept, tracks⟩ := visits_track listener turn holds view hear own projects round fd served _ _
    (Finset.sort_nodup _ _) (fun i member => (Finset.mem_sort _).mp member) s after before taken
  refine ⟨kept, ?_⟩
  obtain ⟨new, turns, matched⟩ := tracks
  refine ⟨new, turns, ?_⟩
  intro conn last opened
  have member : fd ∈ s.master := (valid.members fd).mpr (Or.inr (by rw [opened]; rfl))
  -- an open connection is in the master set, so being ready is all it takes
  have same : (if fd ∈ (round.ready ∩ s.master).sort then [round.scratch fd] else []) =
      scratches fd [round] := by
    by_cases ready : fd ∈ round.ready <;> simp [scratches, ready, member]
  rw [← same]
  exact matched conn last opened

/-- A connection comes out of any run as it would have come out of its own turns
alone. -/
theorem run_tracks (served : fd ≠ listener) (rounds : List (Round listener Conn Scratch))
    (s after : State Shared Conn Note) (valid : WellFormed listener s) (before : holds s.shared)
    (ended : run listener turn rounds s = .ok after) :
    holds after.shared ∧ Tracks view hear own fd s after (scratches fd rounds) := by
  induction rounds generalizing s with
  | nil =>
      cases ended
      exact ⟨before, tracks_refl view hear own fd _⟩
  | cons round rest ih =>
      obtain ⟨next, first, ended⟩ := (bind_eq_ok _ _ _).mp ended
      obtain ⟨kept, sooner⟩ := pass_tracks listener turn holds view hear own projects round fd served s next
        valid before first
      obtain ⟨last, later⟩ := ih next (pass_serves listener turn round s next valid first).valid kept ended
      refine ⟨last, ?_⟩
      have both : scratches fd (round :: rest) = scratches fd [round] ++ scratches fd rest := by
        rw [scratches, scratches, scratches, ← List.map_append, ← List.filter_append]
        rfl
      rw [both]
      exact tracks_trans view hear own fd s next after _ _ sooner later

end Projection

def notes (turns : List (Nat × Turn Note)) : List Note := turns.filterMap fun entry => entry.2.note

theorem notes_served (turns : List (Nat × Turn Note)) (fd : Nat) (note : Note) :
    notes (turns ++ [(fd, .served note)]) = notes turns ++ [note] := by
  rw [notes, List.filterMap_append]
  rfl

/-- The notes account for the shared state, and each fits the state at its place. -/
structure Sequential (apply : Shared → Note → Shared) (fits : Shared → Note → Prop) (first : Shared)
    (s : State Shared Conn Note) : Prop where
  shared : s.shared = (notes s.turns).foldl apply first
  placed : ∀ earlier note later, notes s.turns = earlier ++ note :: later →
    fits (earlier.foldl apply first) note

section Order
variable (apply : Shared → Note → Shared) (fits : Shared → Note → Prop) (first : Shared)

theorem sequential_start (listener : Nat) :
    Sequential apply fits first (start first listener : State Shared Conn Note) where
  shared := rfl
  placed := by
    intro earlier note later split
    exact absurd split (by simp [start, notes])

theorem sequential_same (s after : State Shared Conn Note) (shared : after.shared = s.shared)
    (same : notes after.turns = notes s.turns) (before : Sequential apply fits first s) :
    Sequential apply fits first after where
  shared := by rw [shared, same, before.shared]
  placed := by
    rw [same]
    exact before.placed

theorem sequential_answered (fd : Nat) (note : Note) (later : Shared) (conn : Conn)
    (s : State Shared Conn Note) (applied : later = apply s.shared note) (fit : fits s.shared note)
    (before : Sequential apply fits first s) :
    Sequential apply fits first (answered fd note later conn s) := by
  have noted : notes (answered fd note later conn s).turns = notes s.turns ++ [note] :=
    notes_served s.turns fd note
  constructor
  · rw [noted, List.foldl_append, ← before.shared]
    exact applied
  · intro earlier other rest split
    rw [noted] at split
    -- the place is that of the new note, or an old one with the same notes before it
    rcases List.eq_nil_or_concat rest with rfl | ⟨front, last, rfl⟩
    · obtain ⟨same, only⟩ := List.append_inj' split rfl
      cases only
      rw [← same, ← before.shared]
      exact fit
    · have cut : notes s.turns ++ [note] = (earlier ++ other :: front) ++ [last] := by
        rw [split, List.concat_eq_append, List.append_assoc, List.cons_append]
      exact before.placed earlier other front (List.append_inj' cut rfl).1

/-- A loop whose every turn does to the shared state what its note says does, over
any run, what the notes say one after the other. -/
theorem run_sequential (listener : Nat)
    (turn : Scratch → Shared → Conn → Except ε (Option (Note × Shared × Conn)))
    (holds : Shared → Prop) (holds_first : holds first)
    (lawful : ∀ scratch shared conn note later after, holds shared →
      turn scratch shared conn = .ok (some (note, later, after)) →
        holds later ∧ later = apply shared note ∧ fits shared note)
    (rounds : List (Round listener Conn Scratch)) (after : State Shared Conn Note)
    (ended : run listener turn rounds (start first listener) = .ok after) :
    holds after.shared ∧ Sequential apply fits first after := by
  refine (run_keeps listener turn (fun s => holds s.shared ∧ Sequential apply fits first s) ?_ rounds _
    after (wellFormed_start first listener) ⟨holds_first, sequential_start apply fits first listener⟩
    ended).2
  rintro round i s next _ ⟨held, before⟩ visited
  cases visited with
  | accepts =>
      unfold accepted
      split
      · exact ⟨held, before⟩
      · exact ⟨held, sequential_same apply fits first s _ rfl rfl before⟩
  | stale =>
      exact ⟨held, sequential_same apply fits first s _ rfl (by simp [dropped, notes, Turn.note]) before⟩
  | hangsUp =>
      exact ⟨held, sequential_same apply fits first s _ rfl (by simp [dropped, notes, Turn.note]) before⟩
  | serves _ conn later note shared _ taken =>
      obtain ⟨kept, applied, fit⟩ := lawful _ _ _ _ _ _ held taken
      exact ⟨kept, sequential_answered apply fits first i note shared later s applied fit before⟩

end Order

/-! Notes with more in them. -/

def Turn.map {Other : Type} (change : Note → Other) : Turn Note → Turn Other
  | .stale => .stale
  | .hungUp => .hungUp
  | .served note => .served (change note)

def State.retold {Other : Type} (change : Note → Other) (s : State Shared Conn Note) :
    State Shared Conn Other where
  shared := s.shared
  conns := s.conns
  master := s.master
  fdmax := s.fdmax
  turns := s.turns.map fun entry => (entry.1, entry.2.map change)

theorem retold_accepted {Other : Type} (change : Note → Other) {listener : Nat}
    (accept : Accept listener Conn) (s : State Shared Conn Note) :
    accepted accept (s.retold change) = (accepted accept s).retold change := by
  simp only [accepted, State.retold]
  cases accept.next s.conns <;> rfl

theorem retold_dropped {Other : Type} (change : Note → Other) (fd : Nat) (how : Turn Note)
    (s : State Shared Conn Note) :
    dropped fd (how.map change) (s.retold change) = (dropped fd how s).retold change := by
  simp only [dropped, State.retold, List.map_append, List.map_singleton]

theorem retold_answered {Other : Type} (change : Note → Other) (fd : Nat) (note : Note)
    (shared : Shared) (conn : Conn) (s : State Shared Conn Note) :
    answered fd (change note) shared conn (s.retold change) =
      (answered fd note shared conn s).retold change := by
  simp only [answered, State.retold, List.map_append, List.map_singleton]
  rfl

section Retold
variable {Other : Type} (listener : Nat)
  (turn : Scratch → Shared → Conn → Except ε (Option (Note × Shared × Conn)))
  (brief : Scratch → Shared → Conn → Except ε (Option (Other × Shared × Conn)))
  (change : Note → Other)
  (told : ∀ scratch shared conn, brief scratch shared conn =
    (turn scratch shared conn).map (Option.map fun result => (change result.1, result.2)))
  (round : Round listener Conn Scratch)
include told

theorem visit_retold (readFds : Finset Nat) (i : Nat) (s : State Shared Conn Note) :
    visit listener brief round readFds i (s.retold change) =
      (visit listener turn round readFds i s).map (State.retold change) := by
  unfold visit
  by_cases ready : i ∈ readFds
  · rw [if_neg (not_not.mpr ready), if_neg (not_not.mpr ready)]
    by_cases here : i = listener
    · rw [if_pos here, if_pos here, retold_accepted]
      rfl
    · rw [if_neg here, if_neg here, show (s.retold change).conns = s.conns from rfl]
      cases s.conns i with
      | none => exact congrArg Except.ok (retold_dropped change i .stale s)
      | some conn =>
          simp only [told, show (s.retold change).shared = s.shared from rfl]
          cases turn (round.scratch i) s.shared conn with
          | error fault => rfl
          | ok outcome =>
              cases outcome with
              | none => exact congrArg Except.ok (retold_dropped change i .hungUp s)
              | some result => exact congrArg Except.ok (retold_answered change i _ _ _ s)
  · rw [if_pos ready, if_pos ready]
    rfl

theorem scan_retold (readFds : Finset Nat) (i : Nat) (s : State Shared Conn Note) :
    scan listener brief round readFds i (s.retold change) =
      (scan listener turn round readFds i s).map (State.retold change) := by
  induction i, s using scan.induct listener turn round readFds with
  | case1 i s inside fault run =>
      have brief_run := visit_retold listener turn brief change told round readFds i s
      rw [scan_next listener turn round readFds i s inside,
        scan_next listener brief round readFds i (s.retold change) inside, brief_run, run]
      rfl
  | case2 i s inside after run ih =>
      have brief_run := visit_retold listener turn brief change told round readFds i s
      rw [scan_next listener turn round readFds i s inside,
        scan_next listener brief round readFds i (s.retold change) inside, brief_run, run]
      exact ih
  | case3 i s past =>
      rw [scan, scan, if_neg past, if_neg (show ¬ i ≤ (s.retold change).fdmax from past)]
      rfl

theorem run_retold (rounds : List (Round listener Conn Scratch)) (s : State Shared Conn Note) :
    run listener brief rounds (s.retold change) =
      (run listener turn rounds s).map (State.retold change) := by
  induction rounds generalizing s with
  | nil => rfl
  | cons round rest ih =>
      have first := scan_retold listener turn brief change told round (round.ready ∩ s.master) 0 s
      rw [run, run, pass, pass, show (s.retold change).master = s.master from rfl, first]
      cases scan listener turn round (round.ready ∩ s.master) 0 s with
      | error fault => rfl
      | ok after => exact ih after

end Retold

section Finishing
variable (listener : Nat)
  (turn : Scratch → Shared → Conn → Except ε (Option (Note × Shared × Conn))) (holds : Shared → Prop)
  (kept : ∀ scratch shared conn note later after, holds shared →
    turn scratch shared conn = .ok (some (note, later, after)) → holds later)
  (steady : ∀ scratch conn shared other, holds shared → holds other →
    (Finishes (turn scratch shared conn) ↔ Finishes (turn scratch other conn)))
  (round : Round listener Conn Scratch)

theorem visit_finishes_iff (readFds : Finset Nat) (i : Nat) (ready : i ∈ readFds)
    (s : State Shared Conn Note) (apart : s.conns listener = none) :
    Finishes (visit listener turn round readFds i s) ↔
      ∀ conn, s.conns i = some conn → Finishes (turn (round.scratch i) s.shared conn) := by
  rw [visit, if_neg (not_not.mpr ready)]
  by_cases here : i = listener
  · subst here
    simp [apart]
  · rw [if_neg here]
    cases opened : s.conns i with
    | none => simp
    | some conn =>
        simp only [Option.some.injEq, forall_eq']
        cases turn (round.scratch i) s.shared conn with
        | error fault => simp
        | ok outcome => cases outcome <;> simp

include kept steady

theorem visits_finish_iff (readFds : Finset Nat) (fds : List Nat) (distinct : fds.Nodup)
    (listed : ∀ i ∈ fds, i ∈ readFds) (s : State Shared Conn Note) (valid : WellFormed listener s)
    (held : holds s.shared) (opened : ∀ i ∈ fds, i ≠ listener → (s.conns i).isSome) :
    Finishes (visits listener turn round readFds fds s) ↔
      ∀ i ∈ fds, ∀ conn, s.conns i = some conn → Finishes (turn (round.scratch i) s.shared conn) := by
  induction fds generalizing s with
  | nil => simp [visits]
  | cons i rest ih =>
      obtain ⟨fresh, distinct⟩ := List.nodup_cons.mp distinct
      have ready := listed i List.mem_cons_self
      rw [visits, finishes_bind, List.forall_mem_cons,
        ← visit_finishes_iff listener turn round readFds i ready s valid.apart]
      -- the visit has left the others as they were
      have after_visit : ∀ next, visit listener turn round readFds i s = .ok next →
          (Finishes (visits listener turn round readFds rest next) ↔
            ∀ j ∈ rest, ∀ conn, s.conns j = some conn →
              Finishes (turn (round.scratch j) s.shared conn)) := by
        intro next first
        have visited := visit_ok listener turn round readFds i s next ready first
        have still : ∀ j ∈ rest, ∀ conn, s.conns j = some conn → next.conns j = some conn := by
          intro j member conn before
          exact visited.frame listener turn round i j s next (fun same => fresh (same ▸ member)) conn before
        have holding : holds next.shared := by
          cases visited with
          | accepts =>
              unfold accepted
              split <;> exact held
          | stale => exact held
          | hangsUp => exact held
          | serves _ conn after note later _ taken => exact kept _ _ _ _ _ _ held taken
        have open_next : ∀ j ∈ rest, j ≠ listener → (next.conns j).isSome := by
          intro j member other
          obtain ⟨conn, before⟩ := Option.isSome_iff_exists.mp
            (opened j (List.mem_cons_of_mem i member) other)
          rw [still j member conn before]
          rfl
        have valid_next := visited.wellFormed listener turn round i s next valid
        rw [ih distinct (fun j member => listed j (List.mem_cons_of_mem i member)) next valid_next holding
          open_next]
        refine forall₂_congr fun j member => ?_
        by_cases here : j = listener
        · rw [here, valid_next.apart, valid.apart]
          simp
        · obtain ⟨conn, before⟩ := Option.isSome_iff_exists.mp
            (opened j (List.mem_cons_of_mem i member) here)
          rw [before, still j member conn before]
          simp only [Option.some.injEq, forall_eq']
          exact steady _ _ _ _ holding held
      constructor
      · rintro ⟨next, first, later⟩
        exact ⟨⟨next, first⟩, (after_visit next first).mp later⟩
      · rintro ⟨⟨next, first⟩, later⟩
        exact ⟨next, first, (after_visit next first).mpr later⟩

/-- A pass comes to its end when the turns it has to take do, each as if it were
the only one. -/
theorem pass_finishes_iff (s : State Shared Conn Note) (valid : WellFormed listener s)
    (held : holds s.shared) :
    Finishes (pass listener turn round s) ↔
      ∀ fd ∈ round.ready, ∀ conn, s.conns fd = some conn →
        Finishes (turn (round.scratch fd) s.shared conn) := by
  rw [pass_eq_visits listener turn round s valid,
    visits_finish_iff listener turn holds kept steady round _ _ (Finset.sort_nodup _ _)
      (fun fd member => (Finset.mem_sort _).mp member) s valid held (ready_open listener round s valid)]
  constructor
  · intro all fd ready conn here
    have member : fd ∈ s.master := (valid.members fd).mpr (Or.inr (by rw [here]; rfl))
    exact all fd ((Finset.mem_sort _).mpr (Finset.mem_inter.mpr ⟨ready, member⟩)) conn here
  · intro all fd member conn here
    exact all fd (Finset.mem_inter.mp ((Finset.mem_sort _).mp member)).1 conn here

end Finishing

end BinderRpc.Multiplexer
