import Mathlib.Data.List.Dedup
import Mathlib.Data.List.Induction
import Mathlib.Logic.Function.Basic

/-!
A directory: for each key the distinct addresses announced under it, in the
order of their first announcement. After any history of announcements an entry
is the history's addresses for that key with later repetitions dropped, so
membership and the first address are those of the history itself.
-/

namespace BinderRpc

variable {Key Addr : Type} [DecidableEq Key] [DecidableEq Addr]

structure Directory (Key Addr : Type) where
  entries : Key → List Addr
  distinct : ∀ key, (entries key).Nodup

namespace Directory

def empty : Directory Key Addr := ⟨fun _ => [], fun _ => List.nodup_nil⟩

def announce (d : Directory Key Addr) (key : Key) (addr : Addr) : Directory Key Addr where
  entries := if addr ∈ d.entries key then d.entries
    else Function.update d.entries key (d.entries key ++ [addr])
  distinct := by
    intro other
    split
    · exact d.distinct other
    · rename_i fresh
      by_cases same : other = key
      · subst same
        simpa using List.nodup_append.mpr
          ⟨d.distinct other, List.nodup_singleton addr, by
            intro first member second single
            rw [List.mem_singleton.mp single]
            exact ne_of_mem_of_not_mem member fresh⟩
      · simpa [Function.update_of_ne same] using d.distinct other

def announced (history : List (Key × Addr)) (key : Key) : List Addr :=
  (history.filter fun entry => entry.1 = key).map Prod.snd

def run (history : List (Key × Addr)) : Directory Key Addr :=
  history.foldl (fun d entry => d.announce entry.1 entry.2) empty

theorem entries_announce_self (d : Directory Key Addr) (key : Key) (addr : Addr) :
    (d.announce key addr).entries key =
      if addr ∈ d.entries key then d.entries key else d.entries key ++ [addr] := by
  simp only [announce]
  split <;> simp

theorem entries_announce_other (d : Directory Key Addr) (key other : Key) (addr : Addr)
    (different : other ≠ key) : (d.announce key addr).entries other = d.entries other := by
  simp only [announce]
  split
  · rfl
  · exact Function.update_of_ne different _ _

theorem mem_announce (d : Directory Key Addr) (key other : Key) (addr found : Addr) :
    found ∈ (d.announce key addr).entries other ↔
      (other = key ∧ found = addr) ∨ found ∈ d.entries other := by
  by_cases same : other = key
  · subst same
    rw [entries_announce_self]
    by_cases known : addr ∈ d.entries other
    · rw [if_pos known]
      constructor
      · exact Or.inr
      · rintro (⟨_, rfl⟩ | old)
        · exact known
        · exact old
    · rw [if_neg known, List.mem_append, List.mem_singleton, or_comm]
      simp
  · rw [entries_announce_other d key other addr same]
    simp [same]

omit [DecidableEq Addr] in
theorem announced_snoc (history : List (Key × Addr)) (key : Key) (entry : Key × Addr) :
    announced (history ++ [entry]) key =
      if entry.1 = key then announced history key ++ [entry.2] else announced history key := by
  by_cases hit : entry.1 = key <;> simp [announced, hit]

/-- An entry is the history without later repetitions. -/
theorem entries_run (history : List (Key × Addr)) (key : Key) :
    (run history).entries key = (announced history key).eraseDups := by
  induction history using List.reverseRecOn with
  | nil => rfl
  | append_singleton history entry ih =>
      have last : run (history ++ [entry]) = (run history).announce entry.1 entry.2 := by
        simp [run]
      rw [last, announced_snoc]
      by_cases hit : entry.1 = key
      · subst hit
        rw [entries_announce_self, ih, if_pos rfl, List.eraseDups_append]
        by_cases known : entry.2 ∈ announced history entry.1
        · simp [List.mem_eraseDups, known, List.removeAll]
        · simp [List.mem_eraseDups, known, List.removeAll, List.eraseDups_cons]
      · rw [entries_announce_other _ _ _ _ (Ne.symm hit), if_neg hit, ih]

theorem mem_run (history : List (Key × Addr)) (key : Key) (addr : Addr) :
    addr ∈ (run history).entries key ↔ addr ∈ announced history key := by
  rw [entries_run, List.mem_eraseDups]

theorem head_eraseDups (list : List Addr) : list.eraseDups.head? = list.head? := by
  cases list <;> simp [List.eraseDups_cons]

theorem head_run (history : List (Key × Addr)) (key : Key) :
    ((run history).entries key).head? = (announced history key).head? := by
  rw [entries_run, head_eraseDups]

end Directory
end BinderRpc
