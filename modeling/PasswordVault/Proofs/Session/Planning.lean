import Mathlib.Data.List.Basic
import Mathlib.Data.List.Perm.Basic
import PasswordVault.Session.Agenda

/-!
# Planning — when tasks take their turns

`Agenda.turns` lists the times of the turns that a task has ahead: it is ready now, or it sleeps until
then. The operations on an agenda are said by what they do to these times, so that what is planned for a
task can be followed while others take their turns.

- `Agenda.plan`: the next turn of a task after a time, if it has one;
- `Agenda.InTime`: no turn was missed;
- `Agenda.turns_wake`, `turns_plan`, `turns_keep`: what the operations of tasks do to their turns;
- `Agenda.next?_cases`: the next turn is one of those planned, at its time, or time passes.
-/

namespace PasswordVault
namespace Agenda

variable {τ : Type} {a a' : Agenda τ} {t u : τ}

/-- The agenda with the next turn of a task after a time, if it has one. -/
def plan (a : Agenda τ) (t : τ) : Option Nat → Agenda τ
  | none => a
  | some 0 => a.resume t
  | some (time + 1) => a.sleep t (time + 1)

/-- Whether no turn of a sleeping task was missed. -/
def InTime (a : Agenda τ) : Prop := ∀ entry ∈ a.sleeping, a.now ≤ entry.1

/-- Whether a task does not sleep. -/
def Awake (a : Agenda τ) (t : τ) : Prop := ∀ entry ∈ a.sleeping, entry.2 ≠ t

/-! ## The clock -/

@[simp] theorem now_plan (wait : Option Nat) : (a.plan t wait).now = a.now := by
  match wait with
  | none | some 0 | some (time + 1) => rfl

/-- No plan is made for a time that is past. -/
theorem InTime.plan (h : a.InTime) (wait : Option Nat) : (a.plan t wait).InTime := by
  match wait with
  | none => exact h
  | some 0 => exact h
  | some (time + 1) =>
      intro entry hentry
      rcases List.mem_append.1 hentry with hentry | hentry
      · exact h entry hentry
      · rw [List.mem_singleton.1 hentry]
        exact Nat.le_add_right _ _

theorem InTime.wake (h : a.InTime) : (a.wake t).InTime := h

theorem Awake.wake (h : a.Awake t) : (a.wake u).Awake t := h

theorem InTime.keep (h : a.InTime) (wanted : τ → Bool) : (a.keep wanted).InTime :=
  fun entry hentry => h entry (List.mem_filter.1 hentry).1

/-- A task stays awake if it is planned for at once or another one is planned for. -/
theorem Awake.plan (h : a.Awake t) {wait : Option Nat} (hwait : wait = some 0 ∨ u ≠ t) :
    (a.plan u wait).Awake t := by
  match wait with
  | none => exact h
  | some 0 => exact h
  | some (time + 1) =>
      intro entry hentry
      rcases List.mem_append.1 hentry with hentry | hentry
      · exact h entry hentry
      · rw [List.mem_singleton.1 hentry]
        exact hwait.resolve_left (by simp)

theorem Awake.keep (h : a.Awake t) (wanted : τ → Bool) : (a.keep wanted).Awake t :=
  fun entry hentry => h entry (List.mem_filter.1 hentry).1

theorem sleeping_foldl_wake (woken : List τ) : (woken.foldl wake a).sleeping = a.sleeping := by
  induction woken generalizing a with
  | nil => rfl
  | cons u rest ih => exact ih

theorem now_foldl_wake (woken : List τ) : (woken.foldl wake a).now = a.now := by
  induction woken generalizing a with
  | nil => rfl
  | cons u rest ih => exact ih

theorem InTime.foldl_wake (h : a.InTime) (woken : List τ) : (woken.foldl Agenda.wake a).InTime := by
  rw [InTime, sleeping_foldl_wake, now_foldl_wake]
  exact h

theorem Awake.foldl_wake (h : a.Awake t) (woken : List τ) : (woken.foldl Agenda.wake a).Awake t := by
  rw [Awake, sleeping_foldl_wake]
  exact h

/-- The clock is moved no further than to the limit. -/
theorem now_next? {limit : Nat} (hnow : a.now ≤ limit) (h : a.next? limit = some (t, a')) :
    a'.now ≤ limit := by
  rw [next?] at h
  split at h
  · cases h
    exact hnow
  · split at h
    · cases h
    · split at h
      · cases h
      next hlimit =>
        dsimp only at h
        split at h
        · cases h
          exact Nat.le_of_not_lt hlimit
        · cases h

/-! ## Turns ahead -/

variable [DecidableEq τ]

def turns (a : Agenda τ) (t : τ) : List Nat :=
  (a.ready.filter (· = t)).map (fun _ => a.now) ++ (a.sleeping.filter (·.2 = t)).map (·.1)

theorem turns_eq_nil_iff : a.turns t = [] ↔ t ∉ a.ready ∧ a.Awake t := by
  simp only [turns, List.append_eq_nil_iff, List.map_eq_nil_iff, List.filter_eq_nil_iff,
    decide_eq_true_eq]
  refine and_congr_left fun _ => ⟨fun h hready => h t hready rfl, ?_⟩
  rintro h _ hready rfl
  exact h hready

theorem InTime.le_of_mem_turns (h : a.InTime) {time : Nat} (htime : time ∈ a.turns t) :
    a.now ≤ time := by
  rcases List.mem_append.1 htime with hready | hsleeping
  · obtain ⟨_, _, rfl⟩ := List.mem_map.1 hready
    exact Nat.le_refl _
  · obtain ⟨entry, hentry, rfl⟩ := List.mem_map.1 hsleeping
    exact h entry (List.mem_filter.1 hentry).1

theorem turns_wake_of_ne (h : u ≠ t) : (a.wake u).turns t = a.turns t := by
  simp [turns, wake, h]

/-- A task without turns that is woken has one turn, now. -/
theorem turns_wake (h : a.turns t = []) : (a.wake t).turns t = [a.now] := by
  obtain ⟨hready, hsleeping⟩ := List.append_eq_nil_iff.1 h
  rw [turns, wake, List.filter_append, List.map_append]
  simp only [hready, hsleeping]
  simp

/-- Different tasks that are woken have one turn each. -/
theorem turns_foldl_wake {woken : List τ} (hnodup : woken.Nodup) (h : ∀ u ∈ woken, a.turns u = []) :
    (woken.foldl wake a).turns t = if t ∈ woken then [a.now] else a.turns t := by
  induction woken generalizing a with
  | nil => rfl
  | cons u rest ih =>
      obtain ⟨hu, hrest⟩ := List.nodup_cons.1 hnodup
      have hlater : ∀ v ∈ rest, (a.wake u).turns v = [] := by
        intro v hv
        rw [turns_wake_of_ne (ne_of_mem_of_not_mem hv hu).symm]
        exact h v (List.mem_cons_of_mem _ hv)
      rw [List.foldl_cons, ih hrest hlater]
      by_cases htu : t = u
      · subst htu
        rw [if_neg hu, if_pos List.mem_cons_self, turns_wake (h t List.mem_cons_self)]
      · rw [turns_wake_of_ne (Ne.symm htu)]
        simp [htu, wake]

theorem turns_plan_of_ne (h : u ≠ t) (wait : Option Nat) : (a.plan u wait).turns t = a.turns t := by
  match wait with
  | none => rfl
  | some 0 => simp [plan, turns, resume, h]
  | some (time + 1) => simp [plan, turns, sleep, h]

/-- A task that is planned for has the one turn that was planned. -/
theorem turns_plan (h : a.turns t = []) (wait : Option Nat) :
    (a.plan t wait).turns t = (wait.map (a.now + ·)).toList := by
  obtain ⟨hready, hsleeping⟩ := List.append_eq_nil_iff.1 h
  match wait with
  | none => exact h
  | some 0 =>
      rw [plan, turns, resume, hsleeping]
      simp [hready]
  | some (time + 1) =>
      rw [plan, turns, sleep, hready]
      simp [hsleeping]

/-- A task that is no longer wanted has no turns left, any other all of its own. -/
theorem turns_keep (wanted : τ → Bool) :
    (a.keep wanted).turns t = if wanted t then a.turns t else [] := by
  by_cases hwanted : wanted t = true
  · have hkept : ∀ u, (decide (u = t) && wanted u) = decide (u = t) := by
      intro u
      by_cases hu : u = t
      · simp [hu, hwanted]
      · simp [hu]
    rw [if_pos hwanted]
    simp only [turns, keep, List.filter_filter, hkept]
  · rw [if_neg hwanted, turns_eq_nil_iff]
    refine ⟨fun hready => hwanted (List.mem_filter.1 hready).2, ?_⟩
    rintro entry hentry rfl
    exact hwanted (List.mem_filter.1 hentry).2

/-! ## The next turn -/

/-- A turn that is taken is one of those planned, at its time. -/
structure Taken (a : Agenda τ) (u : τ) (a' : Agenda τ) : Prop where
  inTime : a'.InTime
  awake : ∀ t, a.Awake t → a'.Awake t
  turns : ∀ t, (a.turns t).Perm ((if u = t then [a'.now] else []) ++ a'.turns t)

/-- The turns of tasks that wake at the same time. -/
theorem turns_woken {sleeping : List (Nat × τ)} {time : Nat} {woken : List τ} (t : τ)
    (h : (sleeping.filter fun entry => entry.1 = time).map (·.2) = woken) :
    ((sleeping.filter fun entry => entry.1 = time).filter (·.2 = t)).map (·.1) =
      (woken.filter (· = t)).map fun _ => time := by
  rw [← h, List.filter_map, List.map_map]
  refine List.map_congr_left fun entry hentry => ?_
  exact of_decide_eq_true (List.mem_filter.1 (List.mem_filter.1 hentry).1).2

/-- The task that became ready first takes its turn now. -/
theorem InTime.taken_ready (h : a.InTime) {rest : List τ} (hready : a.ready = u :: rest) :
    a.Taken u { a with ready := rest } := by
  refine ⟨h, fun _ ht => ht, fun t => ?_⟩
  rw [turns, hready]
  by_cases hu : u = t
  · simp [turns, hu]
  · simp [turns, hu]

omit [DecidableEq τ] in
/-- Where no task is ready, those wake that sleep until the earliest time. -/
theorem exists_woken {time : Nat} (hwake : a.nextWake? = some time) :
    ∃ u rest, (a.sleeping.filter fun entry => entry.1 = time).map (·.2) = u :: rest := by
  obtain ⟨entry, hentry, htime⟩ := List.mem_map.1 (List.min?_eq_some_iff.1 hwake).1
  refine List.exists_cons_of_ne_nil fun hwoken => ?_
  have hnone := List.filter_eq_nil_iff.1 (List.map_eq_nil_iff.1 hwoken) entry hentry
  exact hnone (decide_eq_true htime)

theorem taken_woken {time : Nat} {rest : List τ} (hready : a.ready = [])
    (hwake : a.nextWake? = some time)
    (hwoken : (a.sleeping.filter fun entry => entry.1 = time).map (·.2) = u :: rest) :
    a.Taken u ⟨time, rest, a.sleeping.filter fun entry => !decide (entry.1 = time)⟩ := by
  refine ⟨?_, ?_, ?_⟩
  · intro entry hentry
    exact (List.min?_eq_some_iff.1 hwake).2 _ (List.mem_map_of_mem (List.mem_filter.1 hentry).1)
  · intro t ht entry hentry
    exact ht entry (List.mem_filter.1 hentry).1
  · -- The turns of a task are those at which it wakes now, and those of the tasks that sleep on.
    intro t
    have hsplit := ((List.filter_append_perm (fun entry => decide (entry.1 = time))
      a.sleeping).symm.filter fun entry => entry.2 = t).map (·.1)
    rw [List.filter_append, List.map_append, turns_woken t hwoken] at hsplit
    rw [turns, hready, List.filter_nil, List.map_nil, List.nil_append]
    refine hsplit.trans (.of_eq ?_)
    by_cases hu : u = t
    · simp [turns, hu]
    · simp [turns, hu]

/-- The next turn is taken at its time; where none is due, time passes. -/
theorem next?_cases (h : a.InTime) (limit : Nat) :
    (a.next? limit = none ∧ a.ready = [] ∧ ∀ entry ∈ a.sleeping, limit < entry.1) ∨
      ∃ u a', a.next? limit = some (u, a') ∧ a.Taken u a' := by
  rw [next?]
  cases hready : a.ready with
  | cons u rest => exact .inr ⟨u, _, rfl, h.taken_ready hready⟩
  | nil =>
      cases hwake : a.nextWake? with
      | none =>
          have hnone : a.sleeping = [] := by simpa [nextWake?] using hwake
          simp [hnone]
      | some time =>
          dsimp only
          split
          next hlimit =>
            refine .inl ⟨rfl, rfl, fun entry hentry => Nat.lt_of_lt_of_le hlimit ?_⟩
            exact (List.min?_eq_some_iff.1 hwake).2 _ (List.mem_map_of_mem hentry)
          next =>
            -- The earliest time of waking is that of some sleeper, who is the next.
            obtain ⟨u, rest, hwoken⟩ := exists_woken hwake
            rw [List.partition_eq_filter_filter]
            simp only [hwoken]
            exact .inr ⟨u, _, rfl, taken_woken hready hwake hwoken⟩

end Agenda
end PasswordVault
