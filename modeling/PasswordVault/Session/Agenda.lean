/-!
# Agendas

Tasks that take turns on one thread, under a clock that only moves when all of them sleep. Tasks that are
ready run in the order in which they became ready; tasks that wake at the same time become ready in the
order in which they went to sleep.
-/

namespace PasswordVault

/-- The time in milliseconds, the tasks that are ready, and those that sleep until some time. -/
structure Agenda (τ : Type) where
  now : Nat := 0
  ready : List τ := []
  sleeping : List (Nat × τ) := []

namespace Agenda

variable {τ : Type}

def wake (a : Agenda τ) (t : τ) : Agenda τ := { a with ready := a.ready ++ [t] }

/-- The agenda with a task that goes on at once, before all others. -/
def resume (a : Agenda τ) (t : τ) : Agenda τ := { a with ready := t :: a.ready }

/-- The agenda with one more task that sleeps for a time. -/
def sleep (a : Agenda τ) (t : τ) (milliseconds : Nat) : Agenda τ :=
  { a with sleeping := a.sleeping ++ [(a.now + milliseconds, t)] }

/-- The agenda without the tasks that are no longer wanted. -/
def keep (a : Agenda τ) (wanted : τ → Bool) : Agenda τ :=
  { a with ready := a.ready.filter wanted, sleeping := a.sleeping.filter fun s => wanted s.2 }

/-- The earliest time at which a sleeping task wakes. -/
def nextWake? (a : Agenda τ) : Option Nat := (a.sleeping.map (·.1)).min?

/-- The task that runs next, with the agenda without it. The clock is moved no further than to `limit`:
where no task becomes ready until then, there is none. -/
def next? (a : Agenda τ) (limit : Nat) : Option (τ × Agenda τ) :=
  match a.ready with
  | t :: rest => some (t, { a with ready := rest })
  | [] =>
    match a.nextWake? with
    | none => none
    | some time =>
      if limit < time then none
      else
        let (woken, asleep) := a.sleeping.partition fun s => s.1 = time
        match woken.map (·.2) with
        | t :: rest => some (t, ⟨time, rest, asleep⟩)
        | [] => none

end Agenda
end PasswordVault
