import PasswordVault.Proofs.Session.Staff
import PasswordVault.Proofs.Session.Turns

/-!
# Timeline — supervision under its clock

A run in which the agenda decides who takes the next turn and when, while the list of accounts, the
network and the wall clock change as they like.

- `Supervision.Event`: one thing that happens; `Supervision.run`: any sequence of them;
- `Supervision.exists_run_advance`: time that passes is a sequence of turns;
- `Supervision.OnAgenda`: a job has exactly one turn ahead, or has to wait for something else;
- `Supervision.Scheduled`: the invariant. Every job that runs is on the agenda, and no other one.
-/

namespace PasswordVault
namespace Supervision

variable {σ : Type} {e : Surroundings σ} {s s' : Supervision σ} {a a' : ActiveJob} {number : Nat}

/-! ## Events -/

/-- What happens under the clock: the next turn is taken, if one is due within a time, else that time
passes; or something is done from outside. The wall clock may show anything. -/
inductive Event where
  | pass (milliseconds : Nat) (now : Instant)
  | accounts (accounts : List Account)
  | online (online : Bool)
  | close
  | abort

/-- A supervision after an event. -/
def step (e : Surroundings σ) (s : Supervision σ) : Event → Supervision σ
  | .pass milliseconds now =>
    match s.agenda.next? (s.agenda.now + milliseconds) with
    | some (worker, agenda) => turn { e with now } worker { s with agenda }
    | none => { s with agenda := { s.agenda with now := s.agenda.now + milliseconds } }
  | .accounts accounts => s.setAccounts accounts
  | .online online => s.setOnline online
  | .close => s.closeAccounts
  | .abort => s.abort

def run (e : Surroundings σ) (s : Supervision σ) (events : List Event) : Supervision σ :=
  events.foldl (step e) s

/-- A turn takes no time. -/
theorem now_turn (e : Surroundings σ) (worker : Worker) (s : Supervision σ) :
    (turn e worker s).agenda.now = s.agenda.now := by
  cases worker with
  | supervisor =>
      refine supervisorTurn_induction (P := fun t => t.agenda.now = s.agenda.now) rfl rfl ?_ ?_
      · intro t ht
        rw [agenda_look]
        exact ht
      · exact fun _ ht => ht
  | job number =>
      rcases jobTurn_cases e s number with ⟨heq, _⟩ | ⟨a, a', _, hmoved⟩
      · exact congrArg (·.agenda.now) heq
      · obtain ⟨agenda, rfl | rfl, hagenda⟩ := hmoved.agenda
        · rw [turn, hagenda, Agenda.now_plan]
        · rw [turn, hagenda, Agenda.now_plan]
          rfl

/-- All turns until a limit are a sequence of events. -/
theorem exists_run_runUntil (e : Surroundings σ) {limit : Nat} (turns : Nat) {s : Supervision σ}
    (hnow : s.agenda.now ≤ limit) : ∃ events, runUntil e limit turns s = s.run e events := by
  induction turns generalizing s with
  | zero => exact ⟨[], rfl⟩
  | succ turns ih =>
      have hlimit : s.agenda.now + (limit - s.agenda.now) = limit := Nat.add_sub_cancel' hnow
      rw [runUntil]
      cases hnext : s.agenda.next? limit with
      | none =>
          -- No turn is due, so what is left of the time passes.
          refine ⟨[.pass (limit - s.agenda.now) e.now], ?_⟩
          simp only [run, List.foldl_cons, List.foldl_nil, step, hlimit, hnext]
      | some next =>
          obtain ⟨worker, planned⟩ := next
          have hplanned : (turn e worker { s with agenda := planned }).agenda.now ≤ limit := by
            rw [now_turn]
            exact Agenda.now_next? hnow hnext
          obtain ⟨events, heq⟩ := ih hplanned
          refine ⟨.pass (limit - s.agenda.now) e.now :: events, ?_⟩
          simp only [run, List.foldl_cons, step, hlimit, hnext]
          exact heq

/-- Time that passes is a sequence of events. -/
theorem exists_run_advance (e : Surroundings σ) (milliseconds : Nat) (s : Supervision σ) :
    ∃ events, s.advance e milliseconds = s.run e events :=
  exists_run_runUntil e _ (Nat.le_add_right _ _)

/-! ## Jobs by number -/

def job? (s : Supervision σ) (number : Nat) : Option ActiveJob :=
  s.active.find? fun a => a.number = number

theorem number_of_job? (h : s.job? number = some a) : a.number = number := by
  rw [job?] at h
  simpa using List.find?_some h

theorem job?_eq_none_iff : s.job? number = none ↔ number ∉ s.numbers := by
  simp [job?, numbers, List.find?_eq_none]

theorem Staffed.job?_eq_some_iff (hs : s.Staffed) :
    s.job? number = some a ↔ a ∈ s.active ∧ a.number = number := by
  constructor
  · intro h
    exact ⟨List.mem_of_find?_eq_some h, number_of_job? h⟩
  · rintro ⟨ha, rfl⟩
    cases hfind : s.job? a.number with
    | none => exact absurd (List.mem_map_of_mem ha) (job?_eq_none_iff.1 hfind)
    | some b =>
        rw [hs.eq_of_number (List.mem_of_find?_eq_some hfind) ha (number_of_job? hfind)]

/-- Setting a job changes the one with its number. -/
theorem job?_setJob (s : Supervision σ) (a : ActiveJob) (number : Nat) :
    (s.setJob a).job? number =
      if number = a.number then (s.job? number).map fun _ => a else s.job? number := by
  have hnumber : (fun b : ActiveJob => decide (b.number = number)) ∘
      (fun b => if b.number = a.number then a else b) = fun b => decide (b.number = number) := by
    funext b
    by_cases hb : b.number = a.number
    · simp [hb]
    · simp [hb]
  rw [job?, setJob, List.find?_map, hnumber]
  cases hfind : s.job? number with
  | none =>
      rw [job?] at hfind
      simp [hfind]
  | some b =>
      have hb := number_of_job? hfind
      rw [job?] at hfind
      simp only [hfind, Option.map_some, hb]
      split <;> rfl

theorem job?_congr (h : s'.active = s.active) (number : Nat) : s'.job? number = s.job? number := by
  rw [job?, h, job?]

/-! ## Jobs on the agenda -/

/-- Where a job stands on the agenda: it has exactly one turn ahead, or it has to wait for something
else; a job that does not run has no turn. A job that waits for the network does not sleep. -/
inductive OnAgenda (network : Connectivity) (agenda : Agenda Worker) (number : Nat) :
    Option ActiveJob → Prop
  | gone (free : agenda.turns (.job number) = []) : OnAgenda network agenda number none
  | planned {a : ActiveJob} {time : Nat} (turn : agenda.turns (.job number) = [time])
      (awake : a.job.isWaiting = true → agenda.Awake (.job number)) :
      OnAgenda network agenda number (some a)
  | stays {a : ActiveJob} (free : agenda.turns (.job number) = []) (stays : a.Stays network) :
      OnAgenda network agenda number (some a)

theorem OnAgenda.congr {network : Connectivity} {agenda agenda' : Agenda Worker} {job : Option ActiveJob}
    (h : OnAgenda network agenda number job)
    (hturns : agenda'.turns (.job number) = agenda.turns (.job number))
    (hawake : agenda.Awake (.job number) → agenda'.Awake (.job number)) :
    OnAgenda network agenda' number job := by
  cases h with
  | gone free => exact .gone (hturns.trans free)
  | planned turn awake => exact .planned (hturns.trans turn) fun hwaiting => hawake (awake hwaiting)
  | stays free stays => exact .stays (hturns.trans free) stays

theorem OnAgenda.turns_cases {network : Connectivity} {agenda : Agenda Worker} {job : Option ActiveJob}
    (h : OnAgenda network agenda number job) :
    agenda.turns (.job number) = [] ∨ ∃ a time, job = some a ∧ agenda.turns (.job number) = [time] := by
  cases h with
  | gone free => exact .inl free
  | planned turn awake => exact .inr ⟨_, _, rfl, turn⟩
  | stays free stays => exact .inl free

/-- Every job that runs is on the agenda, and no other one; no turn was missed. -/
structure Scheduled (s : Supervision σ) : Prop where
  staffed : s.Staffed
  inTime : s.agenda.InTime
  jobs : ∀ number, OnAgenda s.network s.agenda number (s.job? number)

theorem scheduled_launched (accounts : List Account) (network : Connectivity) (visits : Visits) (state : σ) :
    (launched accounts network visits state).Scheduled :=
  ⟨staffed_launched accounts network visits state, fun _ h => (List.not_mem_nil h).elim, fun _ => .gone rfl⟩

/-! ## Turns of jobs -/

/-- A turn that is taken leaves those of the other jobs. -/
theorem Scheduled.turns_of_ne (hs : s.Scheduled) {worker : Worker} {agenda : Agenda Worker}
    (htaken : s.agenda.Taken worker agenda) (hne : worker ≠ .job number) :
    agenda.turns (.job number) = s.agenda.turns (.job number) := by
  have hperm := htaken.turns (.job number)
  rw [if_neg hne, List.nil_append] at hperm
  rcases (hs.jobs number).turns_cases with hnone | ⟨_, time, _, htime⟩
  · rw [hnone] at hperm ⊢
    exact List.nil_perm.1 hperm
  · rw [htime] at hperm ⊢
    exact (List.singleton_perm.1 hperm).symm

/-- A job that takes its turn had no other one ahead. -/
theorem Scheduled.turns_taken (hs : s.Scheduled) {agenda : Agenda Worker}
    (htaken : s.agenda.Taken (.job number) agenda) :
    s.agenda.turns (.job number) = [agenda.now] ∧ agenda.turns (.job number) = [] := by
  have hperm := htaken.turns (.job number)
  rw [if_pos rfl, List.singleton_append] at hperm
  rcases (hs.jobs number).turns_cases with hnone | ⟨_, time, _, htime⟩
  · rw [hnone] at hperm
    exact absurd (List.nil_perm.1 hperm) (List.cons_ne_nil _ _)
  · rw [htime] at hperm ⊢
    obtain ⟨hnow, hrest⟩ := List.cons_eq_cons.1 (List.singleton_perm.1 hperm)
    exact ⟨congrArg ([·]) hnow, hrest.symm⟩

theorem Scheduled.taken_of_ne (hs : s.Scheduled) {worker : Worker} {agenda : Agenda Worker}
    (htaken : s.agenda.Taken worker agenda) (hne : worker ≠ .job number) :
    OnAgenda s.network agenda number (s.job? number) :=
  (hs.jobs number).congr (hs.turns_of_ne htaken hne) (htaken.awake _)

/-- A job that has moved is on the agenda again, with its next turn after the time that it waits. -/
theorem Moved.agenda_self (h : s.Moved e a a' s') (hnumber : a.number = number)
    (hfree : s.agenda.turns (.job number) = []) :
    s'.agenda.turns (.job number) = ((a'.wait? e.pauses).map (s.agenda.now + ·)).toList ∧
      OnAgenda s'.network s'.agenda number (some a') := by
  obtain ⟨agenda, hagenda, hplanned⟩ := h.agenda
  rw [hnumber] at hplanned
  -- Waking the supervisor gives the job no turn.
  have hwoken : agenda.turns (.job number) = [] ∧ agenda.now = s.agenda.now := by
    rcases hagenda with rfl | rfl
    · exact ⟨hfree, rfl⟩
    · exact ⟨(Agenda.turns_wake_of_ne (by simp)).trans hfree, rfl⟩
  have hturns := Agenda.turns_plan hwoken.1 (a'.wait? e.pauses)
  rw [← hplanned, hwoken.2] at hturns
  refine ⟨hturns, ?_⟩
  cases hwait : a'.wait? e.pauses with
  | none =>
      rw [hwait] at hturns
      exact .stays hturns (ActiveJob.stays_of_wait?_eq_none hwait _)
  | some time =>
      rw [hwait] at hturns
      refine .planned hturns fun hwaiting => ?_
      rw [hplanned]
      exact (Agenda.turns_eq_nil_iff.1 hwoken.1).2.plan (.inl (ActiveJob.wait?_of_isWaiting hwaiting _))

/-- A job that has moved leaves the others on the agenda. -/
theorem Moved.agenda_of_ne (h : s.Moved e a a' s') (hne : number ≠ a.number) :
    s'.agenda.turns (.job number) = s.agenda.turns (.job number) ∧
      (s.agenda.Awake (.job number) → s'.agenda.Awake (.job number)) := by
  obtain ⟨agenda, hagenda, hplanned⟩ := h.agenda
  have hjob : Worker.job a.number ≠ .job number := by
    simpa using hne.symm
  rw [hplanned, Agenda.turns_plan_of_ne hjob]
  rcases hagenda with rfl | rfl
  · exact ⟨rfl, fun hawake => hawake.plan (.inr hjob)⟩
  · exact ⟨Agenda.turns_wake_of_ne (by simp), fun hawake => hawake.wake.plan (.inr hjob)⟩

theorem Moved.job? (h : s.Moved e a a' s') (hjob : s.job? a.number = some a) (number : Nat) :
    s'.job? number = if number = a.number then some a' else s.job? number := by
  rw [job?_congr h.active, job?_setJob, ActiveJob.number_of_becomes h.becomes]
  by_cases hnumber : number = a.number
  · rw [if_pos hnumber, if_pos hnumber, hnumber, hjob]
    rfl
  · rw [if_neg hnumber, if_neg hnumber]

/-- A job that had its turn has the next one when its stage asks for it. -/
theorem Scheduled.jobTurn (hs : s.Scheduled) {agenda : Agenda Worker}
    (htaken : s.agenda.Taken (.job number) agenda) (e : Surroundings σ) :
    (Supervision.jobTurn e number { s with agenda }).Scheduled := by
  have hplanned : s.Succeeds { s with agenda } := hs.staffed.succeeds_of_eq rfl rfl
  have hfree := (hs.turns_taken htaken).2
  rcases jobTurn_cases e { s with agenda } number with ⟨heq, hstays⟩ | ⟨a, a', hfind, hmoved⟩
  · rw [heq]
    refine ⟨hplanned.staffed, htaken.inTime, fun n => ?_⟩
    by_cases hn : n = number
    · subst hn
      cases hjob : Supervision.job? { s with agenda } n with
      | none => exact .gone hfree
      | some a => exact .stays hfree (hstays a hjob)
    · exact hs.taken_of_ne htaken (by simpa using Ne.symm hn)
  · have hnumber : a.number = number := number_of_job? hfind
    subst hnumber
    refine ⟨(hplanned.staffed.jobTurn e _).staffed, ?_, fun n => ?_⟩
    · obtain ⟨_, rfl | rfl, hagenda⟩ := hmoved.agenda
      · rw [hagenda]
        exact htaken.inTime.plan _
      · rw [hagenda]
        exact htaken.inTime.wake.plan _
    · -- The job that moves is planned anew, and what is planned for the others stays.
      rw [hmoved.job? hfind]
      split
      next hn =>
        subst hn
        exact (hmoved.agenda_self rfl hfree).2
      next hn =>
        rw [hmoved.network]
        have hother : OnAgenda s.network agenda n (s.job? n) :=
          hs.taken_of_ne htaken (by simpa using Ne.symm hn)
        obtain ⟨hturns, hawake⟩ := hmoved.agenda_of_ne hn
        exact hother.congr hturns hawake

/-! ## Turns of the supervisor -/

/-- Just the jobs on the roster are left. -/
theorem job?_stopUnlisted (s : Supervision σ) (number : Nat) :
    s.stopUnlisted.job? number = if s.roster.runs number then s.job? number else none := by
  rw [job?, stopUnlisted, List.find?_filter]
  by_cases hruns : s.roster.runs number = true
  · rw [if_pos hruns, job?]
    congr 1
    funext a
    by_cases ha : a.number = number
    · simp [ha, hruns]
    · simp [ha]
  · rw [if_neg hruns, List.find?_eq_none]
    intro a _
    by_cases ha : a.number = number
    · simp [ha, hruns]
    · simp [ha]

theorem turns_stopUnlisted (s : Supervision σ) (number : Nat) :
    s.stopUnlisted.agenda.turns (.job number) =
      if s.roster.runs number then s.agenda.turns (.job number) else [] :=
  Agenda.turns_keep _

/-- Jobs that are stopped leave the agenda, and the others stay on it. -/
theorem onAgenda_stopUnlisted (h : OnAgenda s.network s.agenda number (s.job? number)) :
    OnAgenda s.network s.stopUnlisted.agenda number (s.stopUnlisted.job? number) := by
  rw [job?_stopUnlisted]
  have hturns := turns_stopUnlisted s number
  split
  next hruns =>
    exact h.congr (hturns.trans (if_pos hruns)) fun hawake => hawake.keep _
  next hruns => exact .gone (hturns.trans (if_neg hruns))

theorem Scheduled.finish (hs : s.Scheduled) : s.finish.Scheduled := by
  refine ⟨(succeeds_finish s).staffed, hs.inTime.keep _, fun n => ?_⟩
  exact onAgenda_stopUnlisted (s := { s with roster := { s.roster with jobs := [] }, finished := true })
    (hs.jobs n)

/-- A job with a new number does not run yet, and has no turn. -/
theorem Scheduled.of_started_le (hs : s.Scheduled) (hnumber : s.roster.started ≤ number) :
    s.job? number = none ∧ s.agenda.turns (.job number) = [] := by
  have hnone : s.job? number = none := by
    rw [job?_eq_none_iff]
    intro hmem
    obtain ⟨a, ha, rfl⟩ := List.mem_map.1 hmem
    exact Nat.not_lt.2 hnumber (hs.staffed.lt_started ha)
  have hjob := hs.jobs number
  rw [hnone] at hjob
  rcases hjob.turns_cases with hfree | ⟨_, _, hsome, _⟩
  · exact ⟨hnone, hfree⟩
  · cases hsome

/-- The jobs that are new on the roster. -/
def recruited (s : Supervision σ) : List RunningJob :=
  (s.roster.reconcile s.accounts).jobs.filter fun j => s.roster.started ≤ j.number

/-- A supervision whose roster is new, and whose new jobs have not been started. -/
def reassigned (s : Supervision σ) : Supervision σ :=
  stopUnlisted { s with changed := false, roster := s.roster.reconcile s.accounts }

theorem agenda_look_eq (s : Supervision σ) :
    s.look.agenda = (s.recruited.map fun j => Worker.job j.number).foldl Agenda.wake s.reassigned.agenda :=
  List.foldl_map.symm

theorem Staffed.nodup_recruited (hs : s.Staffed) :
    (s.recruited.map fun j => Worker.job j.number).Nodup := by
  have hnumbers : (s.recruited.map (·.number)).Nodup :=
    (hs.sound.reconcile s.accounts).numbers.sublist (List.filter_sublist.map _)
  have hjobs := hnumbers.map (f := Worker.job) fun _ _ h => Worker.job.inj h
  rwa [List.map_map] at hjobs

theorem started_le_of_recruited {j : RunningJob} (hj : j ∈ s.recruited) :
    s.roster.started ≤ j.number :=
  of_decide_eq_true (List.mem_filter.1 hj).2

/-- What a look does to a number: a new job has its first turn now; every other job goes on as it was, or
is stopped. -/
theorem Scheduled.look_cases (hs : s.Scheduled) (number : Nat) :
    (s.roster.started ≤ number ∧ ∃ account,
      s.look.job? number = some ⟨number, { account }, {}⟩ ∧
        s.look.agenda.turns (.job number) = [s.agenda.now] ∧ s.look.agenda.Awake (.job number)) ∨
    (OnAgenda s.network s.look.agenda number (s.look.job? number) ∧
      ∀ a, s.look.job? number = some a →
        s.job? number = some a ∧ s.look.agenda.turns (.job number) = s.agenda.turns (.job number)) := by
  have hkept : OnAgenda s.network s.reassigned.agenda number (s.reassigned.job? number) :=
    onAgenda_stopUnlisted (s := { s with changed := false, roster := s.roster.reconcile s.accounts })
      (hs.jobs number)
  have hkeep : ∀ n, s.reassigned.agenda.turns (.job n) =
      if (s.roster.reconcile s.accounts).runs n then s.agenda.turns (.job n) else [] :=
    fun n => turns_stopUnlisted _ n
  -- The numbers of new jobs were never used, so no turn is planned for them.
  have hfree : ∀ j ∈ s.recruited, s.reassigned.agenda.turns (.job j.number) = [] := by
    intro j hj
    refine (hkeep j.number).trans ?_
    rw [(hs.of_started_le (started_le_of_recruited hj)).2, ite_self]
  have hturns := Agenda.turns_foldl_wake (t := .job number) hs.staffed.nodup_recruited (by simpa using hfree)
  rw [← agenda_look_eq] at hturns
  by_cases hnew : Worker.job number ∈ s.recruited.map fun j => Worker.job j.number
  · obtain ⟨j, hj, hnumber⟩ := List.mem_map.1 hnew
    obtain rfl := Worker.job.inj hnumber
    refine .inl ⟨started_le_of_recruited hj, j.account, ?_, ?_, ?_⟩
    · rw [hs.staffed.look.staffed.job?_eq_some_iff, active_look]
      exact ⟨List.mem_append_right _ (List.mem_map_of_mem hj), rfl⟩
    · rw [hturns, if_pos hnew]
      rfl
    · rw [agenda_look_eq]
      exact (Agenda.turns_eq_nil_iff.1 (hfree j hj)).2.foldl_wake _
  · rw [if_neg hnew] at hturns
    -- The new jobs stand behind the others, where no other number is found.
    have hnone : (s.recruited.map fun j => (⟨j.number, { account := j.account }, {}⟩ : ActiveJob)).find?
        (fun a => a.number = number) = none := by
      rw [List.find?_eq_none]
      intro a ha hnumber
      obtain ⟨j, hj, rfl⟩ := List.mem_map.1 ha
      exact hnew (List.mem_map.2 ⟨j, hj, congrArg Worker.job (of_decide_eq_true hnumber)⟩)
    have hjob : s.look.job? number = s.reassigned.job? number := by
      rw [job?, active_look, ← recruited, List.find?_append, hnone, Option.or_none]
      rfl
    refine .inr ⟨?_, ?_⟩
    · rw [hjob]
      refine hkept.congr hturns fun hawake => ?_
      rw [agenda_look_eq]
      exact hawake.foldl_wake _
    · intro a ha
      rw [hjob, reassigned, job?_stopUnlisted] at ha
      split at ha
      next hruns => exact ⟨ha, hturns.trans ((hkeep number).trans (if_pos hruns))⟩
      next => cases ha

theorem Scheduled.look (hs : s.Scheduled) : s.look.Scheduled := by
  refine ⟨hs.staffed.look.staffed, ?_, fun n => ?_⟩
  · rw [agenda_look_eq]
    exact (hs.inTime.keep _).foldl_wake _
  · rcases hs.look_cases n with ⟨_, account, hjob, hturns, hawake⟩ | ⟨hjob, _⟩
    · rw [hjob]
      exact .planned hturns fun _ => hawake
    · exact hjob

/-- The turn of the supervisor is no turn of a job. -/
theorem Scheduled.taken_supervisor (hs : s.Scheduled) {agenda : Agenda Worker}
    (htaken : s.agenda.Taken .supervisor agenda) : Scheduled { s with agenda } :=
  ⟨⟨hs.staffed.sound, hs.staffed.jobs⟩, htaken.inTime, fun _ => hs.taken_of_ne htaken (by simp)⟩

theorem Scheduled.supervisorTurn (hs : s.Scheduled) : s.supervisorTurn.Scheduled :=
  supervisorTurn_induction hs ⟨⟨hs.staffed.sound, hs.staffed.jobs⟩, hs.inTime, hs.jobs⟩
    (fun _ ht => ht.look) fun _ ht => ht.finish

/-! ## What is done from outside -/

/-- The jobs that a report wakes. -/
def roused (s : Supervision σ) (online : Bool) : List ActiveJob :=
  if online then s.active.filter fun a => a.job.isWaiting ∧ .job a.number ∉ s.agenda.ready else []

theorem agenda_setOnline (s : Supervision σ) (online : Bool) :
    (s.setOnline online).agenda =
      ((s.roused online).map fun a => Worker.job a.number).foldl Agenda.wake s.agenda :=
  List.foldl_map.symm

theorem mem_roused {online : Bool} :
    a ∈ s.roused online ↔
      online = true ∧ a ∈ s.active ∧ a.job.isWaiting = true ∧ .job a.number ∉ s.agenda.ready := by
  cases online with
  | false => simp [roused]
  | true => simp [roused]

theorem Staffed.nodup_roused (hs : s.Staffed) (online : Bool) :
    ((s.roused online).map fun a => Worker.job a.number).Nodup := by
  have hnumbers : ((s.roused online).map (·.number)).Nodup := by
    refine hs.nodup_numbers.sublist (List.Sublist.map _ ?_)
    rw [roused]
    split
    · exact List.filter_sublist
    · exact List.nil_sublist _
  have hjobs := hnumbers.map (f := Worker.job) fun _ _ h => Worker.job.inj h
  rwa [List.map_map] at hjobs

/-- A job that is woken had no turn ahead. -/
theorem Scheduled.turns_roused (hs : s.Scheduled) {online : Bool} (ha : a ∈ s.roused online) :
    s.agenda.turns (.job a.number) = [] := by
  obtain ⟨_, hactive, hwaiting, hready⟩ := mem_roused.1 ha
  have hjob := hs.jobs a.number
  rw [hs.staffed.job?_eq_some_iff.2 ⟨hactive, rfl⟩] at hjob
  cases hjob with
  | planned turn awake => exact Agenda.turns_eq_nil_iff.2 ⟨hready, awake hwaiting⟩
  | stays free stays => exact free

/-- A report leaves a number as it was, or wakes the job that waits for the network. -/
theorem Scheduled.setOnline_cases (hs : s.Scheduled) (online : Bool) (number : Nat) :
    ((s.setOnline online).agenda.turns (.job number) = s.agenda.turns (.job number) ∧
      ∀ a ∈ s.roused online, a.number ≠ number) ∨
    ∃ a ∈ s.roused online, a.number = number ∧
      (s.setOnline online).agenda.turns (.job number) = [s.agenda.now] := by
  have hturns := Agenda.turns_foldl_wake (t := .job number) (hs.staffed.nodup_roused online)
    (by simpa using fun a ha => hs.turns_roused ha)
  rw [← agenda_setOnline] at hturns
  by_cases hroused : Worker.job number ∈ (s.roused online).map fun a => Worker.job a.number
  · obtain ⟨a, ha, hnumber⟩ := List.mem_map.1 hroused
    exact .inr ⟨a, ha, Worker.job.inj hnumber, hturns.trans (if_pos hroused)⟩
  · refine .inl ⟨hturns.trans (if_neg hroused), fun a ha hnumber => hroused ?_⟩
    exact List.mem_map.2 ⟨a, ha, congrArg Worker.job hnumber⟩

theorem online_report {network : Connectivity} (h : network.online = false) :
    (network.report false).online = false := by
  rw [Connectivity.report]
  split
  · rfl
  · exact h

/-- A job that is not woken by a report has to wait for something else still. -/
theorem Scheduled.stays_report (hs : s.Scheduled) {online : Bool} (hjob : s.job? number = some a)
    (hfree : s.agenda.turns (.job number) = []) (hstays : a.Stays s.network)
    (hroused : ∀ b ∈ s.roused online, b.number ≠ number) : a.Stays (s.network.report online) := by
  cases hstays with
  | unending stage unending => exact .unending stage unending
  | offline stage offline =>
      obtain ⟨hactive, rfl⟩ := hs.staffed.job?_eq_some_iff.1 hjob
      have hwaiting : a.job.isWaiting = true := by
        rw [Job.isWaiting, stage]
      cases online with
      | false => exact .offline stage (online_report offline)
      | true =>
          -- Without a turn ahead the job is not ready, so the report would wake it.
          have hready := (Agenda.turns_eq_nil_iff.1 hfree).1
          exact absurd rfl (hroused a (mem_roused.2 ⟨rfl, hactive, hwaiting, hready⟩))

/-- A report wakes exactly the jobs that wait for the network. -/
theorem Scheduled.setOnline (hs : s.Scheduled) (online : Bool) : (s.setOnline online).Scheduled := by
  -- A job that is awake stays so when others are woken.
  have hawake : ∀ n, s.agenda.Awake (.job n) → (s.setOnline online).agenda.Awake (.job n) := by
    intro n h
    rw [agenda_setOnline]
    exact h.foldl_wake _
  refine ⟨⟨hs.staffed.sound, hs.staffed.jobs⟩, ?_, fun n => ?_⟩
  · rw [agenda_setOnline]
    exact hs.inTime.foldl_wake _
  · have hsame : (s.setOnline online).job? n = s.job? n := rfl
    rw [hsame]
    rcases hs.setOnline_cases online n with ⟨hturns, hroused⟩ | ⟨a, ha, rfl, hturns⟩
    · have hjob := hs.jobs n
      cases hfind : s.job? n with
      | none =>
          rw [hfind] at hjob
          cases hjob with
          | gone free => exact .gone (hturns.trans free)
      | some a =>
          rw [hfind] at hjob
          cases hjob with
          | planned turn awake => exact .planned (hturns.trans turn) fun h => hawake n (awake h)
          | stays free stays => exact .stays (hturns.trans free) (hs.stays_report hfind free stays hroused)
    · rw [hs.staffed.job?_eq_some_iff.2 ⟨(mem_roused.1 ha).2.1, rfl⟩]
      exact .planned hturns fun _ => hawake _ (Agenda.turns_eq_nil_iff.1 (hs.turns_roused ha)).2

/-- Whatever changes nothing but what jobs do not look at, and wakes the supervisor at most. -/
theorem Scheduled.of_woken (hs : s.Scheduled) (hroster : s'.roster = s.roster)
    (hactive : s'.active = s.active) (hnetwork : s'.network = s.network)
    (hagenda : s'.agenda = s.agenda.wake .supervisor) : s'.Scheduled := by
  refine ⟨(hs.staffed.succeeds_of_eq hroster (by rw [staff, hactive, staff])).staffed, ?_, fun n => ?_⟩
  · rw [hagenda]
    exact hs.inTime.wake
  · rw [hnetwork, job?_congr hactive, hagenda]
    exact (hs.jobs n).congr (Agenda.turns_wake_of_ne (by simp)) fun h => h.wake

/-! ## Runs -/

/-- Every event keeps the agenda in step with the stages of the jobs. -/
theorem Scheduled.step (hs : s.Scheduled) (e : Surroundings σ) (event : Event) :
    (s.step e event).Scheduled := by
  cases event with
  | pass milliseconds now =>
      rw [Supervision.step]
      rcases Agenda.next?_cases hs.inTime (s.agenda.now + milliseconds) with
        ⟨hnext, hready, hlater⟩ | ⟨worker, agenda, hnext, htaken⟩
      · rw [hnext]
        -- Nobody is due, and all sleepers wake later than the clock is put.
        refine ⟨⟨hs.staffed.sound, hs.staffed.jobs⟩, fun entry h => (hlater entry h).le, fun n => ?_⟩
        refine (hs.jobs n).congr ?_ fun h => h
        simp [Agenda.turns, hready]
      · rw [hnext]
        cases worker with
        | supervisor => exact (hs.taken_supervisor htaken).supervisorTurn
        | job number => exact hs.jobTurn htaken _
  | accounts accounts =>
      rw [Supervision.step, setAccounts]
      split
      · exact hs.of_woken rfl rfl rfl rfl
      · exact hs
  | online online => exact hs.setOnline online
  | close => exact hs.of_woken rfl rfl rfl rfl
  | abort => exact hs.of_woken rfl rfl rfl rfl

/-- By induction, the agenda is in step after any events. -/
theorem Scheduled.run (hs : s.Scheduled) (e : Surroundings σ) (events : List Event) :
    (s.run e events).Scheduled := by
  induction events generalizing s with
  | nil => exact hs
  | cons first rest ih => exact ih (hs.step e first)

theorem scheduled_run (e : Surroundings σ) (accounts : List Account) (network : Connectivity)
    (visits : Visits) (state : σ) (events : List Event) :
    ((launched accounts network visits state).run e events).Scheduled :=
  (scheduled_launched accounts network visits state).run e events

/-- A job that runs has its next turn ahead, or has to wait for something else. -/
theorem Scheduled.goes_on (hs : s.Scheduled) (ha : a ∈ s.active) :
    (∃ time, s.agenda.now ≤ time ∧ s.agenda.turns (.job a.number) = [time]) ∨ a.Stays s.network := by
  have hjob := hs.jobs a.number
  rw [hs.staffed.job?_eq_some_iff.2 ⟨ha, rfl⟩] at hjob
  cases hjob with
  | planned turn awake =>
      exact .inl ⟨_, hs.inTime.le_of_mem_turns (by rw [turn]; exact List.mem_singleton_self _), turn⟩
  | stays free stays => exact .inr stays

theorem numbers_setJob (s : Supervision σ) (a : ActiveJob) : (s.setJob a).numbers = s.numbers := by
  rw [numbers, setJob, List.map_map, numbers]
  refine List.map_congr_left fun b _ => ?_
  by_cases hb : b.number = a.number
  · simp [hb]
  · simp [hb]

theorem numbers_jobTurn (e : Surroundings σ) (number : Nat) (s : Supervision σ) :
    (s.jobTurn e number).numbers = s.numbers := by
  rcases jobTurn_cases e s number with ⟨heq, _⟩ | ⟨a, a', _, hmoved⟩
  · rw [heq]
  · rw [numbers, hmoved.active, ← numbers, numbers_setJob]

/-- A job is stopped by nothing but a turn of the supervisor. -/
theorem stopped_by_supervisor {event : Event} (hruns : number ∈ s.numbers)
    (hstopped : number ∉ (s.step e event).numbers) :
    ∃ milliseconds now agenda, event = .pass milliseconds now ∧
      s.agenda.next? (s.agenda.now + milliseconds) = some (.supervisor, agenda) := by
  cases event with
  | pass milliseconds now =>
      rw [step] at hstopped
      cases hnext : s.agenda.next? (s.agenda.now + milliseconds) with
      | none =>
          rw [hnext] at hstopped
          exact absurd hruns hstopped
      | some next =>
          obtain ⟨worker, agenda⟩ := next
          rw [hnext] at hstopped
          cases worker with
          | supervisor => exact ⟨milliseconds, now, agenda, rfl, hnext⟩
          -- A job's turn changes that job, but not which jobs there are.
          | job n =>
              have hsame := numbers_jobTurn { e with now } n { s with agenda }
              exact absurd (hsame.symm ▸ hruns) hstopped
  | accounts accounts =>
      rw [step, setAccounts] at hstopped
      split at hstopped
      · exact absurd hruns hstopped
      · exact absurd hruns hstopped
  | online | close | abort => exact absurd hruns hstopped

/-! ## Connections -/

/-- A connection is made only while the network can be reached. -/
theorem connects_step (e : Surroundings σ) (s : Supervision σ) (event : Event) :
    (s.step e event).connects = s.connects ∨ ∃ latest, s.network.online = true ∧
      (s.step e event).connects = s.connects ++ [((s.step e event).agenda.now, latest)] := by
  cases event with
  | pass milliseconds now =>
      rw [step]
      cases hnext : s.agenda.next? (s.agenda.now + milliseconds) with
      | none => exact .inl rfl
      | some next =>
          obtain ⟨worker, agenda⟩ := next
          cases worker with
          | supervisor =>
              exact .inl (supervisorTurn_induction (P := fun t => t.connects = s.connects) rfl rfl
                (fun _ ht => ht) fun _ ht => ht)
          | job n =>
              have hnow := now_turn { e with now } (.job n) { s with agenda }
              -- Only the turn of a job connects, and only if the network is online.
              rcases jobTurn_cases { e with now } { s with agenda } n with
                ⟨heq, _⟩ | ⟨a, a', _, hmoved⟩
              · exact .inl (congrArg (·.connects) heq)
              · rcases hmoved.becomes.connects?_cases with hnone | ⟨latest, hlatest, honline, _⟩
                · refine .inl (hmoved.connects.trans ?_)
                  rw [hnone]
                  exact List.append_nil _
                · refine .inr ⟨latest, honline, hmoved.connects.trans ?_⟩
                  rw [hlatest]
                  simp only [turn] at hnow ⊢
                  rw [hnow]
                  rfl
  | accounts accounts =>
      rw [step, setAccounts]
      split
      · exact .inl rfl
      · exact .inl rfl
  | online | close | abort => exact .inl rfl

end Supervision
end PasswordVault
