import PasswordVault.Proofs.Session.Roster
import PasswordVault.Proofs.Session.Turns
import PasswordVault.Session.Supervision

/-!
# Staff — the jobs that run are those of the roster

A supervisor looks at the list of accounts from time to time, and everything else happens in between:
jobs connect, pause and refresh tokens, the network comes and goes, the list is replaced.

* `Supervision.Happening`: one thing that happens; `Supervision.through`: any sequence of them.
* `Supervision.Staffed`: the invariant. The jobs that run have the accounts and numbers of the roster.
* `Supervision.Succeeds`: what one supervision has to do with an earlier one. A job that was stopped does
  not come back, since the numbers of jobs only grow.
* `Supervision.look_one_job_per_account`: which jobs run after the supervisor has looked.
-/

namespace PasswordVault

/-! ## Jobs keep their accounts -/

namespace Job

@[simp] theorem account_follow (j : Job) (pauses : JobPauses) (use : TokenUse Unit) :
    (j.follow pauses use).account = j.account := by
  cases use with
  | refresh current rejected => rfl
  | operate latest rejected => rfl
  | done result => cases result <;> rfl

@[simp] theorem account_begin (j : Job) (pauses : JobPauses) (now : Instant) :
    (j.begin pauses now).account = j.account :=
  account_follow j pauses _

@[simp] theorem account_refreshed (j : Job) (pauses : JobPauses) (outcome : Except SessionError Account) :
    (j.refreshed pauses outcome).account = j.account := by
  unfold refreshed
  split
  · exact account_follow j pauses _
  · rfl

@[simp] theorem account_reached (j : Job) : j.reached.account = j.account := by
  unfold reached
  split <;> rfl

@[simp] theorem account_ended (j : Job) (pauses : JobPauses) (outcome : Except SessionError Unit) :
    (j.ended pauses outcome).account = j.account := by
  unfold ended
  split
  · split
    · exact account_follow j pauses _
    · rfl
  · rfl

@[simp] theorem account_rested (j : Job) : j.rested.account = j.account := by
  unfold rested
  split <;> rfl

end Job

namespace Supervision

variable {σ : Type}

/-! ## What happens -/

/-- What happens to a supervision: a worker takes its turn, whatever the clock has made of the agenda, or
something is done from outside. -/
inductive Happening where
  | turn (worker : Worker) (agenda : Agenda Worker)
  | accounts (accounts : List Account)
  | online (online : Bool)
  | close
  | abort

def after (e : Surroundings σ) (s : Supervision σ) : Happening → Supervision σ
  | .turn worker agenda => turn e worker { s with agenda }
  | .accounts accounts => s.setAccounts accounts
  | .online online => s.setOnline online
  | .close => s.closeAccounts
  | .abort => s.abort

def through (e : Surroundings σ) (s : Supervision σ) (happenings : List Happening) : Supervision σ :=
  happenings.foldl (after e) s

/-- A supervision at its start. -/
def launched (accounts : List Account) (network : Connectivity) (visits : Visits) (state : σ) :
    Supervision σ :=
  { accounts, network, visits, state }

/-- Everything that workers do before a limit is a sequence of turns. -/
theorem exists_through_runUntil (e : Surroundings σ) (limit turns : Nat) (s : Supervision σ) :
    ∃ happenings agenda, runUntil e limit turns s = { through e s happenings with agenda } := by
  induction turns generalizing s with
  | zero => exact ⟨[], s.agenda, rfl⟩
  | succ turns ih =>
      rw [runUntil]
      cases hnext : s.agenda.next? limit with
      | none => exact ⟨[], { s.agenda with now := limit }, rfl⟩
      | some next =>
          obtain ⟨worker, planned⟩ := next
          obtain ⟨happenings, agenda, heq⟩ := ih (turn e worker { s with agenda := planned })
          exact ⟨.turn worker planned :: happenings, agenda, heq⟩

/-- Time that passes brings a sequence of turns. -/
theorem exists_through_advance (e : Surroundings σ) (milliseconds : Nat) (s : Supervision σ) :
    ∃ happenings agenda, s.advance e milliseconds = { through e s happenings with agenda } :=
  exists_through_runUntil e _ _ s

/-! ## The jobs that run -/

/-- The jobs that run, as they stand on a roster. -/
def staff (s : Supervision σ) : List RunningJob := s.active.map fun a => ⟨a.job.account, a.number⟩

def numbers (s : Supervision σ) : List Nat := s.active.map (·.number)

/-- Whether the jobs that run are those of the roster. -/
structure Staffed (s : Supervision σ) : Prop where
  sound : s.roster.Sound
  jobs : s.staff.Perm s.roster.jobs

variable {e : Surroundings σ} {s s' s'' : Supervision σ}

theorem staffed_launched (accounts : List Account) (network : Connectivity) (visits : Visits) (state : σ) :
    (launched accounts network visits state).Staffed :=
  ⟨Roster.sound_empty, .nil⟩

theorem map_number_staff (s : Supervision σ) : s.staff.map (·.number) = s.numbers := by
  rw [staff, numbers, List.map_map]
  rfl

theorem mem_staff {j : RunningJob} :
    j ∈ s.staff ↔ ∃ a ∈ s.active, a.job.account = j.account ∧ a.number = j.number := by
  obtain ⟨account, number⟩ := j
  simp [staff]

theorem Staffed.nodup_numbers (hs : s.Staffed) : s.numbers.Nodup := by
  rw [← map_number_staff]
  exact (hs.jobs.map _).nodup_iff.2 hs.sound.numbers

theorem Staffed.lt_started (hs : s.Staffed) {a : ActiveJob} (ha : a ∈ s.active) :
    a.number < s.roster.started :=
  hs.sound.bounded _ (hs.jobs.mem_iff.1 (List.mem_map_of_mem ha))

theorem Staffed.eq_of_number (hs : s.Staffed) {a b : ActiveJob} (ha : a ∈ s.active) (hb : b ∈ s.active)
    (hnumber : a.number = b.number) : a = b :=
  List.inj_on_of_nodup_map hs.nodup_numbers ha hb hnumber

/-- What a supervision has to do with an earlier one: the jobs that run are again those of the roster, and
those with an old number ran before. -/
structure Succeeds (s s' : Supervision σ) : Prop where
  staffed : s'.Staffed
  grows : s.roster.started ≤ s'.roster.started
  old : ∀ number ∈ s'.numbers, number < s.roster.started → number ∈ s.numbers

theorem Staffed.succeeds_self (hs : s.Staffed) : s.Succeeds s :=
  ⟨hs, Nat.le_refl _, fun _ hnumber _ => hnumber⟩

theorem Succeeds.trans (h : s.Succeeds s') (h' : s'.Succeeds s'') : s.Succeeds s'' := by
  refine ⟨h'.staffed, Nat.le_trans h.grows h'.grows, ?_⟩
  intro number hnumber hold
  exact h.old number (h'.old number hnumber (Nat.lt_of_lt_of_le hold h.grows)) hold

/-- Whatever leaves the roster and the jobs that run alone. -/
theorem Staffed.succeeds_of_eq (hs : s.Staffed) (hroster : s'.roster = s.roster)
    (hstaff : s'.staff = s.staff) : s.Succeeds s' := by
  refine ⟨⟨hroster ▸ hs.sound, ?_⟩, Nat.le_of_eq (by rw [hroster]), ?_⟩
  · rw [hroster, hstaff]
    exact hs.jobs
  · intro number hnumber _
    rwa [← map_number_staff, hstaff, map_number_staff] at hnumber

/-! ## Turns of jobs -/

/-- A job in another state runs for the same account. -/
theorem staff_setJob {a : ActiveJob} (h : ∀ b ∈ s.active, b.number = a.number → b.job.account = a.job.account) :
    (s.setJob a).staff = s.staff := by
  rw [staff, setJob, List.map_map, staff]
  refine List.map_congr_left ?_
  intro b hb
  by_cases hnumber : b.number = a.number
  · simp [hnumber, h b hb hnumber]
  · simp [hnumber]

theorem roster_goOn (e : Surroundings σ) (a : ActiveJob) (s : Supervision σ) :
    (s.goOn e a).roster = s.roster := by
  unfold goOn
  split <;> rfl

theorem staff_goOn (e : Surroundings σ) (a : ActiveJob) (s : Supervision σ) :
    (s.goOn e a).staff = (s.setJob a).staff := by
  unfold goOn
  split <;> rfl

/-- A job that moves on. -/
theorem Staffed.goOn (hs : s.Staffed) {a : ActiveJob} (ha : a ∈ s.active) {job : Job} {visit : Visit}
    (hjob : job.account = a.job.account) {t : Supervision σ} (hroster : t.roster = s.roster)
    (hactive : t.active = s.active) : s.Succeeds (t.goOn e ⟨a.number, job, visit⟩) := by
  refine hs.succeeds_of_eq ?_ ?_
  · rw [roster_goOn, hroster]
  · rw [staff_goOn, staff_setJob, staff, hactive, staff]
    intro b hb hnumber
    rw [hs.eq_of_number (hactive ▸ hb) ha hnumber, hjob]

/-- A job whose token is refreshed is still the one on the roster. -/
theorem Staffed.refresh (hs : s.Staffed) {a : ActiveJob} (ha : a ∈ s.active) (current : Account) :
    s.Succeeds (s.refresh e a current) := by
  unfold Supervision.refresh
  split
  next outcome state slots _ =>
    refine hs.goOn ha (by simp) ?_ ?_
    · split
      · split <;> rfl
      · rfl
    · split
      · split <;> rfl
      · rfl

theorem Staffed.connect (hs : s.Staffed) {a : ActiveJob} (ha : a ∈ s.active) (latest : Account) :
    s.Succeeds (s.connect e a latest) := by
  have hset : ∀ (t : Supervision σ) (visit : Visit), t.active = s.active →
      (t.setJob ⟨a.number, a.job.reached, visit⟩).staff = s.staff := by
    intro t visit hactive
    rw [staff_setJob, staff, hactive, staff]
    intro b hb hnumber
    rw [hs.eq_of_number (hactive ▸ hb) ha hnumber, Job.account_reached]
  unfold Supervision.connect
  split
  next visit visits _ =>
    simp only
    split
    · exact hs.succeeds_of_eq rfl (hset _ visit rfl)
    · exact hs.goOn ha (Job.account_reached _) rfl rfl
    · exact hs.succeeds_of_eq rfl (hset _ visit rfl)

/-- The turn of a job changes neither the roster nor the account of any job. -/
theorem Staffed.jobTurn (hs : s.Staffed) (e : Surroundings σ) (number : Nat) :
    s.Succeeds (s.jobTurn e number) := by
  unfold Supervision.jobTurn
  split
  · exact hs.succeeds_self
  next a hfind =>
    have ha : a ∈ s.active := List.mem_of_find?_eq_some hfind
    split
    · exact hs.goOn ha (Job.account_begin _ _ _) rfl rfl
    · exact hs.refresh ha _
    · split
      · exact hs.connect ha _
      · exact hs.succeeds_self
    · split
      · exact hs.goOn ha (Job.account_ended _ _ _) rfl rfl
      · exact hs.succeeds_self
    all_goals exact hs.goOn ha (Job.account_rested _) rfl rfl

/-- A job that does not run has no turn. -/
theorem jobTurn_of_not_mem {number : Nat} (h : number ∉ s.numbers) : s.jobTurn e number = s := by
  have hnone : s.active.find? (fun a => a.number = number) = none := by
    rw [List.find?_eq_none]
    intro a ha hnumber
    exact h (List.mem_map.2 ⟨a, ha, of_decide_eq_true hnumber⟩)
  rw [jobTurn, hnone]

/-! ## Turns of the supervisor -/

/-- The jobs after a look: those that are still listed, and the new ones. -/
theorem active_look (s : Supervision σ) :
    s.look.active = (s.active.filter fun a => (s.roster.reconcile s.accounts).runs a.number) ++
      ((s.roster.reconcile s.accounts).jobs.filter fun j => s.roster.started ≤ j.number).map
        fun j => ⟨j.number, { account := j.account }, {}⟩ :=
  rfl

theorem foldl_wake (jobs : List RunningJob) (agenda : Agenda Worker) :
    jobs.foldl (fun agenda j => agenda.wake (.job j.number)) agenda =
      { agenda with ready := agenda.ready ++ jobs.map fun j => .job j.number } := by
  induction jobs generalizing agenda with
  | nil => simp
  | cons j rest ih =>
      rw [List.foldl_cons, ih, Agenda.wake, List.map_cons, List.append_assoc, List.singleton_append]

theorem agenda_look (s : Supervision σ) :
    s.look.agenda =
      let kept := s.agenda.keep fun
        | .supervisor => true
        | .job number => (s.roster.reconcile s.accounts).runs number
      { kept with
        ready := kept.ready ++
          ((s.roster.reconcile s.accounts).jobs.filter fun j => s.roster.started ≤ j.number).map
            fun j => .job j.number } :=
  foldl_wake _ _

theorem runs_iff {r : Roster} {number : Nat} : r.runs number = true ↔ ∃ j ∈ r.jobs, j.number = number := by
  simp [Roster.runs]

/-- A job goes on if it stands on the new roster, with its account. -/
theorem Staffed.runs_reconcile_iff (hs : s.Staffed) {a : ActiveJob} (ha : a ∈ s.active) :
    (s.roster.reconcile s.accounts).runs a.number = true ↔
      ⟨a.job.account, a.number⟩ ∈ (s.roster.reconcile s.accounts).jobs := by
  obtain ⟨_, henrolled⟩ := Roster.Enrolled.reconcile hs.sound s.accounts
  have hjob : ⟨a.job.account, a.number⟩ ∈ s.roster.jobs := hs.jobs.mem_iff.1 (List.mem_map_of_mem ha)
  rw [runs_iff]
  constructor
  · rintro ⟨j, hj, hnumber⟩
    have hold : j ∈ s.roster.jobs := henrolled.old j hj (hnumber ▸ hs.lt_started ha)
    rwa [← List.inj_on_of_nodup_map hs.sound.numbers hold hjob hnumber]
  · intro hj
    exact ⟨_, hj, rfl⟩

/-- After a look exactly the jobs on the roster run. -/
theorem mem_staff_look (hs : s.Staffed) {j : RunningJob} :
    j ∈ s.look.staff ↔ j ∈ (s.roster.reconcile s.accounts).jobs := by
  obtain ⟨_, henrolled⟩ := Roster.Enrolled.reconcile hs.sound s.accounts
  rw [mem_staff, active_look]
  constructor
  · rintro ⟨a, ha, haccount, hnumber⟩
    have hsame : j = ⟨a.job.account, a.number⟩ := by
      rw [haccount, hnumber]
    rw [hsame]
    rcases List.mem_append.1 ha with ha | ha
    · obtain ⟨hactive, hruns⟩ := List.mem_filter.1 ha
      exact (hs.runs_reconcile_iff hactive).1 hruns
    · obtain ⟨k, hk, rfl⟩ := List.mem_map.1 ha
      exact (List.mem_filter.1 hk).1
  · intro hj
    rcases Nat.lt_or_ge j.number s.roster.started with hold | hnew
    · -- An old number belongs to a job that ran before.
      have hstaff := hs.jobs.mem_iff.2 (henrolled.old j hj hold)
      obtain ⟨a, ha, haccount, hnumber⟩ := mem_staff.1 hstaff
      refine ⟨a, List.mem_append_left _ (List.mem_filter.2 ⟨ha, ?_⟩), haccount, hnumber⟩
      exact runs_iff.2 ⟨j, hj, hnumber.symm⟩
    · exact ⟨⟨j.number, { account := j.account }, {}⟩, List.mem_append_right _
        (List.mem_map.2 ⟨j, List.mem_filter.2 ⟨hj, decide_eq_true hnew⟩, rfl⟩), rfl, rfl⟩

/-- New jobs have numbers that no job had before. -/
theorem Staffed.nodup_numbers_look (hs : s.Staffed) : s.look.numbers.Nodup := by
  have hsound := hs.sound.reconcile s.accounts
  have hnew : ((((s.roster.reconcile s.accounts).jobs.filter fun j => s.roster.started ≤ j.number).map
      fun j => (⟨j.number, { account := j.account }, {}⟩ : ActiveJob)).map (·.number)).Nodup := by
    rw [List.map_map]
    exact hsound.numbers.sublist (List.filter_sublist.map _)
  rw [numbers, active_look, List.map_append, List.nodup_append]
  refine ⟨hs.nodup_numbers.sublist (List.filter_sublist.map _), hnew, ?_⟩
  intro n hn m hm heq
  obtain ⟨a, ha, rfl⟩ := List.mem_map.1 hn
  obtain ⟨b, hb, rfl⟩ := List.mem_map.1 hm
  obtain ⟨j, hj, rfl⟩ := List.mem_map.1 hb
  have hlt := hs.lt_started (List.mem_filter.1 ha).1
  have hle : s.roster.started ≤ j.number := of_decide_eq_true (List.mem_filter.1 hj).2
  simp only at heq
  omega

/-- After the supervisor has looked, the jobs that run are those of the new roster. -/
theorem Staffed.look (hs : s.Staffed) : s.Succeeds s.look := by
  obtain ⟨_, henrolled⟩ := Roster.Enrolled.reconcile hs.sound s.accounts
  have hstaff : s.look.staff.Nodup := by
    have hnumbers := hs.nodup_numbers_look
    rw [← map_number_staff] at hnumbers
    exact hnumbers.of_map
  refine ⟨⟨henrolled.sound, ?_⟩, henrolled.grows, ?_⟩
  · exact (List.perm_ext_iff_of_nodup hstaff henrolled.sound.numbers.of_map).2 fun j => mem_staff_look hs
  · intro number hnumber hold
    rw [numbers, active_look] at hnumber
    obtain ⟨a, ha, rfl⟩ := List.mem_map.1 hnumber
    rcases List.mem_append.1 ha with ha | ha
    · exact List.mem_map_of_mem (List.mem_filter.1 ha).1
    · obtain ⟨j, hj, rfl⟩ := List.mem_map.1 ha
      exact absurd (of_decide_eq_true (List.mem_filter.1 hj).2) (Nat.not_le.2 hold)

/-- At the end of the supervisor no job is left. -/
theorem succeeds_finish (s : Supervision σ) : s.Succeeds s.finish := by
  have hnone : s.finish.active = [] := by
    rw [finish, stopUnlisted, List.filter_eq_nil_iff]
    intro a _
    simp [Roster.runs]
  refine ⟨⟨⟨List.nodup_nil, List.nodup_nil, fun _ hj => by cases hj⟩, ?_⟩, Nat.le_refl _, ?_⟩
  · rw [staff, hnone]
    exact .nil
  · intro number hnumber _
    rw [numbers, hnone] at hnumber
    cases hnumber

/-- The turn of the supervisor leaves the jobs of the roster, and brings back none that was stopped. -/
theorem Staffed.supervisorTurn (hs : s.Staffed) : s.Succeeds s.supervisorTurn := by
  refine supervisorTurn_induction (P := s.Succeeds) hs.succeeds_self (hs.succeeds_of_eq rfl rfl) ?_ ?_
  · intro t ht
    exact ht.trans ht.staffed.look
  · intro t ht
    exact ht.trans (succeeds_finish t)

/-! ## Any sequence -/

/-- Whatever happens, the staff is as it should be afterwards. -/
theorem Staffed.after (hs : s.Staffed) (e : Surroundings σ) (happening : Happening) :
    s.Succeeds (s.after e happening) := by
  have hagenda : ∀ agenda, s.Succeeds { s with agenda } := fun _ => hs.succeeds_of_eq rfl rfl
  cases happening with
  | turn worker agenda =>
      have hplanned := hagenda agenda
      cases worker with
      | supervisor => exact hplanned.trans hplanned.staffed.supervisorTurn
      | job number => exact hplanned.trans (hplanned.staffed.jobTurn e number)
  | accounts accounts =>
      refine hs.succeeds_of_eq ?_ ?_
      · simp only [Supervision.after, setAccounts]
        split <;> rfl
      · simp only [Supervision.after, setAccounts]
        split <;> rfl
  | online online => exact hs.succeeds_of_eq rfl rfl
  | close => exact hs.succeeds_of_eq rfl rfl
  | abort => exact hs.succeeds_of_eq rfl rfl

/-- By induction, so it is after any number of things. -/
theorem Staffed.through (hs : s.Staffed) (e : Surroundings σ) (happenings : List Happening) :
    s.Succeeds (s.through e happenings) := by
  induction happenings generalizing s with
  | nil => exact hs.succeeds_self
  | cons first rest ih =>
      have hfirst := hs.after e first
      exact hfirst.trans (ih hfirst.staffed)

theorem staffed_through (e : Surroundings σ) (accounts : List Account) (network : Connectivity)
    (visits : Visits) (state : σ) (happenings : List Happening) :
    ((launched accounts network visits state).through e happenings).Staffed :=
  ((staffed_launched accounts network visits state).through e happenings).staffed

/-! ## After a look -/

theorem Staffed.mem_numbers_iff (hs : s.Staffed) {number : Nat} :
    number ∈ s.numbers ↔ s.roster.runs number = true := by
  rw [← map_number_staff, (hs.jobs.map _).mem_iff, runs_iff, List.mem_map]

/-- Which jobs run is read off the list: one for each id, for the last account with it. -/
theorem Staffed.accounts_look (hs : s.Staffed) :
    (s.look.active.map fun a => a.job.account.id).Nodup ∧
      (∀ id, id ∈ s.look.active.map (fun a => a.job.account.id) ↔ id ∈ s.accounts.map (·.id)) ∧
      ∀ a ∈ s.look.active, lastWith (·.id) s.accounts a.job.account.id = some a.job.account := by
  obtain ⟨_, henrolled⟩ := Roster.Enrolled.reconcile hs.sound s.accounts
  have hids : (s.look.active.map fun a => a.job.account.id) = s.look.staff.map fun j => j.account.id := by
    rw [staff, List.map_map]
    rfl
  have hperm := (hs.look.staffed.jobs.map fun j => j.account.id)
  have hlast : ∀ a ∈ s.look.active, lastWith (·.id) s.accounts a.job.account.id = some a.job.account := by
    intro a ha
    have hj := (mem_staff_look hs).1 (List.mem_map_of_mem ha)
    exact (henrolled.accounts a.job.account).1 ⟨_, hj, rfl⟩
  refine ⟨?_, ?_, hlast⟩
  · rw [hids]
    exact hperm.nodup_iff.2 hs.look.staffed.sound.ids
  · intro id
    constructor
    · intro hid
      obtain ⟨a, ha, rfl⟩ := List.mem_map.1 hid
      exact List.mem_map_of_mem (lastWith_eq_some (hlast a ha)).1
    · intro hid
      obtain ⟨b, hb, rfl⟩ := List.mem_map.1 hid
      -- Of several entries with an id the last one has the job.
      obtain ⟨last, hfound⟩ := exists_lastWith (·.id) hb
      have hlastId := (lastWith_eq_some hfound).2
      rw [← hlastId] at hfound
      obtain ⟨j, hj, rfl⟩ := (henrolled.accounts last).2 hfound
      rw [hids, ← hlastId]
      exact List.mem_map_of_mem ((mem_staff_look hs).2 hj)

/-- A job that does not run after a look has no turn planned, and never runs again. -/
theorem Staffed.stopped_look (hs : s.Staffed) (e : Surroundings σ) {number : Nat}
    (hstarted : number < s.look.roster.started) (hnumber : number ∉ s.look.numbers) :
    (.job number ∉ s.look.agenda.ready ∧ .job number ∉ s.look.agenda.sleeping.map (·.2)) ∧
      ∀ later, number ∉ (s.look.through e later).numbers ∧
        (s.look.through e later).jobTurn e number = s.look.through e later := by
  have hruns : ¬ (s.roster.reconcile s.accounts).runs number = true :=
    fun h => hnumber (hs.look.staffed.mem_numbers_iff.2 h)
  refine ⟨⟨?_, ?_⟩, ?_⟩
  · -- Only new jobs are woken, and those are on the new roster.
    rw [agenda_look]
    intro hready
    rcases List.mem_append.1 hready with hkept | hwoken
    · exact hruns (List.mem_filter.1 hkept).2
    · obtain ⟨j, hj, hsame⟩ := List.mem_map.1 hwoken
      cases hsame
      exact hruns (runs_iff.2 ⟨j, (List.mem_filter.1 hj).1, rfl⟩)
  · rw [agenda_look]
    intro hsleeps
    obtain ⟨⟨time, worker⟩, hmem, rfl⟩ := List.mem_map.1 hsleeps
    exact hruns (List.mem_filter.1 hmem).2
  · intro later
    have hgone : number ∉ (s.look.through e later).numbers := by
      intro hagain
      exact hnumber ((hs.look.staffed.through e later).old number hagain hstarted)
    exact ⟨hgone, jobTurn_of_not_mem hgone⟩

/-- Where no id is listed twice, the jobs that go on are those with an account that is listed unchanged,
and they go on in whatever state they are; each of the other accounts gets one new job. -/
theorem Staffed.kept_look (hs : s.Staffed) (hids : (s.accounts.map (·.id)).Nodup) :
    (∀ a, a ∈ s.look.active ∧ a.number < s.roster.started ↔ a ∈ s.active ∧ a.job.account ∈ s.accounts) ∧
      (s.look.active.filter fun a => s.roster.started ≤ a.number) =
        ((s.accounts.filter fun b => ! s.active.any fun a => a.job.account = b).zipIdx
          s.roster.started).map fun (b, n) => ⟨n, { account := b }, {}⟩ := by
  obtain ⟨_, hcarried⟩ := Roster.Carried.reconcile hs.sound hids
  constructor
  · intro a
    have hkept := hcarried.kept ⟨a.job.account, a.number⟩
    rw [active_look, List.mem_append]
    constructor
    · -- A job with an old number was running; one that the look has started has a new number.
      rintro ⟨ha | ha, hold⟩
      · obtain ⟨hactive, hruns⟩ := List.mem_filter.1 ha
        exact ⟨hactive, (hkept.1 ⟨(hs.runs_reconcile_iff hactive).1 hruns, hold⟩).2⟩
      · obtain ⟨j, hj, rfl⟩ := List.mem_map.1 ha
        exact absurd (of_decide_eq_true (List.mem_filter.1 hj).2) (Nat.not_le.2 hold)
    · rintro ⟨hactive, haccount⟩
      have hjob := hs.jobs.mem_iff.1 (List.mem_map_of_mem hactive)
      obtain ⟨hlisted, hold⟩ := hkept.2 ⟨hjob, haccount⟩
      exact ⟨Or.inl (List.mem_filter.2 ⟨hactive, (hs.runs_reconcile_iff hactive).2 hlisted⟩), hold⟩
  · have hemploys : ∀ b, s.roster.employs b = s.active.any fun a => a.job.account = b := by
      intro b
      rw [Bool.eq_iff_iff, Roster.employs_iff, List.any_eq_true]
      constructor
      · rintro ⟨j, hj, haccount⟩
        obtain ⟨a, ha, hsame, -⟩ := mem_staff.1 (hs.jobs.mem_iff.2 hj)
        exact ⟨a, ha, decide_eq_true (hsame.trans haccount)⟩
      · rintro ⟨a, ha, haccount⟩
        exact ⟨_, hs.jobs.mem_iff.1 (List.mem_map_of_mem ha), of_decide_eq_true haccount⟩
    -- Of the two parts of the list after a look, the first has no new number and the second no old one.
    have hold : ((s.active.filter fun a => (s.roster.reconcile s.accounts).runs a.number).filter
        fun a => s.roster.started ≤ a.number) = [] := by
      rw [List.filter_eq_nil_iff]
      intro a ha hnumber
      have hlt := hs.lt_started (List.mem_filter.1 ha).1
      exact Nat.not_le.2 hlt (of_decide_eq_true hnumber)
    have hnew : (((s.roster.reconcile s.accounts).jobs.filter fun j => s.roster.started ≤ j.number).map
        fun j => (⟨j.number, { account := j.account }, {}⟩ : ActiveJob)).filter
          (fun a => s.roster.started ≤ a.number) =
        ((s.roster.reconcile s.accounts).jobs.filter fun j => s.roster.started ≤ j.number).map
          fun j => ⟨j.number, { account := j.account }, {}⟩ := by
      rw [List.filter_eq_self]
      intro a ha
      obtain ⟨j, hj, rfl⟩ := List.mem_map.1 ha
      exact (List.mem_filter.1 hj).2
    rw [active_look, List.filter_append, hold, List.nil_append, hnew, hcarried.new, Roster.recruits,
      List.map_map]
    simp only [hemploys]
    rfl

/-- Whatever has happened before, after the supervisor has looked at the list there runs one job for every
id that is listed, for the last account with that id; every other job that was ever started is stopped for
good. If no id is listed twice, the jobs that go on are those whose account is listed unchanged, untouched,
and each of the other accounts gets one new job; the account that is enrolled leaves the jobs of other ids
alone. -/
theorem look_one_job_per_account (e : Surroundings σ) (accounts : List Account) (network : Connectivity)
    (visits : Visits) (state : σ) (happenings : List Happening) :
    let s := (launched accounts network visits state).through e happenings
    let s' := s.look
    ((s'.active.map fun a => a.job.account.id).Nodup ∧
      (∀ id, id ∈ s'.active.map (fun a => a.job.account.id) ↔ id ∈ s.accounts.map (·.id)) ∧
      ∀ a ∈ s'.active, lastWith (·.id) s.accounts a.job.account.id = some a.job.account) ∧
    (s'.numbers.Nodup ∧ (∀ number ∈ s'.numbers, number < s'.roster.started) ∧
      ∀ number < s'.roster.started, number ∉ s'.numbers →
        (.job number ∉ s'.agenda.ready ∧ .job number ∉ s'.agenda.sleeping.map (·.2)) ∧
        ∀ later, number ∉ (s'.through e later).numbers ∧
          (s'.through e later).jobTurn e number = s'.through e later) ∧
    ((s.accounts.map (·.id)).Nodup →
      (∀ a, a ∈ s'.active ∧ a.number < s.roster.started ↔ a ∈ s.active ∧ a.job.account ∈ s.accounts) ∧
      (s'.active.filter fun a => s.roster.started ≤ a.number) =
        ((s.accounts.filter fun b => ! s.active.any fun a => a.job.account = b).zipIdx
          s.roster.started).map fun (b, n) => ⟨n, { account := b }, {}⟩) ∧
    ∀ (st : List RunningJob × Roster) (a : Account) (id : String), id ≠ a.id →
      Roster.find? id (Roster.enroll st a).1 = Roster.find? id st.1 ∧
        Roster.find? id (Roster.enroll st a).2.jobs = Roster.find? id st.2.jobs := by
  intro s s'
  have hs : s.Staffed := staffed_through e accounts network visits state happenings
  refine ⟨hs.accounts_look, ⟨hs.nodup_numbers_look, ?_, ?_⟩, hs.kept_look, ?_⟩
  · intro number hnumber
    obtain ⟨a, ha, rfl⟩ := List.mem_map.1 hnumber
    exact hs.look.staffed.lt_started ha
  · intro number hstarted hnumber
    exact hs.stopped_look e hstarted hnumber
  · intro st a id hne
    exact Roster.find?_enroll_of_ne st hne

/-- One account moves to another server and changes places with one that stays as it is: only the first gets
a new job. -/
theorem look_one_job_per_account_moved :
    let s := through ⟨fun _ _ => (.error .unauthorized, ()), false, .epoch, {}⟩
      (launched [⟨"a", "old", none⟩, ⟨"b", "own", none⟩] ⟨true, true⟩ [] ())
      [.turn .supervisor {}, .accounts [⟨"b", "own", none⟩, ⟨"a", "new", none⟩]]
    (s.accounts.map (·.id)).Nodup ∧
      (∀ a, a ∈ s.look.active ∧ a.number < 2 ↔ a ∈ s.active ∧ a.job.account ∈ s.accounts) ∧
      (s.look.active.filter fun a => 2 ≤ a.number) = [⟨2, { account := ⟨"a", "new", none⟩ }, {}⟩] := by
  have hlisted : ([⟨"b", "own", none⟩, ⟨"a", "new", none⟩] : List Account).map (·.id) |>.Nodup := by
    decide
  obtain ⟨-, -, hdistinct, -⟩ := look_one_job_per_account
    ⟨fun _ _ => (.error .unauthorized, ()), false, .epoch, {}⟩
    [⟨"a", "old", none⟩, ⟨"b", "own", none⟩] ⟨true, true⟩ [] ()
    [.turn .supervisor {}, .accounts [⟨"b", "own", none⟩, ⟨"a", "new", none⟩]]
  obtain ⟨hkept, hnew⟩ := hdistinct hlisted
  exact ⟨hlisted, hkept, hnew⟩

end Supervision
end PasswordVault
