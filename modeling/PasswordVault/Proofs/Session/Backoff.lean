import PasswordVault.Proofs.Session.Timeline

/-!
# Backoff — how a job keeps connecting

A job connects its account again and again. A connect goes through refreshes of the token and repeated
attempts, and has one result in the end; then the job pauses, for longer the more connects have failed in
a row.

- `JobNote`: what is noted of a job; `Supervision.diary`: its notes in a run, with their times;
- `pauseAfter`: the pause that is due after some results;
- `Orderly`: each end in a diary is followed by the beginning of the next connect, after that pause;
- `Supervision.Told`: the invariant. A job counts its failures, and its next turn is when the pause ends;
- `Supervision.job_backs_off`: what holds of every job in every run.
-/

namespace PasswordVault

variable {σ : Type}

/-! ## Notes -/

/-- The result of a use of a token that is done. -/
def TokenUse.result? {α : Type} : TokenUse α → Option (Except SessionError α)
  | .done result => some result
  | _ => none

/-- What is noted of a job: a connect begins, or ends with a result. -/
inductive JobNote where
  | begins
  | ends (result : Except SessionError Unit)
deriving DecidableEq

/-- What is noted in the turn of a job. A connect begins when an idle job goes on. It ends when its use of
a token is done: by a refresh that failed, or by the end of a connection after which no other attempt
follows. -/
def ActiveJob.note? (e : Surroundings σ) (s : Supervision σ) (a : ActiveJob) : Option JobNote :=
  match a.job.stage with
  | .idle => some .begins
  | .refreshing current rejected =>
    let outcome := (refreshOnce e.refresher e.now current (s.state, s.slots)).1
    (TokenUse.afterRefresh (α := Unit) rejected outcome).result?.map .ends
  | .connected latest rejected _ =>
    (a.visit.outcome.filter isFinal).bind fun outcome =>
      (TokenUse.afterOperation latest rejected outcome).result?.map .ends
  | _ => none

/-- The results of the connects in a diary. -/
def results (notes : List (Nat × JobNote)) : List (Except SessionError Unit) :=
  notes.filterMap fun entry =>
    match entry.2 with
    | .begins => none
    | .ends result => some result

/-- How many of some results are failures since the start or the last success. -/
def failuresInRow (results : List (Except SessionError Unit)) : Nat :=
  results.foldl (fun failures result =>
    match result with
    | .ok _ => 0
    | .error _ => failures + 1) 0

/-- The pause in milliseconds after some results. -/
def pauseAfter (pauses : JobPauses) (results : List (Except SessionError Unit)) : Nat :=
  match failuresInRow results with
  | 0 => pauses.reconnect
  | k => 100 * (3 ^ min (k - 1) 6 - 1)

/-- The time at which the connect after the last one in a diary has to begin. -/
def pending (pauses : JobPauses) (notes : List (Nat × JobNote)) : Option Nat :=
  match notes.getLast? with
  | some (time, .ends _) => some (time + pauseAfter pauses (results notes))
  | _ => none

/-- After the end of a connect nothing is noted but the beginning of the next one, at its time. -/
inductive Orderly (pauses : JobPauses) : List (Nat × JobNote) → Prop
  | nil : Orderly pauses []
  | snoc {notes : List (Nat × JobNote)} {entry : Nat × JobNote} (orderly : Orderly pauses notes)
      (next : ∀ time, pending pauses notes = some time → entry = (time, .begins)) :
      Orderly pauses (notes ++ [entry])

variable {pauses : JobPauses} {notes : List (Nat × JobNote)} {time : Nat}
  {result : Except SessionError Unit}

@[simp] theorem results_begins : results (notes ++ [(time, .begins)]) = results notes := by
  simp [results]

@[simp] theorem results_ends : results (notes ++ [(time, .ends result)]) = results notes ++ [result] := by
  simp [results]

theorem pending_begins : pending pauses (notes ++ [(time, .begins)]) = none := by
  simp [pending]

theorem pending_ends : pending pauses (notes ++ [(time, .ends result)]) =
    some (time + pauseAfter pauses (results notes ++ [result])) := by
  simp [pending]

/-- What follows the end of a connect in a diary. -/
theorem Orderly.next_eq (h : Orderly pauses notes) {before rest : List (Nat × JobNote)}
    {entry : Nat × JobNote} (hdiary : notes = before ++ (time, .ends result) :: entry :: rest) :
    entry = (time + pauseAfter pauses (results before ++ [result]), .begins) := by
  induction h generalizing rest with
  | nil => simp at hdiary
  | @snoc notes last orderly next ih =>
      rcases List.eq_nil_or_concat rest with rfl | ⟨rest, last', rfl⟩
      · obtain ⟨rfl, hlast⟩ := List.append_inj' (hdiary.trans (List.append_cons before _ [entry])) rfl
        obtain rfl := List.singleton_inj.1 hlast
        exact next _ pending_ends
      · rw [List.concat_eq_append, ← List.cons_append, ← List.cons_append, ← List.append_assoc] at hdiary
        exact ih (List.append_inj' hdiary rfl).1

/-! ## Counting failures -/

@[simp] theorem failuresInRow_ok (results : List (Except SessionError Unit)) :
    failuresInRow (results ++ [.ok ()]) = 0 := by
  simp [failuresInRow]

@[simp] theorem failuresInRow_error (results : List (Except SessionError Unit)) (err : SessionError) :
    failuresInRow (results ++ [.error err]) = failuresInRow results + 1 := by
  simp [failuresInRow]

/-- Whether a job has counted the failures among some results, as far as it counts. -/
def Job.Counts (j : Job) (results : List (Except SessionError Unit)) : Prop :=
  j.failures.attempt = min (failuresInRow results) RetryDelay.maxAttempt

/-- A job that has a result counts it, and rests for the pause that is due. -/
theorem Job.Counts.follow {j : Job} {results : List (Except SessionError Unit)} (h : j.Counts results)
    (pauses : JobPauses) (result : Except SessionError Unit) :
    (j.follow pauses (.done result)).Counts (results ++ [result]) ∧
      (j.follow pauses (.done result)).stage = .resting (pauseAfter pauses (results ++ [result])) := by
  cases result with
  | ok done =>
      refine ⟨?_, ?_⟩
      · rw [Counts, failuresInRow_ok]
        rfl
      · rw [pauseAfter, failuresInRow_ok]
        rfl
  | error err =>
      rw [Counts] at h
      refine ⟨?_, ?_⟩
      · simp only [Counts, Job.follow, RetryDelay.next, h, failuresInRow_error]
        omega
      · -- The bound on the exponent is below the one on the count, so only the former shows.
        have hpause : min (min (failuresInRow results) RetryDelay.maxAttempt) RetryDelay.maxExponent =
            min (failuresInRow results) 6 := by
          rw [RetryDelay.maxAttempt, RetryDelay.maxExponent]
          omega
        simp only [Job.follow, RetryDelay.pause, h, hpause, pauseAfter, failuresInRow_error]
        rfl

/-! ## Notes of a move -/

/-- Whether a job is between two connects. -/
def Job.Pauses (j : Job) : Prop := j.stage = .idle ∨ ∃ time, j.stage = .resting time

/-- What a move of a job has to do with the note of it. -/
inductive ActiveJob.Noted (e : Surroundings σ) (a a' : ActiveJob) : Option JobNote → Prop
  | begins (stage : a.job.stage = .idle) (failures : a'.job.failures = a.job.failures) :
      Noted e a a' (some .begins)
  | ends {result : Except SessionError Unit} (busy : ¬ a.job.Pauses)
      (job : a'.job = a.job.follow e.pauses (.done result)) : Noted e a a' (some (.ends result))
  | nothing (stage : a.job.stage ≠ .idle) (failures : a'.job.failures = a.job.failures)
      (rested : ∀ time, a.job.stage = .resting time → a'.job.stage = .idle) : Noted e a a' none

/-- A use of a token that is done is noted, and without a result no failure is counted. -/
theorem noted_follow {e : Surroundings σ} {a a' : ActiveJob} {use : TokenUse Unit}
    (busy : ¬ a.job.Pauses) (job : a'.job = a.job.follow e.pauses use) :
    a.Noted e a' (use.result?.map .ends) := by
  have hrested : ∀ time, a.job.stage = .resting time → a'.job.stage = .idle :=
    fun time hstage => absurd (.inr ⟨time, hstage⟩) busy
  have hidle : a.job.stage ≠ .idle := fun hstage => busy (.inl hstage)
  cases use with
  | done result => exact .ends busy job
  | refresh current rejected =>
      exact .nothing hidle (by rw [job]; rfl) hrested
  | operate latest rejected =>
      exact .nothing hidle (by rw [job]; rfl) hrested

/-- Every way in which a job moves is noted as what it is. -/
theorem ActiveJob.Becomes.noted {e : Surroundings σ} {s : Supervision σ} {a a' : ActiveJob}
    (h : a.Becomes e s a') : a.Noted e a' (a.note? e s) := by
  cases h with
  | begun stage =>
      rw [note?, stage]
      refine .begins stage ?_
      simp only [Job.begin, TokenUse.start]
      split <;> rfl
  | refreshed stage =>
      rw [note?, stage]
      refine noted_follow ?_ ?_
      · simp [Job.Pauses, stage]
      · simp only [Job.refreshed, stage]
  | reached stage online =>
      rw [note?, stage]
      refine .nothing (by simp [stage]) ?_ (by simp [stage])
      simp only [Job.reached, stage]
  | @ended _ _ _ outcome stage ends =>
      rw [note?, stage, ends]
      -- A connection that ends for the first rejection of a token goes on with a refresh.
      by_cases hfinal : isFinal outcome = true
      · simp only [Option.filter_some, hfinal, if_true, Option.bind_some]
        refine noted_follow (by simp [Job.Pauses, stage]) ?_
        simp only [Job.ended, stage, hfinal, if_true]
      · simp only [Option.filter_some, hfinal]
        refine .nothing (by simp [stage]) ?_ (by simp [stage])
        simp [Job.ended, stage, hfinal]
  | rested pauses =>
      cases hstage : a.job.stage with
      | settling | pausing =>
          rw [note?, hstage]
          exact .nothing (by simp [hstage]) (by simp [Job.rested, hstage]) (by simp [hstage])
      | resting =>
          rw [note?, hstage]
          exact .nothing (by simp [hstage]) (by simp [Job.rested, hstage]) (by simp [Job.rested, hstage])
      | idle | refreshing | waiting | connected => simp [Job.pause?, hstage] at pauses

/-- Nothing is noted of a job that has to wait for something else, and it is busy with a connect. -/
theorem ActiveJob.Stays.note?_eq_none {s : Supervision σ} {a : ActiveJob} {network : Connectivity}
    (h : a.Stays network) (e : Surroundings σ) : a.note? e s = none ∧ ¬ a.job.Pauses := by
  cases h with
  | offline stage offline => exact ⟨by rw [note?, stage], by simp [Job.Pauses, stage]⟩
  | unending stage unending =>
      refine ⟨?_, by simp [Job.Pauses, stage]⟩
      rw [note?, stage, unending]
      rfl

namespace Supervision

/-! ## Diaries -/

variable {e : Surroundings σ} {s s' : Supervision σ} {a a' : ActiveJob} {number : Nat}

/-- What is noted of a job in a turn, with the time. -/
def notedAt (e : Surroundings σ) (s : Supervision σ) (number : Nat) (worker : Worker) (time : Nat) :
    Option (Nat × JobNote) :=
  if worker = .job number then (s.job? number).bind fun a => (a.note? e s).map (time, ·) else none

/-- What is noted of a job at an event. -/
def noted (e : Surroundings σ) (s : Supervision σ) (number : Nat) : Event → Option (Nat × JobNote)
  | .pass milliseconds now =>
    (s.agenda.next? (s.agenda.now + milliseconds)).bind fun (worker, agenda) =>
      s.notedAt { e with now } number worker agenda.now
  | _ => none

/-- The diary of a job in a run. -/
def diary (e : Surroundings σ) (number : Nat) : Supervision σ → List Event → List (Nat × JobNote)
  | _, [] => []
  | s, event :: rest => (s.noted e number event).toList ++ diary e number (s.step e event) rest

/-- What a diary says about a job: nothing before it was started, the failures that it has counted, and
when its next turn is while it pauses between two connects. -/
structure Told (pauses : JobPauses) (notes : List (Nat × JobNote)) (s : Supervision σ) (number : Nat) :
    Prop where
  unstarted : s.roster.started ≤ number → notes = []
  counts : ∀ a, s.job? number = some a → a.job.Counts (results notes)
  due : ∀ a time, s.job? number = some a → pending pauses notes = some time →
    a.job.Pauses ∧ s.agenda.turns (.job number) = [time]

theorem told_launched (pauses : JobPauses) (accounts : List Account) (network : Connectivity)
    (visits : Visits) (state : σ) (number : Nat) :
    Told pauses [] (launched accounts network visits state) number :=
  ⟨fun _ => rfl, fun _ h => (by cases h), fun _ _ h => (by cases h)⟩

/-- What notes tell of a job depends on the job and its turns alone. -/
theorem Told.congr (h : Told pauses notes s number)
    (hstarted : s.roster.started ≤ s'.roster.started)
    (hjob : ∀ a, s'.job? number = some a → s.job? number = some a ∧
      (a.job.Pauses → s'.agenda.turns (.job number) = s.agenda.turns (.job number))) :
    Told pauses notes s' number := by
  refine ⟨fun hnumber => h.unstarted (Nat.le_trans hstarted hnumber), ?_, ?_⟩
  · intro a ha
    exact h.counts a (hjob a ha).1
  · intro a time ha htime
    obtain ⟨hsame, hturns⟩ := hjob a ha
    obtain ⟨hpauses, hdue⟩ := h.due a time hsame htime
    exact ⟨hpauses, (hturns hpauses).trans hdue⟩

/-- What a diary has to say about a job that runs. -/
theorem told_of_job? (hjob : s.job? number = some a) (hstarted : number < s.roster.started)
    (counts : a.job.Counts (results notes))
    (due : ∀ time, pending pauses notes = some time →
      a.job.Pauses ∧ s.agenda.turns (.job number) = [time]) : Told pauses notes s number := by
  refine ⟨fun hnew => absurd hstarted (Nat.not_lt.2 hnew), ?_, ?_⟩
  · intro b hb
    obtain rfl := Option.some.inj (hjob.symm.trans hb)
    exact counts
  · intro b time hb htime
    obtain rfl := Option.some.inj (hjob.symm.trans hb)
    exact due time htime

/-- The supervisor starts and stops jobs, and leaves the others alone. -/
theorem Told.supervisorTurn (h : Told pauses notes s number) (hs : s.Scheduled) :
    Told pauses notes s.supervisorTurn number := by
  refine (supervisorTurn_induction (P := fun t => t.Scheduled ∧ Told pauses notes t number)
    ⟨hs, h⟩ ?_ ?_ ?_).2
  · exact ⟨⟨⟨hs.staffed.sound, hs.staffed.jobs⟩, hs.inTime, hs.jobs⟩,
      h.congr (Nat.le_refl _) fun a ha => ⟨ha, fun _ => rfl⟩⟩
  · rintro t ⟨ht, htold⟩
    refine ⟨ht.look, ?_⟩
    have hgrows := ht.staffed.look.grows
    rcases ht.look_cases number with ⟨hnew, account, hjob, _⟩ | ⟨_, hkept⟩
    · -- A new job has no diary and has counted nothing.
      have hnone := htold.unstarted hnew
      subst hnone
      refine ⟨fun _ => rfl, ?_, fun _ _ _ htime => (by cases htime)⟩
      intro a ha
      rw [hjob] at ha
      cases ha
      rfl
    · exact htold.congr hgrows fun a ha => ⟨(hkept a ha).1, fun _ => (hkept a ha).2⟩
  · rintro t ⟨ht, htold⟩
    refine ⟨ht.finish, htold.congr (Nat.le_refl _) fun a ha => ?_⟩
    rw [finish, job?_stopUnlisted] at ha
    simp [Roster.runs] at ha

/-- A report on the network moves no job that pauses. -/
theorem Told.setOnline (h : Told pauses notes s number) (hs : s.Scheduled) (online : Bool) :
    Told pauses notes (s.setOnline online) number := by
  refine h.congr (Nat.le_refl _) fun a ha => ⟨ha, fun hpauses => ?_⟩
  rcases hs.setOnline_cases online number with ⟨hturns, _⟩ | ⟨b, hb, rfl, _⟩
  · exact hturns
  · -- A job that waits for the network is not between two connects.
    obtain ⟨_, hactive, hwaiting, _⟩ := mem_roused.1 hb
    have hsame : s.job? b.number = some b := hs.staffed.job?_eq_some_iff.2 ⟨hactive, rfl⟩
    obtain rfl := Option.some.inj (hsame.symm.trans ha)
    rcases hpauses with hstage | ⟨_, hstage⟩
    · simp [Job.isWaiting, hstage] at hwaiting
    · simp [Job.isWaiting, hstage] at hwaiting

/-- A job that moves keeps its diary. -/
theorem Told.moved {agenda : Agenda Worker} {note : Option JobNote} (h : Told e.pauses notes s number)
    (horderly : Orderly e.pauses notes) (hs : s.Scheduled)
    (htaken : s.agenda.Taken (.job number) agenda) (hjob : s.job? number = some a)
    (hmoved : Moved e { s with agenda } a a' s') (hnoted : a.Noted e a' note) :
    Orderly e.pauses (notes ++ (note.map (agenda.now, ·)).toList) ∧
      Told e.pauses (notes ++ (note.map (agenda.now, ·)).toList) s' number := by
  obtain rfl := number_of_job? hjob
  obtain ⟨hturns, hfree⟩ := hs.turns_taken htaken
  have hturns' := (hmoved.agenda_self rfl hfree).1
  have hcounts := h.counts a hjob
  have hdue : ∀ time, pending e.pauses notes = some time → a.job.Pauses ∧ time = agenda.now := by
    intro time htime
    obtain ⟨hpauses, hdue⟩ := h.due a time hjob htime
    exact ⟨hpauses, List.singleton_inj.1 (hdue.symm.trans hturns)⟩
  have hjob' : s'.job? a.number = some a' := (hmoved.job? hjob _).trans (if_pos rfl)
  have hstarted : a.number < s'.roster.started := by
    rw [hmoved.roster]
    exact hs.staffed.lt_started (hs.staffed.job?_eq_some_iff.1 hjob).1
  cases hnoted with
  | begins stage failures =>
      -- The job was idle, so its turn was the one that was due.
      refine ⟨horderly.snoc fun time htime => ?_, told_of_job? hjob' hstarted ?_ fun time htime => ?_⟩
      · rw [(hdue time htime).2]
      · rw [Option.map_some, Option.toList_some, results_begins, Job.Counts, failures]
        exact hcounts
      · cases pending_begins.symm.trans htime
  | @ends result busy job =>
      -- A connect was under way, so nothing was due; now the job rests, and what is due is its next turn.
      obtain ⟨hcounts', hstage⟩ := hcounts.follow e.pauses result
      rw [← job] at hcounts' hstage
      refine ⟨horderly.snoc fun time htime => absurd (hdue time htime).1 busy,
        told_of_job? hjob' hstarted ?_ fun time htime => ?_⟩
      · rw [Option.map_some, Option.toList_some, results_ends]
        exact hcounts'
      · have hwait : a'.wait? e.pauses = some (pauseAfter e.pauses (results notes ++ [result])) := by
          simp [ActiveJob.wait?, Job.isConnected, Job.pause?, hstage]
        obtain rfl := Option.some.inj (pending_ends.symm.trans htime)
        refine ⟨.inr ⟨_, hstage⟩, ?_⟩
        rw [hturns', hwait]
        rfl
  | nothing stage failures rested =>
      rw [Option.map_none, Option.toList_none, List.append_nil]
      refine ⟨horderly, told_of_job? hjob' hstarted ?_ fun time htime => ?_⟩
      · rw [Job.Counts, failures]
        exact hcounts
      · -- Something is due and the job is not idle, so its rest ends now and it goes on at once.
        obtain ⟨hpauses, rfl⟩ := hdue time htime
        obtain ⟨rest, hresting⟩ := hpauses.resolve_left stage
        have hidle := rested rest hresting
        have hwait : a'.wait? e.pauses = some 0 := by
          simp [ActiveJob.wait?, Job.isConnected, Job.pause?, hidle]
        refine ⟨.inl hidle, ?_⟩
        rw [hturns', hwait]
        rfl

/-- The turn of a job keeps its diary and those of the others. -/
theorem Told.jobTurn {agenda : Agenda Worker} {n : Nat} (h : Told e.pauses notes s number)
    (horderly : Orderly e.pauses notes) (hs : s.Scheduled) (htaken : s.agenda.Taken (.job n) agenda) :
    Orderly e.pauses (notes ++ (s.notedAt e number (.job n) agenda.now).toList) ∧
      Told e.pauses (notes ++ (s.notedAt e number (.job n) agenda.now).toList)
        (Supervision.jobTurn e n { s with agenda }) number := by
  rw [notedAt]
  by_cases hn : n = number
  · subst hn
    rw [if_pos rfl]
    rcases jobTurn_cases e { s with agenda } n with ⟨heq, hstays⟩ | ⟨a, a', hfind, hmoved⟩
    · have hnone : ((s.job? n).bind fun a => (a.note? e s).map (agenda.now, ·)) = none := by
        cases hjob : s.job? n with
        | none => rfl
        | some a => simp [(hstays a hjob).note?_eq_none]
      rw [hnone, Option.toList_none, List.append_nil, heq]
      refine ⟨horderly, h.congr (Nat.le_refl _) fun a ha => ⟨ha, fun hpauses => ?_⟩⟩
      exact absurd hpauses ((hstays a ha).note?_eq_none (s := s) e).2
    · have hjob : s.job? n = some a := hfind
      rw [hjob, Option.bind_some]
      exact h.moved horderly hs htaken hjob hmoved hmoved.becomes.noted
  · -- The turn of another job is not noted and leaves this one as it is.
    rw [if_neg (by simpa using hn), Option.toList_none, List.append_nil]
    have hother : agenda.turns (.job number) = s.agenda.turns (.job number) :=
      hs.turns_of_ne htaken (by simpa using hn)
    refine ⟨horderly, ?_⟩
    rcases jobTurn_cases e { s with agenda } n with ⟨heq, _⟩ | ⟨a, a', hfind, hmoved⟩
    · rw [heq]
      exact h.congr (Nat.le_refl _) fun a ha => ⟨ha, fun _ => hother⟩
    · obtain rfl := number_of_job? hfind
      refine h.congr (Nat.le_of_eq (congrArg Roster.started hmoved.roster.symm)) fun b hb => ?_
      rw [hmoved.job? hfind, if_neg (Ne.symm hn)] at hb
      exact ⟨hb, fun _ => (hmoved.agenda_of_ne (Ne.symm hn)).1.trans hother⟩

/-- Whatever happens, a diary stays orderly and up to date. -/
theorem Told.step (h : Told e.pauses notes s number) (horderly : Orderly e.pauses notes)
    (hs : s.Scheduled) (event : Event) :
    Orderly e.pauses (notes ++ (s.noted e number event).toList) ∧
      Told e.pauses (notes ++ (s.noted e number event).toList) (s.step e event) number := by
  -- Most events are not noted.
  have hunnoted : ∀ {s' : Supervision σ}, Told e.pauses notes s' number →
      Orderly e.pauses (notes ++ (none : Option (Nat × JobNote)).toList) ∧
        Told e.pauses (notes ++ (none : Option (Nat × JobNote)).toList) s' number := by
    intro s' h'
    rw [Option.toList_none, List.append_nil]
    exact ⟨horderly, h'⟩
  cases event with
  | pass milliseconds now =>
      rw [Supervision.step, noted]
      rcases Agenda.next?_cases hs.inTime (s.agenda.now + milliseconds) with
        ⟨hnext, hready, hlater⟩ | ⟨worker, agenda, hnext, htaken⟩
      · rw [hnext]
        refine hunnoted (h.congr (Nat.le_refl _) fun a ha => ⟨ha, fun _ => ?_⟩)
        simp [Agenda.turns, hready]
      · rw [hnext, Option.bind_some]
        cases worker with
        | supervisor =>
            have hplanned : Told e.pauses notes { s with agenda } number :=
              h.congr (Nat.le_refl _) fun a ha => ⟨ha, fun _ => hs.turns_of_ne htaken (by simp)⟩
            exact hunnoted (hplanned.supervisorTurn (hs.taken_supervisor htaken))
        | job n => exact Told.jobTurn (e := { e with now }) h horderly hs htaken
  | accounts accounts =>
      rw [Supervision.step, setAccounts]
      split
      · exact hunnoted (h.congr (Nat.le_refl _) fun a ha => ⟨ha, fun _ => Agenda.turns_wake_of_ne (by simp)⟩)
      · exact hunnoted h
  | online online => exact hunnoted (h.setOnline hs online)
  | close =>
      exact hunnoted (h.congr (Nat.le_refl _) fun a ha => ⟨ha, fun _ => Agenda.turns_wake_of_ne (by simp)⟩)
  | abort =>
      exact hunnoted (h.congr (Nat.le_refl _) fun a ha => ⟨ha, fun _ => Agenda.turns_wake_of_ne (by simp)⟩)

/-- By induction over the events, the notes stay orderly and tell the state of the job. -/
theorem Told.run (h : Told e.pauses notes s number) (horderly : Orderly e.pauses notes)
    (hs : s.Scheduled) (events : List Event) :
    Orderly e.pauses (notes ++ diary e number s events) ∧
      Told e.pauses (notes ++ diary e number s events) (s.run e events) number := by
  induction events generalizing notes s with
  | nil =>
      rw [diary, List.append_nil]
      exact ⟨horderly, h⟩
  | cons first rest ih =>
      obtain ⟨horderly', h'⟩ := h.step horderly hs first
      rw [diary, ← List.append_assoc]
      exact ih h' horderly' (hs.step e first)

/-- However connects turn out, and whatever happens to the accounts and the network: a job has its next
turn ahead, or waits for the network or the end of its connection, and nothing but the supervisor stops it.
Each connect that ends is followed by a pause, of the fixed time after a success, and of
`100 * (3 ^ min (k - 1) 6 - 1)` milliseconds after the `k`-th failure in a row; the next connect begins at
its end, neither sooner nor later, and a success sets the count of failures to zero. And every single
connection is made at a time when the network can be reached. -/
theorem job_backs_off (e : Surroundings σ) (accounts : List Account) (network : Connectivity)
    (visits : Visits) (state : σ) (events : List Event) (number : Nat) :
    let start := launched accounts network visits state
    let s := start.run e events
    let notes := diary e number start events
    (∀ a ∈ s.active,
      ((∃ time, s.agenda.now ≤ time ∧ s.agenda.turns (.job a.number) = [time]) ∨ a.Stays s.network) ∧
      ∀ event, a.number ∉ (s.step e event).numbers → ∃ milliseconds now agenda,
        event = .pass milliseconds now ∧
          s.agenda.next? (s.agenda.now + milliseconds) = some (.supervisor, agenda)) ∧
    (∀ before time result after, notes = before ++ (time, .ends result) :: after →
      let due := time + pauseAfter e.pauses (results before ++ [result])
      (∀ entry rest, after = entry :: rest → entry = (due, .begins)) ∧
      (after = [] → ∀ a ∈ s.active, a.number = number →
        s.agenda.now ≤ due ∧ s.agenda.turns (.job number) = [due])) ∧
    (∀ a ∈ s.active, a.number = number →
      a.job.failures.attempt = min (failuresInRow (results notes)) RetryDelay.maxAttempt) ∧
    ∀ event, (s.step e event).connects = s.connects ∨ ∃ latest, s.network.online = true ∧
      (s.step e event).connects = s.connects ++ [((s.step e event).agenda.now, latest)] := by
  intro start s notes
  have hs : s.Scheduled := scheduled_run e accounts network visits state events
  -- Two invariants of the run: the agenda is in step with the jobs, and the notes tell their state.
  obtain ⟨horderly, htold⟩ := (told_launched e.pauses accounts network visits state number).run .nil
    (scheduled_launched accounts network visits state) events
  rw [List.nil_append] at horderly htold
  refine ⟨?_, ?_, ?_, fun event => connects_step e s event⟩
  · intro a ha
    exact ⟨hs.goes_on ha, fun event => stopped_by_supervisor (List.mem_map_of_mem ha)⟩
  · intro before time result after hnotes due
    refine ⟨?_, ?_⟩
    · rintro entry rest rfl
      exact horderly.next_eq hnotes
    · rintro rfl a ha hnumber
      have hjob := hs.staffed.job?_eq_some_iff.2 ⟨ha, hnumber⟩
      have hpending : pending e.pauses notes = some due := by
        rw [hnotes]
        exact pending_ends
      have hturns := (htold.due a due hjob hpending).2
      exact ⟨hs.inTime.le_of_mem_turns (by rw [hturns]; exact List.mem_singleton_self _), hturns⟩
  · intro a ha hnumber
    exact htold.counts a (hs.staffed.job?_eq_some_iff.2 ⟨ha, hnumber⟩)

/-- The server rejects an account without a token twice: the second connect begins at once, the third one
after 200 milliseconds. -/
theorem job_backs_off_rejected :
    let e : Surroundings Unit := ⟨fun a _ => (.ok a, ()), false, .epoch, {}⟩
    let start := launched [⟨"a", "https://vault", none⟩] ⟨true, true⟩
      [("", [⟨[], 0, some (.error .unauthorized)⟩])] ()
    let rejected : JobNote := .ends (.error .unauthorized)
    diary e 0 start (List.replicate 10 (.pass 1000 .epoch)) =
        [(0, .begins), (0, rejected), (0, .begins)] ++ (0, rejected) :: [(200, .begins)] ∧
      200 = 0 + pauseAfter e.pauses [.error .unauthorized, .error .unauthorized] := by
  intro e start rejected
  have hdiary : diary e 0 start (List.replicate 10 (.pass 1000 .epoch)) =
      [(0, .begins), (0, rejected), (0, .begins)] ++ (0, rejected) :: [(200, .begins)] := by
    decide +kernel
  obtain ⟨-, hpauses, -⟩ := job_backs_off e [⟨"a", "https://vault", none⟩] ⟨true, true⟩
    [("", [⟨[], 0, some (.error .unauthorized)⟩])] () (List.replicate 10 (.pass 1000 .epoch)) 0
  have hnext := (hpauses _ 0 (.error .unauthorized) _ hdiary).1 (200, .begins) [] rfl
  exact ⟨hdiary, congrArg Prod.fst hnext⟩

example : (List.range 8).map (fun k => pauseAfter {} (List.replicate (k + 1) (.error .unauthorized))) =
    [0, 200, 800, 2600, 8000, 24200, 72800, 72800] := by
  decide

end Supervision
end PasswordVault
