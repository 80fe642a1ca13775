import PasswordVault.Proofs.Session.Planning
import PasswordVault.Session.Supervision

/-!
# Turns

What a worker does in its turn, said once for all that is proved about runs.

- `ActiveJob.Becomes`: how a job moves from stage to stage;
- `ActiveJob.wait?`: how long it waits then, until it goes on of itself;
- `Supervision.Moved`: what a move of a job does to the supervision;
- `Supervision.jobTurn_cases`: in its turn a job moves, or has to wait for something else;
- `Supervision.supervisorTurn_induction`: what the steps of the supervisor keep, its turn keeps.
-/

namespace PasswordVault

/-! ## Jobs -/

namespace Job

/-- A use of a token asks for a refresh, a pause or the network, or is done; it makes no connection. -/
theorem isConnected_follow (j : Job) (pauses : JobPauses) (use : TokenUse Unit) :
    (j.follow pauses use).isConnected = false := by
  cases use with
  | refresh current rejected => rfl
  | operate latest rejected =>
      by_cases hlatest : latest = j.account
      · simp [follow, isConnected, hlatest]
      · simp [follow, isConnected, hlatest]
  | done result => cases result <;> rfl

theorem isConnected_refreshed {j : Job} {current : Account} {rejected : Bool}
    (h : j.stage = .refreshing current rejected) (pauses : JobPauses)
    (outcome : Except SessionError Account) : (j.refreshed pauses outcome).isConnected = false := by
  rw [refreshed, h]
  exact j.isConnected_follow _ _

theorem isConnected_ended {j : Job} {latest : Account} {rejected : Bool} {delay : RetryDelay}
    (h : j.stage = .connected latest rejected delay) (pauses : JobPauses)
    (outcome : Except SessionError Unit) : (j.ended pauses outcome).isConnected = false := by
  rw [ended, h]
  simp only
  split
  · exact j.isConnected_follow _ _
  · rfl

theorem isConnected_rested {j : Job} {pauses : JobPauses} {time : Nat} (h : j.pause? pauses = some time) :
    j.rested.isConnected = false := by
  cases hstage : j.stage with
  | settling => simp [rested, hstage, isConnected]
  | pausing => simp [rested, hstage, isConnected]
  | resting => simp [rested, hstage, isConnected]
  | idle | refreshing | waiting | connected => simp [pause?, hstage] at h

end Job

namespace ActiveJob

variable {σ : Type}

/-- How long a job waits until it goes on of itself: on a connection until that ends, if it ever does,
else for its pause. -/
def wait? (a : ActiveJob) (pauses : JobPauses) : Option Nat :=
  if a.job.isConnected then a.visit.outcome.map fun _ => a.visit.after
  else some ((a.job.pause? pauses).getD 0)

/-- The account that a job connects next. -/
def connects? (a : ActiveJob) : Option Account :=
  match a.job.stage with
  | .waiting latest _ _ => some latest
  | _ => none

/-- A job that does not go on of itself: it waits for the network, or is on a connection without end. -/
inductive Stays (network : Connectivity) (a : ActiveJob) : Prop where
  | offline {latest : Account} {rejected : Bool} {delay : RetryDelay}
      (stage : a.job.stage = .waiting latest rejected delay) (offline : network.online = false)
  | unending {latest : Account} {rejected : Bool} {delay : RetryDelay}
      (stage : a.job.stage = .connected latest rejected delay) (unending : a.visit.outcome = none)

/-- How a job moves. -/
inductive Becomes (e : Surroundings σ) (s : Supervision σ) (a : ActiveJob) : ActiveJob → Prop
  | begun (stage : a.job.stage = .idle) : Becomes e s a { a with job := a.job.begin e.pauses e.now }
  | refreshed {current : Account} {rejected : Bool} (stage : a.job.stage = .refreshing current rejected) :
      Becomes e s a { a with
        job := a.job.refreshed e.pauses (refreshOnce e.refresher e.now current (s.state, s.slots)).1 }
  | reached {latest : Account} {rejected : Bool} {delay : RetryDelay}
      (stage : a.job.stage = .waiting latest rejected delay) (online : s.network.online = true) :
      Becomes e s a { a with
        job := a.job.reached, visit := (s.visits.take (latest.accessToken?.getD "")).1 }
  | ended {latest : Account} {rejected : Bool} {delay : RetryDelay} {outcome : Except SessionError Unit}
      (stage : a.job.stage = .connected latest rejected delay) (ends : a.visit.outcome = some outcome) :
      Becomes e s a { a with job := a.job.ended e.pauses outcome }
  | rested {time : Nat} (pauses : a.job.pause? e.pauses = some time) :
      Becomes e s a { a with job := a.job.rested }

variable {e : Surroundings σ} {s : Supervision σ} {a a' : ActiveJob}

theorem connects?_eq_some_iff {latest : Account} :
    a.connects? = some latest ↔ ∃ rejected delay, a.job.stage = .waiting latest rejected delay := by
  unfold connects?
  split
  next rejected delay stage => simp [stage]
  next hother => simp_all

/-- A job that moves makes a connection only if the network can be reached. -/
theorem Becomes.connects?_cases (h : a.Becomes e s a') :
    a.connects? = none ∨ ∃ latest, a.connects? = some latest ∧ s.network.online = true ∧
      a'.visit = (s.visits.take (latest.accessToken?.getD "")).1 := by
  cases h with
  | begun stage => exact .inl (by rw [connects?, stage])
  | refreshed stage => exact .inl (by rw [connects?, stage])
  | @reached latest _ _ stage online => exact .inr ⟨latest, by rw [connects?, stage], online, rfl⟩
  | ended stage _ => exact .inl (by rw [connects?, stage])
  | rested pauses =>
      cases hstage : a.job.stage with
      | settling | pausing | resting => exact .inl (by rw [connects?, hstage])
      | idle | refreshing | waiting | connected => simp [Job.pause?, hstage] at pauses

/-- A job that has to wait for something else makes no connection. -/
theorem Stays.connects?_cases {network : Connectivity} (h : a.Stays network) :
    a.connects? = none ∨ network.online = false := by
  cases h with
  | offline stage offline => exact .inr offline
  | unending stage unending => exact .inl (by rw [connects?, stage])

theorem number_of_becomes (h : a.Becomes e s a') : a'.number = a.number := by
  cases h <;> rfl

theorem wait?_of_isWaiting (h : a.job.isWaiting = true) (pauses : JobPauses) :
    a.wait? pauses = some 0 := by
  cases hstage : a.job.stage with
  | waiting => simp [wait?, Job.isConnected, Job.pause?, hstage]
  | idle | refreshing | settling | connected | pausing | resting => simp [Job.isWaiting, hstage] at h

/-- A job that does not go on of itself is on a connection without end. -/
theorem stays_of_wait?_eq_none {pauses : JobPauses} (h : a.wait? pauses = none)
    (network : Connectivity) : a.Stays network := by
  rw [wait?] at h
  split at h
  next hconnected =>
    cases hstage : a.job.stage with
    | connected => exact .unending hstage (Option.map_eq_none_iff.1 h)
    | idle | refreshing | settling | waiting | pausing | resting =>
        simp [Job.isConnected, hstage] at hconnected
  next => cases h

end ActiveJob

namespace Supervision

variable {σ : Type} {e : Surroundings σ} {s s' : Supervision σ} {a a' : ActiveJob}

/-- A job that goes on is planned for after its pause. -/
theorem goOn_eq (e : Surroundings σ) (a : ActiveJob) (s : Supervision σ) :
    s.goOn e a =
      { s.setJob a with
        agenda := s.agenda.plan (.job a.number) (some ((a.job.pause? e.pauses).getD 0)) } := by
  unfold goOn
  cases a.job.pause? e.pauses with
  | none => rfl
  | some time =>
      cases time with
      | zero => rfl
      | succ time => rfl

/-- What a move of a job does. -/
structure Moved (e : Surroundings σ) (s : Supervision σ) (a a' : ActiveJob) (s' : Supervision σ) :
    Prop where
  becomes : a.Becomes e s a'
  active : s'.active = (s.setJob a').active
  roster : s'.roster = s.roster
  network : s'.network = s.network
  agenda : ∃ agenda, (agenda = s.agenda ∨ agenda = s.agenda.wake .supervisor) ∧
    s'.agenda = agenda.plan (.job a.number) (a'.wait? e.pauses)
  connects : s'.connects = s.connects ++ a.connects?.toList.map (s.agenda.now, ·)
  synced : s'.synced =
    s.synced ++ a.connects?.toList.flatMap fun latest => a'.visit.messages.map fun _ => latest.id
  slots : s'.slots = s.slots ∨ ∃ current rejected, a.job.stage = .refreshing current rejected ∧
    s'.slots = (refreshOnce e.refresher e.now current (s.state, s.slots)).2.2

/-- What may have changed before a job that makes no connection goes on. -/
structure Readied (e : Surroundings σ) (s : Supervision σ) (a : ActiveJob) (t : Supervision σ) : Prop where
  active : t.active = s.active
  roster : t.roster = s.roster
  network : t.network = s.network
  agenda : t.agenda = s.agenda ∨ t.agenda = s.agenda.wake .supervisor
  connects : t.connects = s.connects
  synced : t.synced = s.synced
  slots : t.slots = s.slots ∨ ∃ current rejected, a.job.stage = .refreshing current rejected ∧
    t.slots = (refreshOnce e.refresher e.now current (s.state, s.slots)).2.2

theorem Readied.refl (e : Surroundings σ) (s : Supervision σ) (a : ActiveJob) : s.Readied e a s :=
  ⟨rfl, rfl, rfl, .inl rfl, rfl, rfl, .inl rfl⟩

theorem Readied.goOn {t : Supervision σ} (h : s.Readied e a t) (becomes : a.Becomes e s a')
    (hnumber : a'.number = a.number) (hconnected : a'.job.isConnected = false)
    (hconnects : a.connects? = none) : s.Moved e a a' (t.goOn e a') := by
  rw [goOn_eq]
  refine ⟨becomes, ?_, h.roster, h.network, ⟨t.agenda, h.agenda, ?_⟩, ?_, ?_, h.slots⟩
  · simp only [setJob, h.active]
  · rw [ActiveJob.wait?, hconnected, if_neg Bool.false_ne_true, hnumber]
  · rw [hconnects, Option.toList_none, List.map_nil, List.append_nil]
    exact h.connects
  · rw [hconnects, Option.toList_none, List.flatMap_nil, List.append_nil]
    exact h.synced

/-- A refresh moves the one job and may publish its account. -/
theorem moved_refresh {current : Account} {rejected : Bool}
    (hstage : a.job.stage = .refreshing current rejected) :
    s.Moved e a { a with
        job := a.job.refreshed e.pauses (refreshOnce e.refresher e.now current (s.state, s.slots)).1 }
      (s.refresh e a current) := by
  have hbecomes := ActiveJob.Becomes.refreshed (e := e) (s := s) hstage
  have hconnects : a.connects? = none := by
    rw [ActiveJob.connects?, hstage]
  rw [refresh]
  generalize hrefresh : refreshOnce e.refresher e.now current (s.state, s.slots) = result at hbecomes ⊢
  obtain ⟨outcome, state, slots⟩ := result
  have hslots : ∃ current rejected, a.job.stage = .refreshing current rejected ∧
      slots = (refreshOnce e.refresher e.now current (s.state, s.slots)).2.2 :=
    ⟨current, rejected, hstage, congrArg (·.2.2) hrefresh.symm⟩
  refine Readied.goOn ?_ hbecomes rfl (Job.isConnected_refreshed hstage _ _) hconnects
  -- A new account is published, if at all, before the job goes on.
  cases outcome with
  | error err => exact ⟨rfl, rfl, rfl, .inl rfl, rfl, rfl, .inr hslots⟩
  | ok refreshed =>
      simp only
      split
      · exact ⟨rfl, rfl, rfl, .inr rfl, rfl, rfl, .inr hslots⟩
      · exact ⟨rfl, rfl, rfl, .inl rfl, rfl, rfl, .inr hslots⟩

/-- A job that connects is on its connection, for as long as that takes. -/
theorem connect_eq {latest : Account} {rejected : Bool} {delay : RetryDelay}
    (hstage : a.job.stage = .waiting latest rejected delay) :
    let visit := (s.visits.take (latest.accessToken?.getD "")).1
    let a' : ActiveJob := { a with job := a.job.reached, visit }
    s.connect e a latest =
      { s.setJob a' with
        visits := (s.visits.take (latest.accessToken?.getD "")).2
        connects := s.connects ++ [(s.agenda.now, latest)]
        synced := s.synced ++ visit.messages.map fun _ => latest.id
        agenda := s.agenda.plan (.job a.number) (a'.wait? e.pauses) } := by
  intro visit a'
  have hreached : a'.job.stage = .connected latest rejected delay := by
    simp only [a', Job.reached, hstage]
  have hwait : a'.wait? e.pauses = visit.outcome.map fun _ => visit.after := by
    rw [ActiveJob.wait?, Job.isConnected, hreached, if_pos rfl]
  have hpause : a'.job.pause? e.pauses = none := by
    rw [Job.pause?, hreached]
  have hgoOn := fun t : Supervision σ => t.goOn_eq e a'
  simp only [hpause, Option.getD_none] at hgoOn
  rw [hwait, connect]
  -- A visit that never ends plans nothing, one that ends at once goes on at once.
  cases houtcome : visit.outcome with
  | none =>
      simp only [visit] at houtcome
      simp only [houtcome]
      rfl
  | some outcome =>
      simp only [visit] at houtcome
      cases hafter : visit.after with
      | zero =>
          simp only [visit] at hafter
          simp only [houtcome, hafter, hgoOn, a', visit]
          rfl
      | succ time =>
          simp only [visit] at hafter
          simp only [houtcome, hafter]
          rfl

/-- A connect moves the one job and uses up one visit. -/
theorem moved_connect {latest : Account} {rejected : Bool} {delay : RetryDelay}
    (hstage : a.job.stage = .waiting latest rejected delay) (honline : s.network.online = true) :
    s.Moved e a { a with
        job := a.job.reached, visit := (s.visits.take (latest.accessToken?.getD "")).1 }
      (s.connect e a latest) := by
  have hconnects : a.connects? = some latest := by
    rw [ActiveJob.connects?, hstage]
  rw [connect_eq hstage]
  refine ⟨.reached hstage honline, rfl, rfl, rfl, ⟨s.agenda, .inl rfl, rfl⟩, ?_, ?_, .inl rfl⟩
  · rw [hconnects]
    rfl
  · rw [hconnects]
    simp

/-- In its turn a job moves, or has to wait for something else. -/
theorem jobTurn_cases (e : Surroundings σ) (s : Supervision σ) (number : Nat) :
    (s.jobTurn e number = s ∧
      ∀ a, s.active.find? (fun a => a.number = number) = some a → a.Stays s.network) ∨
    ∃ a a', s.active.find? (fun a => a.number = number) = some a ∧ s.Moved e a a' (s.jobTurn e number) := by
  rw [jobTurn]
  cases hfind : s.active.find? (fun a => a.number = number) with
  | none => exact .inl ⟨rfl, fun a h => (by cases h)⟩
  | some a =>
      -- The stages that pause end in the same way.
      have hrests : ∀ {time}, a.job.pause? e.pauses = some time → a.connects? = none →
          s.Moved e a { a with job := a.job.rested } (s.goOn e { a with job := a.job.rested }) := by
        intro time hpause hconnects
        exact (Readied.refl e s a).goOn (.rested hpause) rfl (Job.isConnected_rested hpause) hconnects
      dsimp only
      cases hstage : a.job.stage with
      | idle =>
          have hmoved := (Readied.refl e s a).goOn (.begun hstage) rfl (a.job.isConnected_follow _ _)
            (by rw [ActiveJob.connects?, hstage])
          exact .inr ⟨a, _, rfl, hmoved⟩
      | refreshing current rejected =>
          exact .inr ⟨a, _, rfl, moved_refresh hstage⟩
      | waiting latest rejected delay =>
          by_cases honline : s.network.online = true
          · simp only [honline, if_true]
            exact .inr ⟨a, _, rfl, moved_connect hstage honline⟩
          · simp only [honline]
            refine .inl ⟨rfl, ?_⟩
            rintro b ⟨⟩
            exact .offline hstage (eq_false_of_ne_true honline)
      | connected latest rejected delay =>
          cases houtcome : a.visit.outcome with
          | none =>
              refine .inl ⟨rfl, ?_⟩
              rintro b ⟨⟩
              exact .unending hstage houtcome
          | some outcome =>
              have hreadied : s.Readied e a { s with closed := s.closed + 1 } :=
                ⟨rfl, rfl, rfl, .inl rfl, rfl, rfl, .inl rfl⟩
              have hmoved := hreadied.goOn (.ended hstage houtcome) rfl
                (Job.isConnected_ended hstage _ _) (by rw [ActiveJob.connects?, hstage])
              exact .inr ⟨a, _, rfl, hmoved⟩
      | settling latest rejected =>
          exact .inr ⟨a, _, rfl, hrests (by rw [Job.pause?, hstage]) (by rw [ActiveJob.connects?, hstage])⟩
      | pausing latest rejected delay =>
          exact .inr ⟨a, _, rfl, hrests (by rw [Job.pause?, hstage]) (by rw [ActiveJob.connects?, hstage])⟩
      | resting time =>
          exact .inr ⟨a, _, rfl, hrests (by rw [Job.pause?, hstage]) (by rw [ActiveJob.connects?, hstage])⟩

/-! ## The supervisor -/

/-- What holds whenever the supervisor begins, looks at the list or finishes, holds after its turn. -/
theorem supervisorTurn_induction {P : Supervision σ → Prop} (start : P s)
    (begin : P { s with begun := true, syncedAll := s.syncedAll + 1 })
    (look : ∀ t, P t → P t.look) (finish : ∀ t, P t → P t.finish) : P s.supervisorTurn := by
  have hlooked : ∀ t, P t → P (if t.changed then t.look else t) := by
    intro t ht
    split
    · exact look t ht
    · exact ht
  have hended : ∀ t, P t → P (if t.listed then t else t.finish) := by
    intro t ht
    split
    · exact ht
    · exact finish t ht
  have hbegun : P (if s.begun then s else { s with begun := true, syncedAll := s.syncedAll + 1 }) := by
    split
    · exact start
    · exact begin
  unfold supervisorTurn
  split
  · exact start
  · split
    · exact finish s start
    · exact hended _ (hlooked _ hbegun)

end Supervision
end PasswordVault
