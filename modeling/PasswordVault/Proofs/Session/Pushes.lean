import PasswordVault.Proofs.Json.Fields
import PasswordVault.Proofs.Session.Moves
import PasswordVault.Proofs.Session.Staff
import PasswordVault.Proofs.Session.Turns
import PasswordVault.Session.Polling

/-!
# Pushes — every notification queues a sync

A server tells of changes in its replies to a row of requests, and each notification is to queue a sync
of the account it is for.

- `Notification.run?_list_eq_some_iff`: the texts that are read as lists of notifications;
- `Poll.Continues`, `Poll.Ends`: what the replies of a server mean for a connection;
- `Poll.follow_eq`: a connection reports the notifications of all replies before the one that ends it;
- `Supervision.timed`: a run in which the wall clock shows anything at each step;
- `Supervision.arrivals`: the notifications that arrive in a run, with the accounts of their jobs;
- `Supervision.Owned`: the invariant. Whatever token a job has got, it is for its account;
- `Supervision.pushes_queue_syncs`: from the replies to the queued syncs.
-/

namespace PasswordVault

/-! ## Notifications -/

namespace Notification

/-- Whether a value tells a notification: an object or a short array that gives one type, an integer of 32 bits,
and at most one payload, which may be anything that can be read and is null if it is left out. Whatever else
an object has means nothing. -/
structure Told (depth : Nat) (j : Json) (n : Notification) : Prop where
  record : j.IsRecord 2
  kind : j.given ["type"] 0 = [.int n.kind]
  least : -0x80000000 ≤ n.kind
  greatest : n.kind ≤ 0x7fffffff
  payload : (j.given ["payload"] 1 = [] ∧ n.payload = .null) ∨
    ∃ v, j.given ["payload"] 1 = [v] ∧ v.canonicalWithin? depth = some n.payload

variable {depth : Nat} {j : Json} {n : Notification}

/-- The two fields of a notification are read on their own. -/
theorem told_iff_of_fields {kind payload : Json.Field} (hrecord : j.IsRecord 2)
    (hkind : kind.values = j.given ["type"] 0) (hpayload : payload.values = j.given ["payload"] 1) :
    Told depth j n ↔ kind.required .int32 depth = some n.kind ∧
      payload.withDefault .null .free depth = some n.payload := by
  rw [Json.Field.required_iff, Json.Field.withDefault_iff, hkind, hpayload]
  simp only [Json.Reader.int32, Json.Reader.integer_eq_some_iff]
  constructor
  · intro h
    exact ⟨⟨_, h.kind, rfl, h.least, h.greatest⟩, h.payload⟩
  · rintro ⟨⟨_, hgiven, rfl, hleast, hgreatest⟩, hrest⟩
    exact ⟨hrecord, hgiven, hleast, hgreatest, hrest⟩

theorem Told.exists_fields (h : Told depth j n) :
    ∃ found, Json.Reader.fields [["type"], ["payload"]] j = some found := by
  refine Json.Reader.exists_fields h.record ?_
  simp only [List.mapIdx_cons, List.mapIdx_nil, List.forall_mem_cons]
  refine ⟨by simp [h.kind], ?_, nofun⟩
  rcases h.payload with ⟨hnone, -⟩ | ⟨v, hone, -⟩
  · simp [hnone]
  · simp [hone]

theorem values_of_fields {found : List Json.Field}
    (h : Json.Reader.fields [["type"], ["payload"]] j = some found) :
    j.IsRecord 2 ∧ ∃ kind payload, found = [kind, payload] ∧ kind.values = j.given ["type"] 0 ∧
      payload.values = j.given ["payload"] 1 := by
  obtain ⟨hrecord, hvalues⟩ := Json.Reader.values_of_fields h
  have hlength := congrArg List.length hvalues
  rw [List.length_map, List.length_mapIdx] at hlength
  obtain ⟨kind, payload, rfl⟩ := List.length_eq_two.1 hlength
  simp only [List.map_cons, List.map_nil, List.mapIdx_cons, List.mapIdx_nil, List.cons.injEq] at hvalues
  exact ⟨hrecord, kind, payload, rfl, hvalues.1, hvalues.2.1⟩

/-- A notification is read from exactly the values that tell it. -/
theorem reader_eq_some_iff : reader depth j = some n ↔ 1 < depth ∧ Told (depth - 1) j n := by
  rw [reader, Json.Reader.record_eq_some_iff_exists]
  refine and_congr_right fun _ => ?_
  constructor
  · rintro ⟨found, hfound, hbuild⟩
    obtain ⟨hrecord, kind, payload, rfl, hkind, hpayload⟩ := values_of_fields hfound
    simp only [Option.bind_eq_bind, Option.pure_def, Option.bind_eq_some_iff, Option.some.injEq] at hbuild
    obtain ⟨kind', hkind', payload', hpayload', rfl⟩ := hbuild
    exact (told_iff_of_fields hrecord hkind hpayload).2 ⟨hkind', hpayload'⟩
  · intro h
    obtain ⟨found, hfound⟩ := h.exists_fields
    obtain ⟨hrecord, kind, payload, rfl, hkind, hpayload⟩ := values_of_fields hfound
    obtain ⟨hkind', hpayload'⟩ := (told_iff_of_fields hrecord hkind hpayload).1 h
    refine ⟨_, hfound, ?_⟩
    simp only [hkind', hpayload']
    rfl

/-- A text is read as a list of notifications if it is an array of values that tell them, in order. -/
theorem run?_list_eq_some_iff {text : String} {messages : List Notification} :
    (Json.Reader.list reader).run? text = some messages ↔
      ∃ items, Json.parse? text = some (.array items) ∧
        List.Forall₂ (Told (Json.nestingLimit - 2)) items messages := by
  -- An array and its items take a level each, so that what is left for a payload is two less.
  have hreads : ∀ v m, reader (Json.nestingLimit - 1) v = some m ↔ Told (Json.nestingLimit - 2) v m :=
    fun v m => reader_eq_some_iff.trans (and_iff_right (by decide))
  rw [Json.Reader.run?, Option.bind_eq_bind, Option.bind_eq_some_iff]
  simp only [Json.Reader.list_eq_some_iff, hreads]
  constructor
  · rintro ⟨_, htext, -, items, rfl, htold⟩
    exact ⟨items, htext, htold⟩
  · rintro ⟨items, htext, htold⟩
    exact ⟨_, htext, by decide, items, rfl, htold⟩

end Notification

/-! ## Replies -/

namespace Poll

/-- A reply after which a connection goes on, with its notifications: a list of them, or nothing in
time. -/
inductive Continues : Http.Reply → List Notification → Prop
  | pushed {body : String} {messages : List Notification}
      (readable : (Json.Reader.list Notification.reader).run? body = some messages) :
      Continues (.response 200 body) messages
  | timedOut {body : String} : Continues (.response 204 body) []
  | timedOutCut : Continues (.cut 204) []

/-- A reply that ends a connection, with the outcome. -/
inductive Ends : Http.Reply → Except SessionError Unit → Prop
  | gone {body : String} : Ends (.response 410 body) (.ok ())
  | rejected {body : String} : Ends (.response 401 body) (.error .unauthorized)
  | unreadable {body : String} (unreadable : (Json.Reader.list Notification.reader).run? body = none) :
      Ends (.response 200 body)
        (.error (.transport "Invalid notification: the body is no list of notifications"))
  | failed {status : Nat} {body : String} (other : status ∉ [200, 204, 401, 410]) :
      Ends (.response status body) (.error (.http status body))
  | goneCut : Ends (.cut 410) (.ok ())
  | rejectedCut : Ends (.cut 401) (.error .unauthorized)
  | unreadableCut : Ends (.cut 200) (.error (.transport "Invalid notification: the body breaks off"))
  | failedCut {status : Nat} (other : status ∉ [200, 204, 401, 410]) :
      Ends (.cut status) (.error (.http status "unknown"))
  | broken : Ends .broken (.error (.transport "the connection broke"))

/-- What a reply that ends a connection is read as. -/
def ending : Except SessionError Unit → Except SessionError (Option (List Notification))
  | .ok () => .ok none
  | .error e => .error e

/-- Every reply either lets a connection go on or ends it. -/
theorem read_cases (reply : Http.Reply) :
    (∃ messages, Continues reply messages ∧ read reply = .ok (some messages)) ∨
      ∃ outcome, Ends reply outcome ∧ read reply = ending outcome := by
  unfold read
  split
  · exact .inr ⟨_, .broken, rfl⟩
  · split
    next messages h => exact .inl ⟨messages, .pushed h, rfl⟩
    next h => exact .inr ⟨_, .unreadable h, rfl⟩
  · exact .inr ⟨_, .unreadableCut, rfl⟩
  · exact .inl ⟨[], .timedOut, rfl⟩
  · exact .inl ⟨[], .timedOutCut, rfl⟩
  · exact .inr ⟨_, .gone, rfl⟩
  · exact .inr ⟨_, .goneCut, rfl⟩
  · exact .inr ⟨_, .rejected, rfl⟩
  · exact .inr ⟨_, .rejectedCut, rfl⟩
  next status body h200 h204 h410 h401 =>
    refine .inr ⟨_, .failed ?_, rfl⟩
    simp_all
  next status h200 h204 h410 h401 =>
    refine .inr ⟨_, .failedCut ?_, rfl⟩
    simp_all

/-- A connection reports the notifications of all replies before the one that ends it, in order, and has
the outcome of that one. While all replies let it go on, it lasts. -/
theorem follow_eq (replies : List Http.Reply) :
    ∃ continuing pushed, List.Forall₂ Continues continuing pushed ∧
      ((replies = continuing ∧
          follow replies = { messages := pushed.flatten, requests := continuing.length }) ∨
        ∃ last later outcome, replies = continuing ++ last :: later ∧ Ends last outcome ∧
          follow replies = ⟨pushed.flatten, continuing.length + 1, some outcome⟩) := by
  induction replies with
  | nil => exact ⟨[], [], .nil, .inl ⟨rfl, rfl⟩⟩
  | cons reply rest ih =>
      rw [follow]
      rcases read_cases reply with ⟨messages, hreply, hread⟩ | ⟨outcome, hreply, hread⟩
      · rw [hread]
        obtain ⟨continuing, pushed, hpushed, hrest⟩ := ih
        refine ⟨reply :: continuing, messages :: pushed, .cons hreply hpushed, ?_⟩
        rcases hrest with ⟨rfl, hfollow⟩ | ⟨last, later, outcome, rfl, hlast, hfollow⟩
        · refine .inl ⟨rfl, ?_⟩
          simp only [hfollow]
          rfl
        · refine .inr ⟨last, later, outcome, rfl, hlast, ?_⟩
          simp only [hfollow]
          rfl
      · -- A reply that ends the connection hides all later ones.
        refine ⟨[], [], .nil, .inr ⟨reply, rest, outcome, rfl, hreply, ?_⟩⟩
        rw [hread]
        cases outcome with
        | ok done => rfl
        | error e => rfl

end Poll

/-! ## Accounts of a job -/

/-- The account that a job works with in a stage. -/
def JobStage.account? : JobStage → Option Account
  | .idle => none
  | .refreshing current _ => some current
  | .settling latest _ => some latest
  | .waiting latest _ _ => some latest
  | .connected latest _ _ => some latest
  | .pausing latest _ _ => some latest
  | .resting _ => none

/-- The account that a use of a token goes on with. -/
def TokenUse.account? {α : Type} : TokenUse α → Option Account
  | .refresh current _ => some current
  | .operate latest _ => some latest
  | .done _ => none

namespace Job

/-- Whether a job works with an account of its own, whatever the token. -/
def Owns (j : Job) : Prop := ∀ latest ∈ j.stage.account?, latest.id = j.account.id

theorem owns_follow {j : Job} {use : TokenUse Unit}
    (h : ∀ latest ∈ use.account?, latest.id = j.account.id) (pauses : JobPauses) :
    (j.follow pauses use).Owns := by
  cases use with
  | refresh current rejected => exact h
  | operate latest rejected =>
      rintro a ha
      rw [account_follow]
      rw [follow] at ha
      split at ha
      · exact h a ha
      · exact h a ha
  | done result =>
      cases result with
      | ok done => exact fun a ha => (Option.not_mem_none a ha).elim
      | error e => exact fun a ha => (Option.not_mem_none a ha).elim

theorem owns_begin (j : Job) (pauses : JobPauses) (now : Instant) : (j.begin pauses now).Owns := by
  refine owns_follow ?_ pauses
  rw [TokenUse.start]
  split
  · rintro _ ⟨⟩
    rfl
  · rintro _ ⟨⟩
    rfl

/-- A refresh that keeps the id leaves a job with its account. -/
theorem owns_refreshed {j : Job} {current : Account} {rejected : Bool}
    (hstage : j.stage = .refreshing current rejected) {outcome : Except SessionError Account}
    (h : ∀ latest, outcome = .ok latest → latest.id = j.account.id) (pauses : JobPauses) :
    (j.refreshed pauses outcome).Owns := by
  rw [refreshed, hstage]
  refine owns_follow ?_ pauses
  cases outcome with
  | ok latest =>
      rintro _ ⟨⟩
      exact h latest rfl
  | error e => exact fun a ha => (Option.not_mem_none a ha).elim

theorem Owns.reached {j : Job} (h : j.Owns) : j.reached.Owns := by
  unfold Job.reached
  split
  next hstage =>
    intro a ha
    exact h a (by rw [hstage]; exact ha)
  · exact h

/-- The account of a connection that has ended was that of the job. -/
theorem Owns.ended {j : Job} (h : j.Owns) (pauses : JobPauses) (outcome : Except SessionError Unit) :
    (j.ended pauses outcome).Owns := by
  unfold Job.ended
  split
  next latest rejected delay hstage =>
    have hlatest : latest.id = j.account.id := h latest (by rw [hstage]; rfl)
    split
    · refine owns_follow ?_ pauses
      unfold TokenUse.afterOperation
      split
      · split
        · rintro _ ⟨⟩
          exact hlatest
        · exact fun a ha => (Option.not_mem_none a ha).elim
      · exact fun a ha => (Option.not_mem_none a ha).elim
    · rintro _ ⟨⟩
      exact hlatest
  · exact h

theorem Owns.rested {j : Job} (h : j.Owns) : j.rested.Owns := by
  unfold Job.rested
  split
  next hstage =>
    intro a ha
    exact h a (by rw [hstage]; exact ha)
  next hstage =>
    intro a ha
    exact h a (by rw [hstage]; exact ha)
  · exact fun a ha => (Option.not_mem_none a ha).elim
  · exact h

end Job

/-! ## Accounts from refreshes -/

variable {σ : Type}

/-- Whether a refresher gives the account that it was asked to refresh, with another token at most. -/
def Refresher.KeepsIds (refresher : Refresher σ) : Prop :=
  ∀ current state refreshed, (refresher current state).1 = .ok refreshed → refreshed.id = current.id

/-- Whether every slot holds an account with the id of the slot. -/
def RefreshSlots.Keyed (slots : RefreshSlots) : Prop :=
  ∀ id kept, slots.get? id = some kept → kept.id = id

theorem RefreshSlots.Keyed.set {slots : RefreshSlots} (h : slots.Keyed) {id : String} {kept : Account}
    (hid : kept.id = id) : (slots.set id kept).Keyed := by
  intro id' kept' hkept
  rw [RefreshSlots.get?_set] at hkept
  split at hkept
  next heq =>
    cases hkept
    rw [hid, heq]
  next => exact h id' kept' hkept

/-- An account that a refresh gives, or that was taken from the slot, is the one that was refreshed. -/
theorem refreshOnce_id {refresher : Refresher σ} (hids : refresher.KeepsIds) (now : Instant)
    (current : Account) (state : σ) {slots : RefreshSlots} (h : slots.Keyed) :
    (∀ latest, (refreshOnce refresher now current (state, slots)).1 = .ok latest →
        latest.id = current.id) ∧
      (refreshOnce refresher now current (state, slots)).2.2.Keyed := by
  rw [refreshOnce]
  cases hreuse : slots.reusable? current now with
  | some kept =>
      refine ⟨?_, h⟩
      rintro _ ⟨⟩
      exact h _ _ (RefreshSlots.reusable?_eq_some_iff.1 hreuse).1
  | none =>
      have hid := hids current state
      rcases houtcome : refresher current state with ⟨outcome, state'⟩
      rw [houtcome] at hid
      cases outcome with
      | error e =>
          refine ⟨?_, h⟩
          rintro latest ⟨⟩
      | ok refreshed =>
          refine ⟨?_, h.set (hid refreshed rfl)⟩
          rintro _ ⟨⟩
          exact hid refreshed rfl

namespace Supervision

/-! ## Runs -/

/-- Whatever token a job has got, and whatever token is kept for one, is for the account it should be
for. -/
structure Owned (s : Supervision σ) : Prop where
  jobs : ∀ a ∈ s.active, a.job.Owns
  slots : s.slots.Keyed

/-- The notifications that arrive in the turn of a job, with the account of the job. -/
def arrivingAt (s : Supervision σ) (a : ActiveJob) : List (Account × Notification) :=
  match a.connects? with
  | some latest =>
    if s.network.online then
      (s.visits.take (latest.accessToken?.getD "")).1.messages.map (a.job.account, ·)
    else []
  | none => []

/-- The notifications that arrive when something happens. -/
def arriving (s : Supervision σ) : Happening → List (Account × Notification)
  | .turn (.job number) _ =>
    match s.active.find? fun a => a.number = number with
    | some a => s.arrivingAt a
    | none => []
  | _ => []

/-- A supervision after some things have happened, each at a time of the wall clock. -/
def timed (e : Surroundings σ) (s : Supervision σ) (history : List (Instant × Happening)) :
    Supervision σ :=
  history.foldl (fun s moment => s.after { e with now := moment.1 } moment.2) s

/-- The notifications that arrive while some things happen, each at a time of the wall clock. -/
def arrivals (e : Surroundings σ) :
    Supervision σ → List (Instant × Happening) → List (Account × Notification)
  | _, [] => []
  | s, (now, happening) :: rest =>
    s.arriving happening ++ arrivals e (s.after { e with now } happening) rest

variable {e : Surroundings σ} {s s' : Supervision σ} {a a' : ActiveJob}

theorem mem_setJob {b : ActiveJob} (h : b ∈ (s.setJob a).active) : b = a ∨ b ∈ s.active := by
  obtain ⟨c, hc, rfl⟩ := List.mem_map.1 h
  split
  · exact .inl rfl
  · exact .inr hc

theorem owned_launched (accounts : List Account) (network : Connectivity) (visits : Visits) (state : σ) :
    (launched accounts network visits state).Owned :=
  ⟨fun _ ha => (List.not_mem_nil ha).elim, fun _ _ hkept => by cases hkept⟩

/-- A job that moves gets no token but for its account. -/
theorem Owned.becomes (hs : s.Owned) (hids : e.refresher.KeepsIds) (ha : a ∈ s.active)
    (h : a.Becomes e s a') : a'.job.Owns := by
  have howns := hs.jobs a ha
  cases h with
  | begun => exact Job.owns_begin _ _ _
  | @refreshed current _ stage =>
      refine Job.owns_refreshed stage ?_ _
      have hcurrent : current.id = a.job.account.id := howns current (by rw [stage]; rfl)
      intro latest hlatest
      rw [(refreshOnce_id hids e.now current s.state hs.slots).1 latest hlatest, hcurrent]
  | reached => exact howns.reached
  | ended => exact howns.ended _ _
  | rested => exact howns.rested

/-- The move of one job leaves every job with its own account. -/
theorem Owned.moved (hs : s.Owned) (hids : e.refresher.KeepsIds) (ha : a ∈ s.active)
    (h : s.Moved e a a' s') : s'.Owned := by
  refine ⟨?_, ?_⟩
  · intro b hb
    rw [h.active] at hb
    rcases mem_setJob hb with rfl | hb
    · exact hs.becomes hids ha h.becomes
    · exact hs.jobs b hb
  · rcases h.slots with hslots | ⟨current, rejected, _, hslots⟩
    · rw [hslots]
      exact hs.slots
    · rw [hslots]
      exact (refreshOnce_id hids e.now current s.state hs.slots).2

/-- A job that moves queues a sync of its account for every notification that arrives. -/
theorem Owned.synced_moved (hs : s.Owned) (ha : a ∈ s.active) (h : s.Moved e a a' s') :
    s'.synced = s.synced ++ (s.arrivingAt a).map fun arrival => arrival.1.id := by
  rw [h.synced, List.append_cancel_left_eq, arrivingAt]
  rcases h.becomes.connects?_cases with hnone | ⟨latest, hlatest, honline, hvisit⟩
  · rw [hnone]
    rfl
  · -- Syncs are queued for the account with the token of the connection, which is that of the job.
    obtain ⟨rejected, delay, hstage⟩ := ActiveJob.connects?_eq_some_iff.1 hlatest
    have hid : latest.id = a.job.account.id := hs.jobs a ha latest (by rw [hstage]; rfl)
    simp [hlatest, honline, hvisit, hid, Function.comp_def]

theorem arrivingAt_of_stays (h : a.Stays s.network) : s.arrivingAt a = [] := by
  rw [arrivingAt]
  rcases h.connects?_cases with hnone | hoffline
  · rw [hnone]
  · rw [hoffline]
    cases a.connects? <;> rfl

/-- The turn of a job queues a sync of its account for every notification that arrives. -/
theorem Owned.jobTurn (hs : s.Owned) (hids : e.refresher.KeepsIds) (number : Nat) :
    (s.jobTurn e number).Owned ∧ (s.jobTurn e number).synced = s.synced ++
      (s.arriving (.turn (.job number) {})).map fun arrival => arrival.1.id := by
  rw [arriving]
  rcases jobTurn_cases e s number with ⟨heq, hstays⟩ | ⟨a, a', hfind, hmoved⟩
  · rw [heq]
    refine ⟨hs, ?_⟩
    cases hfind : s.active.find? (fun a => a.number = number) with
    | none => simp
    | some a => simp [arrivingAt_of_stays (hstays a hfind)]
  · have ha : a ∈ s.active := List.mem_of_find?_eq_some hfind
    simp only [hfind]
    exact ⟨hs.moved hids ha hmoved, hs.synced_moved ha hmoved⟩

theorem Owned.look (hs : s.Owned) : s.look.Owned := by
  refine ⟨?_, hs.slots⟩
  intro a ha
  rw [active_look] at ha
  rcases List.mem_append.1 ha with ha | ha
  · exact hs.jobs a (List.mem_filter.1 ha).1
  · obtain ⟨j, _, rfl⟩ := List.mem_map.1 ha
    exact fun latest hlatest => (Option.not_mem_none latest hlatest).elim

theorem Owned.finish (hs : s.Owned) : s.finish.Owned :=
  ⟨fun a ha => hs.jobs a (List.mem_filter.1 ha).1, hs.slots⟩

/-- The turn of the supervisor queues no sync of a single account. -/
theorem Owned.supervisorTurn (hs : s.Owned) :
    s.supervisorTurn.Owned ∧ s.supervisorTurn.synced = s.synced :=
  supervisorTurn_induction (P := fun t => t.Owned ∧ t.synced = s.synced) ⟨hs, rfl⟩
    ⟨⟨hs.jobs, hs.slots⟩, rfl⟩ (fun _ ht => ⟨ht.1.look, ht.2⟩) fun _ ht => ⟨ht.1.finish, ht.2⟩

/-- Whatever happens, a sync is queued for every notification that arrives, and no other one. -/
theorem Owned.after (hs : s.Owned) (hids : e.refresher.KeepsIds) (happening : Happening) :
    (s.after e happening).Owned ∧ (s.after e happening).synced =
      s.synced ++ (s.arriving happening).map fun arrival => arrival.1.id := by
  cases happening with
  | turn worker agenda =>
      have hplanned : Owned { s with agenda } := ⟨hs.jobs, hs.slots⟩
      cases worker with
      | supervisor =>
          have hturn := hplanned.supervisorTurn
          exact ⟨hturn.1, hturn.2.trans (List.append_nil _).symm⟩
      | job number => exact hplanned.jobTurn hids number
  | accounts accounts =>
      simp only [Supervision.after, setAccounts]
      split
      · exact ⟨⟨hs.jobs, hs.slots⟩, (List.append_nil _).symm⟩
      · exact ⟨hs, (List.append_nil _).symm⟩
  | online online => exact ⟨⟨hs.jobs, hs.slots⟩, (List.append_nil _).symm⟩
  | close => exact ⟨⟨hs.jobs, hs.slots⟩, (List.append_nil _).symm⟩
  | abort => exact ⟨⟨hs.jobs, hs.slots⟩, (List.append_nil _).symm⟩

/-- By induction over what happens, one sync is queued for each notification. -/
theorem Owned.timed (hs : s.Owned) (hids : e.refresher.KeepsIds)
    (history : List (Instant × Happening)) :
    (s.timed e history).synced =
      s.synced ++ (arrivals e s history).map fun arrival => arrival.1.id := by
  induction history generalizing s with
  | nil => exact (List.append_nil _).symm
  | cons first rest ih =>
      obtain ⟨now, happening⟩ := first
      obtain ⟨howned, hsynced⟩ := hs.after (e := { e with now }) hids happening
      rw [arrivals, List.map_append, ← List.append_assoc, ← hsynced]
      exact ih howned

/-- From the replies of a server to the queued syncs. With a token that can be sent, a connection reports
the notifications of all replies before the one that ends it, in order, and none of that one, and has the
outcome of that one; a token that cannot be sent brings none. And whatever happens to a supervisor whose
refresher keeps the ids of accounts, in whatever order and at whatever times, it queues exactly one sync for
each notification that arrives, of the account of the job that gets it, and no other. -/
theorem pushes_queue_syncs (hids : e.refresher.KeepsIds) (accounts : List Account)
    (network : Connectivity) (visits : Visits) (state : σ) (history : List (Instant × Happening)) :
    (∀ (a : Account) (accessToken : String) (replies : List Http.Reply),
      a.accessToken? = some accessToken →
      (Http.isHeaderText accessToken = true → ∃ continuing pushed,
        List.Forall₂ Poll.Continues continuing pushed ∧
        ((replies = continuing ∧ Poll.connect a replies =
            { messages := pushed.flatten, requests := continuing.length }) ∨
          ∃ last later outcome, replies = continuing ++ last :: later ∧ Poll.Ends last outcome ∧
            Poll.connect a replies = ⟨pushed.flatten, continuing.length + 1, some outcome⟩)) ∧
      (Http.isHeaderText accessToken = false → ∃ reason,
        Poll.connect a replies = ⟨[], 0, some (.error (.transport reason))⟩)) ∧
    ((launched accounts network visits state).timed e history).synced =
      (arrivals e (launched accounts network visits state) history).map
        fun arrival => arrival.1.id := by
  refine ⟨?_, (owned_launched accounts network visits state).timed hids history⟩
  intro a accessToken replies htoken
  refine ⟨?_, ?_⟩
  · intro hsent
    rw [Poll.connect, htoken]
    simp only [hsent, if_true]
    exact Poll.follow_eq replies
  · intro hunsent
    rw [Poll.connect, htoken]
    simp only [hunsent]
    exact ⟨_, rfl⟩

def signedIn : Account := ⟨"a", "https://vault", some ⟨"T", "R", .epoch⟩⟩

/-- What a server tells on a connection: two changes, nothing in time, and that the session is over. -/
def told : Poll.Followed :=
  Poll.connect signedIn [.response 200 "[\x7b\"type\":0\x7d,\x7b\"type\":5\x7d]", .response 204 "",
    .response 410 "", .response 200 "[\x7b\"type\":1\x7d]"]

/-- Two changes are told before a session is over, and two syncs are queued for the account. -/
theorem pushes_queue_syncs_told :
    let e : Surroundings Unit := ⟨fun a _ => (.ok a, ()), false, .epoch, {}⟩
    let visits : Visits := [("T", [⟨told.messages, 0, told.outcome⟩])]
    let history : List (Instant × Happening) :=
      (.epoch, .turn .supervisor {}) :: List.replicate 5 (.epoch, .turn (.job 0) {})
    e.refresher.KeepsIds ∧ (told.requests = 3 ∧ told.outcome = some (.ok ())) ∧
      told.messages = [⟨0, .null⟩, ⟨5, .null⟩] ∧
      (timed e (launched [signedIn] ⟨true, true⟩ visits ()) history).synced = ["a", "a"] := by
  intro e visits history
  have hids : e.refresher.KeepsIds := by
    rintro current state _ ⟨⟩
    rfl
  refine ⟨hids, by decide +kernel, by decide +kernel, ?_⟩
  rw [(pushes_queue_syncs hids [signedIn] ⟨true, true⟩ visits () history).2]
  decide +kernel

end Supervision
end PasswordVault
