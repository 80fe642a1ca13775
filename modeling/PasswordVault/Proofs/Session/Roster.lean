import Mathlib.Data.List.Nodup
import PasswordVault.Proofs.Store.Latest
import PasswordVault.Session.Roster

/-!
# Roster — one job for each listed account

A list of accounts is enrolled account by account. What is known of the accounts enrolled so far
(`Roster.Enrolled`) is preserved by one more account, and holds of the whole list in the end.

* `Roster.Sound`: no two jobs share an account id or a number, and numbers are below the count of jobs.
* `Roster.Enrolled.reconcile`: the jobs are one for each id, for the last account that is listed with it.
* `Roster.Carried.reconcile`: if no id is listed twice, the jobs that go on are those whose account is
  listed unchanged, and every other account gets one new job, numbered in the order of the list.
-/

namespace PasswordVault
namespace Roster

/-! ## One account -/

theorem mem_without {id : String} {jobs : List RunningJob} {j : RunningJob} :
    j ∈ without id jobs ↔ j ∈ jobs ∧ j.account.id ≠ id := by
  simp [without]

theorem mem_of_find? {id : String} {jobs : List RunningJob} {j : RunningJob}
    (h : find? id jobs = some j) : j ∈ jobs ∧ j.account.id = id :=
  ⟨List.mem_of_find?_eq_some h, by simpa using List.find?_some h⟩

theorem find?_without_of_ne {id id' : String} (hne : id' ≠ id) (jobs : List RunningJob) :
    find? id' (without id jobs) = find? id' jobs := by
  rw [find?, without, List.find?_filter]
  refine List.find?_congr ?_
  intro j _
  by_cases hj : j.account.id = id' <;> simp [hj, hne]

/-- Where no two jobs share an id, the job of an account is found by its id. -/
theorem find?_of_mem {jobs : List RunningJob} (hids : (jobs.map fun j => j.account.id).Nodup)
    {j : RunningJob} (hj : j ∈ jobs) : find? j.account.id jobs = some j := by
  cases hfind : find? j.account.id jobs with
  | none => exact absurd (List.find?_eq_none.1 hfind j hj) (by simp)
  | some found =>
      obtain ⟨hmem, hid⟩ := mem_of_find? hfind
      rw [List.inj_on_of_nodup_map hids hmem hj hid]

/-- All that enrolling an account can do: its job comes last, and is the one that it had if that was for the
same account, else a new one. -/
theorem enroll_cases (st : List RunningJob × Roster) (a : Account) :
    (∃ j, find? a.id st.1 = some j ∧ j.account = a ∧
      enroll st a = (without a.id st.1, ⟨without a.id st.2.jobs ++ [j], st.2.started⟩)) ∨
    ((∀ j, find? a.id st.1 = some j → j.account ≠ a) ∧
      enroll st a =
        (without a.id st.1, ⟨without a.id st.2.jobs ++ [⟨a, st.2.started⟩], st.2.started + 1⟩)) := by
  obtain ⟨previous, r⟩ := st
  cases hfind : find? a.id previous with
  | none =>
      refine Or.inr ⟨?_, ?_⟩
      · intro j hj
        cases hj
      · simp only [enroll, hfind, Option.filter_none]
  | some j =>
      by_cases hsame : j.account = a
      · refine Or.inl ⟨j, rfl, hsame, ?_⟩
        simp only [enroll, hfind, Option.filter_some, hsame, decide_true, if_true]
      · refine Or.inr ⟨?_, ?_⟩
        · intro j' hj'
          cases hj'
          exact hsame
        · simp only [enroll, hfind, Option.filter_some, hsame, decide_false, Bool.false_eq_true, if_false]

/-- Enrolling an account does not touch the jobs of other ids. -/
theorem find?_enroll_of_ne (st : List RunningJob × Roster) {a : Account} {id : String} (hne : id ≠ a.id) :
    find? id (enroll st a).1 = find? id st.1 ∧ find? id (enroll st a).2.jobs = find? id st.2.jobs := by
  have hlast : ∀ (jobs : List RunningJob) (j : RunningJob), j.account.id = a.id →
      find? id (without a.id jobs ++ [j]) = find? id jobs := by
    intro jobs j hj
    have hother : find? id [j] = none := by
      simp [find?, hj, hne.symm]
    have hfirst := find?_without_of_ne hne jobs
    rw [find?] at hfirst hother ⊢
    rw [List.find?_append, hfirst, hother, Option.or_none]
  rcases enroll_cases st a with ⟨j, -, hj, heq⟩ | ⟨-, heq⟩
  · rw [heq]
    exact ⟨find?_without_of_ne hne st.1, hlast st.2.jobs j (by rw [hj])⟩
  · rw [heq]
    exact ⟨find?_without_of_ne hne st.1, hlast st.2.jobs _ rfl⟩

/-! ## Any list of accounts -/

/-- Whether jobs are told apart by their account ids and by their numbers. -/
structure Sound (r : Roster) : Prop where
  ids : (r.jobs.map fun j => j.account.id).Nodup
  numbers : (r.jobs.map (·.number)).Nodup
  bounded : ∀ j ∈ r.jobs, j.number < r.started

theorem sound_empty : Sound {} :=
  ⟨List.nodup_nil, List.nodup_nil, fun _ hj => by cases hj⟩

/-- The last job on a roster in place of those of its account. -/
theorem Sound.concat {r : Roster} (hr : r.Sound) {j : RunningJob} {started : Nat}
    (hstarted : r.started ≤ started) (hnumber : j.number < started)
    (hnew : ∀ x ∈ r.jobs, x.account.id ≠ j.account.id → x.number ≠ j.number) :
    Sound ⟨without j.account.id r.jobs ++ [j], started⟩ := by
  have hsub : (without j.account.id r.jobs).Sublist r.jobs := List.filter_sublist
  -- What tells the jobs apart still does so when the jobs for an id go and the new one comes last.
  have hlast : ∀ {β : Type} (f : RunningJob → β), (r.jobs.map f).Nodup →
      (∀ x ∈ without j.account.id r.jobs, f x ≠ f j) →
      ((without j.account.id r.jobs ++ [j]).map f).Nodup := by
    intro β f hnodup hne
    rw [List.map_append, List.map_singleton, List.nodup_append]
    refine ⟨hnodup.sublist (hsub.map f), List.nodup_singleton _, ?_⟩
    intro x hx y hy
    obtain ⟨k, hk, rfl⟩ := List.mem_map.1 hx
    rw [List.mem_singleton.1 hy]
    exact hne k hk
  refine ⟨hlast _ hr.ids ?_, hlast _ hr.numbers ?_, ?_⟩
  · intro x hx
    exact (mem_without.1 hx).2
  · intro x hx
    exact hnew x (mem_without.1 hx).1 (mem_without.1 hx).2
  · intro x hx
    rcases List.mem_append.1 hx with hx | hx
    · exact Nat.lt_of_lt_of_le (hr.bounded x (mem_without.1 hx).1) hstarted
    · rw [List.mem_singleton.1 hx]
      exact hnumber

/-- What holds of a roster after some accounts were enrolled, and of the jobs still to be looked at. -/
structure Enrolled (r : Roster) (seen : List Account) (st : List RunningJob × Roster) : Prop where
  left : st.1 = r.jobs.filter fun j => j.account.id ∉ seen.map (·.id)
  sound : st.2.Sound
  grows : r.started ≤ st.2.started
  accounts : ∀ a, (∃ j ∈ st.2.jobs, j.account = a) ↔ lastWith (·.id) seen a.id = some a
  old : ∀ j ∈ st.2.jobs, j.number < r.started → j ∈ r.jobs

variable {r : Roster} {seen : List Account} {st : List RunningJob × Roster}

theorem enrolled_nil (r : Roster) : Enrolled r [] (r.jobs, { started := r.started }) := by
  refine ⟨by simp, ⟨List.nodup_nil, List.nodup_nil, ?_⟩, Nat.le_refl _, ?_, ?_⟩
  · intro j hj
    cases hj
  · intro a
    simp [lastWith]
  · intro j hj
    cases hj

/-- A job that was enrolled is for a listed account. -/
theorem Enrolled.id_mem (h : Enrolled r seen st) {j : RunningJob} (hj : j ∈ st.2.jobs) :
    j.account.id ∈ seen.map (·.id) := by
  have hlast := (h.accounts j.account).1 ⟨j, hj, rfl⟩
  exact List.mem_map_of_mem (lastWith_eq_some hlast).1

/-- A job that is still to be looked at is for no account that was enrolled. -/
theorem Enrolled.mem_left (h : Enrolled r seen st) {j : RunningJob} :
    j ∈ st.1 ↔ j ∈ r.jobs ∧ j.account.id ∉ seen.map (·.id) := by
  rw [h.left, List.mem_filter, decide_eq_true_eq]

/-- A job for the next account comes last, in place of any that it had before. -/
theorem Enrolled.concat (h : Enrolled r seen st) {a : Account} {j : RunningJob} (hj : j.account = a)
    {started : Nat} (hsound : Sound ⟨without a.id st.2.jobs ++ [j], started⟩)
    (hgrows : r.started ≤ started) (hold : j.number < r.started → j ∈ r.jobs) :
    Enrolled r (seen ++ [a]) (without a.id st.1, ⟨without a.id st.2.jobs ++ [j], started⟩) := by
  refine ⟨?_, hsound, hgrows, ?_, ?_⟩
  · rw [h.left, without, List.filter_filter]
    refine List.filter_congr ?_
    intro k _
    by_cases hk : k.account.id = a.id <;> simp [hk]
  · intro b
    rw [lastWith_append]
    by_cases hid : a.id = b.id
    · -- The jobs that are left are for other ids, so only the new one can be for this account.
      rw [if_pos hid, Option.some.injEq]
      constructor
      · rintro ⟨k, hk, rfl⟩
        rcases List.mem_append.1 hk with hk | hk
        · exact absurd hid.symm (mem_without.1 hk).2
        · rw [List.mem_singleton.1 hk, hj]
      · rintro rfl
        exact ⟨j, by simp, hj⟩
    · rw [if_neg hid, ← h.accounts b]
      constructor
      · rintro ⟨k, hk, rfl⟩
        rcases List.mem_append.1 hk with hk | hk
        · exact ⟨k, (mem_without.1 hk).1, rfl⟩
        · rw [List.mem_singleton.1 hk, hj] at hid
          exact absurd rfl hid
      · rintro ⟨k, hk, rfl⟩
        exact ⟨k, List.mem_append_left _ (mem_without.2 ⟨hk, fun heq => hid heq.symm⟩), rfl⟩
  · intro k hk hnumber
    rcases List.mem_append.1 hk with hk | hk
    · exact h.old k (mem_without.1 hk).1 hnumber
    · rw [List.mem_singleton.1 hk] at hnumber ⊢
      exact hold hnumber

/-- One more account. -/
theorem Enrolled.enroll (hr : r.Sound) (h : Enrolled r seen st) (a : Account) :
    Enrolled r (seen ++ [a]) (enroll st a) := by
  rcases enroll_cases st a with ⟨j, hfind, hj, heq⟩ | ⟨-, heq⟩
  · obtain ⟨hleft, -⟩ := mem_of_find? hfind
    obtain ⟨hjobs, hunseen⟩ := h.mem_left.1 hleft
    have hsound : Sound ⟨without j.account.id st.2.jobs ++ [j], st.2.started⟩ := by
      refine h.sound.concat (Nat.le_refl _) (Nat.lt_of_lt_of_le (hr.bounded j hjobs) h.grows) ?_
      intro x hx _ hnumber
      -- A job with the number of an old one is that old one, but its account was not enrolled before.
      have hsame : x = j := by
        refine List.inj_on_of_nodup_map hr.numbers (h.old x hx ?_) hjobs hnumber
        rw [hnumber]
        exact hr.bounded j hjobs
      exact hunseen (hsame ▸ h.id_mem hx)
    rw [heq]
    refine h.concat hj ?_ h.grows fun _ => hjobs
    rw [← hj]
    exact hsound
  · rw [heq]
    refine h.concat (j := ⟨a, st.2.started⟩) rfl ?_ (Nat.le_succ_of_le h.grows) ?_
    · exact h.sound.concat (j := ⟨a, st.2.started⟩) (Nat.le_succ _) (Nat.lt_succ_self _) fun x hx _ =>
        Nat.ne_of_lt (h.sound.bounded x hx)
    · intro hlt
      exact absurd h.grows (Nat.not_le.2 hlt)

theorem Enrolled.foldl (hr : r.Sound) (h : Enrolled r seen st) (accounts : List Account) :
    Enrolled r (seen ++ accounts) (accounts.foldl Roster.enroll st) := by
  induction accounts generalizing seen st with
  | nil => simpa using h
  | cons a rest ih =>
      have hrest := ih (h.enroll hr a)
      rwa [List.append_assoc, List.singleton_append] at hrest

/-- A new roster is one on which all listed accounts were enrolled. -/
theorem Enrolled.reconcile (hr : r.Sound) (accounts : List Account) :
    ∃ left, Enrolled r accounts (left, r.reconcile accounts) :=
  ⟨_, (enrolled_nil r).foldl hr accounts⟩

/-- A sound roster is followed by a sound one. -/
theorem Sound.reconcile (hr : r.Sound) (accounts : List Account) : (r.reconcile accounts).Sound := by
  obtain ⟨_, h⟩ := Enrolled.reconcile hr accounts
  exact h.sound

/-! ## Lists without repeated ids -/

/-- Whether a job runs for just this account. -/
def employs (r : Roster) (a : Account) : Bool := r.jobs.any fun j => j.account = a

theorem employs_iff {a : Account} : r.employs a = true ↔ ∃ j ∈ r.jobs, j.account = a := by
  simp [employs]

/-- New jobs for the accounts of a list that have none, numbered in order. -/
def recruits (r : Roster) (accounts : List Account) : List RunningJob :=
  ((accounts.filter fun a => ! r.employs a).zipIdx r.started).map fun (a, n) => ⟨a, n⟩

theorem length_recruits (r : Roster) (accounts : List Account) :
    (r.recruits accounts).length = (accounts.filter fun a => ! r.employs a).length := by
  simp [recruits]

/-- One more account is one more recruit, unless a job runs for just this account. -/
theorem recruits_concat (r : Roster) (accounts : List Account) (a : Account) :
    r.recruits (accounts ++ [a]) =
      if r.employs a then r.recruits accounts
      else r.recruits accounts ++ [⟨a, r.started + (r.recruits accounts).length⟩] := by
  rw [length_recruits, recruits, List.filter_append, List.zipIdx_append, List.map_append]
  by_cases ha : r.employs a = true <;> simp [ha, recruits]

/-- What holds of a roster after some accounts with different ids were enrolled: which jobs are old, and
which new. -/
structure Carried (r : Roster) (seen : List Account) (st : List RunningJob × Roster) : Prop where
  kept : ∀ j, j ∈ st.2.jobs ∧ j.number < r.started ↔ j ∈ r.jobs ∧ j.account ∈ seen
  new : (st.2.jobs.filter fun j => r.started ≤ j.number) = r.recruits seen
  started : st.2.started = r.started + (r.recruits seen).length

theorem carried_nil (r : Roster) : Carried r [] (r.jobs, { started := r.started }) := by
  refine ⟨?_, ?_, ?_⟩
  · intro j
    simp
  · simp [recruits]
  · simp [recruits]

/-- One more account, whose id was not listed before. -/
theorem Carried.enroll (hr : r.Sound) (h : Enrolled r seen st) (hc : Carried r seen st) {a : Account}
    (ha : a.id ∉ seen.map (·.id)) : Carried r (seen ++ [a]) (enroll st a) := by
  -- Nothing on the roster so far is for this id.
  have hwithout : without a.id st.2.jobs = st.2.jobs := by
    rw [without, List.filter_eq_self]
    intro j hj
    have hid := h.id_mem hj
    exact decide_eq_true fun heq => ha (heq ▸ hid)
  rcases enroll_cases st a with ⟨j, hfind, rfl, heq⟩ | ⟨hnone, heq⟩
  · obtain ⟨hjobs, -⟩ := h.mem_left.1 (mem_of_find? hfind).1
    have hold : ¬ r.started ≤ j.number := Nat.not_le.2 (hr.bounded j hjobs)
    have hemploys : r.employs j.account = true := employs_iff.2 ⟨j, hjobs, rfl⟩
    rw [heq, hwithout]
    refine ⟨?_, ?_, ?_⟩
    · intro k
      have hk := hc.kept k
      have hsame : k ∈ r.jobs → (k.account = j.account ↔ k = j) := by
        intro hkjobs
        constructor
        · intro hacc
          exact List.inj_on_of_nodup_map hr.ids hkjobs hjobs (by rw [hacc])
        · rintro rfl
          rfl
      simp only [List.mem_append, List.mem_singleton]
      constructor
      · rintro ⟨hk' | rfl, hnumber⟩
        · obtain ⟨hold', hseen⟩ := hk.1 ⟨hk', hnumber⟩
          exact ⟨hold', Or.inl hseen⟩
        · exact ⟨hjobs, Or.inr rfl⟩
      · rintro ⟨hkjobs, hseen | hacc⟩
        · obtain ⟨hk', hnumber⟩ := hk.2 ⟨hkjobs, hseen⟩
          exact ⟨Or.inl hk', hnumber⟩
        · refine ⟨Or.inr ((hsame hkjobs).1 hacc), hr.bounded k hkjobs⟩
    · rw [recruits_concat, if_pos hemploys, List.filter_append, hc.new]
      simp [hold]
    · rw [recruits_concat, if_pos hemploys, hc.started]
  · -- The account has no job, for one would have been found by its id.
    have hemploys : ¬ r.employs a = true := by
      rw [employs_iff]
      rintro ⟨j, hjobs, rfl⟩
      have hleft : j ∈ st.1 := h.mem_left.2 ⟨hjobs, ha⟩
      have hids : (st.1.map fun j => j.account.id).Nodup := by
        rw [h.left]
        exact hr.ids.sublist (List.filter_sublist.map _)
      exact hnone j (find?_of_mem hids hleft) rfl
    rw [heq, hwithout]
    refine ⟨?_, ?_, ?_⟩
    · intro k
      have hk := hc.kept k
      simp only [List.mem_append, List.mem_singleton]
      constructor
      · rintro ⟨hk' | rfl, hnumber⟩
        · obtain ⟨hold', hseen⟩ := hk.1 ⟨hk', hnumber⟩
          exact ⟨hold', Or.inl hseen⟩
        · exact absurd h.grows (Nat.not_le.2 hnumber)
      · rintro ⟨hkjobs, hseen | hacc⟩
        · obtain ⟨hk', hnumber⟩ := hk.2 ⟨hkjobs, hseen⟩
          exact ⟨Or.inl hk', hnumber⟩
        · exact absurd (employs_iff.2 ⟨k, hkjobs, hacc⟩) hemploys
    · rw [recruits_concat, if_neg hemploys, List.filter_append, hc.new, hc.started]
      simp
    · rw [recruits_concat, if_neg hemploys, List.length_append, hc.started]
      simp [Nat.add_assoc]

/-- By induction over the list, the jobs of unchanged accounts are carried over as they are. -/
theorem Carried.foldl (hr : r.Sound) (h : Enrolled r seen st) (hc : Carried r seen st)
    {accounts : List Account} (hids : ((seen ++ accounts).map (·.id)).Nodup) :
    Carried r (seen ++ accounts) (accounts.foldl Roster.enroll st) := by
  induction accounts generalizing seen st with
  | nil => simpa using hc
  | cons a rest ih =>
      have ha : a.id ∉ seen.map (·.id) := by
        rw [List.map_append, List.nodup_append] at hids
        intro hmem
        exact hids.2.2 a.id hmem a.id (by simp) rfl
      have hrest := ih (h.enroll hr a) (hc.enroll hr h ha)
        (by rwa [List.append_assoc, List.singleton_append])
      rwa [List.append_assoc, List.singleton_append] at hrest

/-- If no id is listed twice, every unchanged account keeps its job. -/
theorem Carried.reconcile (hr : r.Sound) {accounts : List Account} (hids : (accounts.map (·.id)).Nodup) :
    ∃ left, Carried r accounts (left, r.reconcile accounts) := by
  rw [← List.nil_append accounts] at hids
  exact ⟨_, (carried_nil r).foldl hr (enrolled_nil r) hids⟩

end Roster
end PasswordVault
