import Mathlib.Tactic.ByContra
import Mathlib.Tactic.Tauto
import PasswordVault.Proofs.Merge.Agreement

/-!
# Syncs — an item and the server copies that it meets

An item is reconciled with one server copy after the other, and each of them becomes the base of the
next merge. What the server decides alone is that of the last copy
(`VaultCipher.foldl_mergeWithRemote_frame`). A copy that comes again brings no edit: the second merge
with it can only put lists into its order, and from then on nothing changes
(`VaultCipher.mergeWithRemote_again`).

- `VaultCipher.HoldsAll`: an item that has whatever a server copy has;
- `VaultCipher.arranged`: an item with its lists in the order of a server copy.
-/

namespace PasswordVault

namespace Merge

variable {F α : Type}

/-! ## Fields and parts -/

/-- What the server has is there after a merge. -/
theorem NoLostUpdate.there_eq_none {base here there merged : Option α}
    (h : NoLostUpdate base here there merged) (hmerged : merged = none) : there = none := by
  by_contra hthere
  have hsame : there = base := by
    by_contra hchanged
    exact hthere ((h.remote_wins hthere hchanged).symm.trans hmerged)
  have huntouched : here = none ∨ here = base := by
    by_contra hhere
    rw [not_or] at hhere
    exact hhere.1 ((h.local_kept (.inr hsame) hhere.1 hhere.2).symm.trans hmerged)
  rcases h.unchanged (.inr hsame) huntouched with hbase | hremote
  · exact hthere (hsame.trans (hbase.symm.trans hmerged))
  · exact hthere (hremote.symm.trans hmerged)

variable [DecidableEq F]

/-- A part that is merged into the one of the server is that one, or the rules were applied to it. -/
theorem mergePart_cases (placeholder : F) (children : Rules F) (base here there : Option F) :
    mergePart placeholder children base here there there = there ∨
      mergePart placeholder children base here there there =
        some (children.merge (base.getD placeholder) (here.getD placeholder)
          (there.getD placeholder) (there.getD placeholder)) := by
  rw [mergePart]
  split
  case isTrue habsent => exact .inl habsent.2.symm
  case isFalse =>
      split
      case isTrue => exact .inl rfl
      case isFalse => exact .inr rfl

theorem there_eq_none_of_mergePart {placeholder : F} {children : Rules F} {base here there : Option F}
    (h : mergePart placeholder children base here there there = none) : there = none := by
  rcases mergePart_cases placeholder children base here there with heq | heq
  · exact heq.symm.trans h
  · rw [h] at heq
    cases heq

/-- Without a remote change a value is the local one, unless it was cleared here. -/
theorem scalar_of_there {base here : Option F} (h : here = none → base = none) :
    Merge.scalar base here base = here := by
  cases here with
  | none => simp [Merge.scalar, changed?, h rfl]
  | some value =>
      by_cases hbase : some value = base
      · simp [Merge.scalar, changed?, hbase]
      · simp [Merge.scalar, changed?, hbase]

theorem mergeLists_of_there (base here : List F) : mergeLists base here base = rebuilt base here := by
  have hnone : base.filter (· ∉ base) = [] := by simp
  rw [mergeLists_eq, hnone, List.nil_diff, List.append_nil, rebuilt]
  congr 1
  exact List.filter_congr fun x hx => by simp [hx]

theorem mem_rebuilt {old new : List F} {x : F} : x ∈ rebuilt old new ↔ x ∈ new := by
  simp only [rebuilt, List.mem_append, List.mem_filter, decide_eq_true_eq]
  tauto

/-- A list that is in the order of another stays as it is. -/
theorem rebuilt_rebuilt (old new : List F) : rebuilt old (rebuilt old new) = rebuilt old new := by
  have hkept : old.filter (· ∈ rebuilt old new) = old.filter (· ∈ new) := by
    simp only [mem_rebuilt]
  have hadded : (rebuilt old new).filter (· ∉ old) = new.filter (· ∉ old) := by
    have hnone : (old.filter (· ∈ new)).filter (· ∉ old) = [] := by
      rw [List.filter_eq_nil_iff]
      intro x hx
      simp [(List.mem_filter.1 hx).1]
    rw [rebuilt, List.filter_append, hnone, List.nil_append, List.filter_filter]
    simp only [Bool.and_self]
  rw [rebuilt, hkept, hadded, rebuilt]

/-- A part that only this side changed is laid over the one of the server. -/
theorem mergePart_of_there (placeholder : F) (children : Rules F) (lay : F → F → F) {base part : Option F}
    (hself : ∀ x, lay x x = x) (hpresent : part = none → base = none)
    (hmerge : ∀ x, part = some x →
      children.merge (base.getD placeholder) x (base.getD placeholder) (base.getD placeholder) =
        lay x (base.getD placeholder)) :
    mergePart placeholder children base part base base =
      part.map fun x => lay x (base.getD placeholder) := by
  cases part with
  | none => simp [mergePart, hpresent rfl]
  | some x =>
      by_cases hbase : base = some x
      · simp [mergePart, hbase, hself]
      · simp [mergePart, hbase, hmerge x rfl]

end Merge

open Merge (rebuilt)

/-! ## Logins in the order of the server -/

/-- A login with its addresses in the order of another. -/
def Login.arranged (l base : Login) : Login := { l with uris := rebuilt base.uris l.uris }

theorem Login.arranged_self (l : Login) : l.arranged l = l := by
  rw [arranged, Merge.rebuilt_self]

theorem Login.arranged_arranged (l base : Login) : (l.arranged base).arranged base = l.arranged base := by
  simp only [arranged, Merge.rebuilt_rebuilt]

/-! A value that was not cleared here is the local one, as the server has not changed it. -/

theorem Login.read_merge_of_there {F : Type} {field : Scalar F} {base l : Login}
    (h : field.read l = none → field.read base = none) (carrier : Login) :
    field.read (mergeRules.merge base l base carrier) = field.read l := by
  rw [merge_mergeRules]
  cases field <;> exact Merge.scalar_of_there h

theorem Card.read_merge_of_there {field : Scalar} {base c : Card}
    (h : field.read c = none → field.read base = none) (carrier : Card) :
    field.read (mergeRules.merge base c base carrier) = field.read c := by
  rw [merge_mergeRules]
  cases field <;> exact Merge.scalar_of_there h

theorem Identity.read_merge_of_there {field : Scalar} {base i : Identity}
    (h : field.read i = none → field.read base = none) (carrier : Identity) :
    field.read (mergeRules.merge base i base carrier) = field.read i := by
  rw [merge_mergeRules]
  cases field <;> exact Merge.scalar_of_there h

/-- Without edits on the server a login that has lost nothing keeps all of it, with its lists in another order
at most. -/
theorem Login.merge_of_there {base l : Login}
    (hvalues : ∀ {F : Type} (field : Scalar F), field.read l = none → field.read base = none)
    (hhistory : l.passwordHistory = base.passwordHistory) :
    mergeRules.merge base l base base = l.arranged base := by
  have huris : (mergeRules.merge base l base base).uris = rebuilt base.uris l.uris := by
    rw [merge_mergeRules, Merge.mergeLists_of_there]
  have hkept : (mergeRules.merge base l base base).passwordHistory = l.passwordHistory := by
    rw [merge_mergeRules, hhistory]
  refine eq_of_read ?_ huris hkept
  intro F field
  calc field.read (mergeRules.merge base l base base)
      = field.read l := read_merge_of_there (hvalues field) base
    _ = field.read (l.arranged base) := by cases field <;> rfl

theorem Card.merge_of_there {base c : Card}
    (hvalues : ∀ field : Scalar, field.read c = none → field.read base = none) :
    mergeRules.merge base c base base = c :=
  eq_of_read fun field => read_merge_of_there (hvalues field) base

theorem Identity.merge_of_there {base i : Identity}
    (hvalues : ∀ field : Scalar, field.read i = none → field.read base = none) :
    mergeRules.merge base i base base = i :=
  eq_of_read fun field => read_merge_of_there (hvalues field) base

namespace VaultCipher

/-! ## One sync -/

/-- The copy that an item is compared with when it is reconciled with a server copy. -/
def syncBase (here there : VaultCipher) : VaultCipher := here.remoteEntity?.getD there.detached

/-- A sync merges the copies without their own copies and records that of the server. -/
theorem mergeWithRemote_eq (here there : VaultCipher) :
    here.mergeWithRemote there =
      { mergeRules.merge (here.syncBase there) here.detached there.detached there.detached with
        synced := [there.toCipherContent] } :=
  rfl

/-- What no rule mentions is that of the server, and the recorded base is the copy itself. -/
theorem unlisted_mergeWithRemote (here there : VaultCipher) :
    (here.mergeWithRemote there).unlisted =
      { there.unlisted with remoteEntity := some there.detached } := by
  have hmerged := unlisted_merge (here.syncBase there) here.detached there.detached there.detached
  rw [ite_self] at hmerged
  -- Only the recorded base is set once the merge is done.
  calc (here.mergeWithRemote there).unlisted
      = { (mergeRules.merge (here.syncBase there) here.detached there.detached there.detached).unlisted
          with remoteEntity := some there.detached } := rfl
    _ = { there.detached.unlisted with remoteEntity := some there.detached } := by rw [hmerged]
    _ = { there.unlisted with remoteEntity := some there.detached } := rfl

/-- The history of passwords is no edit: it is that of the server's login, or none. -/
theorem history_merge (base here there : VaultCipher) :
    ((mergeRules.merge base here there there).login.getD {}).passwordHistory =
      (there.login.getD {}).passwordHistory := by
  rw [merge_mergeRules]
  split
  · rfl
  · rw [merge_partRules]
    rcases Merge.mergePart_cases {} Login.mergeRules base.login here.login there.login with heq | heq
    · simp only [heq]
    · simp only [heq, Option.getD_some, Login.merge_mergeRules]

/-! ## Items that have what the server has -/

/-- Whether an item has whatever a server copy has: its values and parts, and all that no rule mentions. -/
structure HoldsAll (c there : VaultCipher) : Prop where
  values : ∀ {F : Type} (field : Scalar F), field.read c = none → field.read there = none
  login : c.login = none → there.login = none
  card : c.card = none → there.card = none
  identity : c.identity = none → there.identity = none
  history : (c.login.getD {}).passwordHistory = (there.login.getD {}).passwordHistory
  unlisted : c.unlisted = there.unlisted

/-- Every merge into the server copy has whatever the copy has. -/
theorem holdsAll_merge (base here there : VaultCipher) :
    HoldsAll (mergeRules.merge base here there there) there := by
  -- Either the copy is taken as it is or the parts are merged; its parts remain in both cases.
  have hparts : ∀ {F : Type} (part : VaultCipher → Option F),
      (part (partRules.merge base here there there) = none → part there = none) →
      part (mergeRules.merge base here there there) = none → part there = none := by
    intro F part hmerged h
    rw [merge_mergeRules] at h
    split at h
    case isTrue => exact h
    case isFalse => exact hmerged h
  refine ⟨?_, ?_, ?_, ?_, history_merge base here there, ?_⟩
  · intro F field hnone
    exact ((settles_mergeRules field).outcome base here there there).there_eq_none hnone
  · apply hparts (·.login)
    rw [merge_partRules]
    exact Merge.there_eq_none_of_mergePart
  · apply hparts (·.card)
    rw [merge_partRules]
    exact Merge.there_eq_none_of_mergePart
  · apply hparts (·.identity)
    rw [merge_partRules]
    exact Merge.there_eq_none_of_mergePart
  · rw [unlisted_merge, ite_self]

/-- An item with its lists in the order of another. -/
def arranged (c there : VaultCipher) : VaultCipher :=
  { c with
    fields := rebuilt there.fields c.fields
    tags := rebuilt there.tags c.tags
    login := c.login.map fun l => l.arranged (there.login.getD {}) }

theorem arranged_self (c : VaultCipher) : c.arranged c = c := by
  have hlogin : (c.login.map fun l => l.arranged (c.login.getD {})) = c.login := by
    cases hl : c.login with
    | none => rfl
    | some l => simp [Login.arranged_self]
  simp only [arranged, Merge.rebuilt_self, hlogin]

theorem arranged_arranged (c there : VaultCipher) : (c.arranged there).arranged there = c.arranged there := by
  simp only [arranged, Merge.rebuilt_rebuilt, Option.map_map, Function.comp_def,
    Login.arranged_arranged]

/-- No value is in a list, so the order of lists does not show in them. -/
theorem read_arranged {F : Type} (field : Scalar F) (c there : VaultCipher) :
    field.read (c.arranged there) = field.read c := by
  cases field with
  | login field =>
      cases hl : c.login with
      | none => simp [Scalar.read, arranged, hl]
      | some l => cases field <;> simp [Scalar.read, arranged, hl, Login.arranged, Login.Scalar.read]
  | _ => rfl

/-- What an item holds of a copy does not depend on the order of its lists. -/
theorem HoldsAll.arranged {c there : VaultCipher} (h : HoldsAll c there) (other : VaultCipher) :
    HoldsAll (c.arranged other) there := by
  refine ⟨?_, ?_, h.card, h.identity, ?_, h.unlisted⟩
  · intro F field hnone
    rw [read_arranged] at hnone
    exact h.values field hnone
  · intro hnone
    exact h.login (Option.map_eq_none_iff.1 hnone)
  · rw [← h.history]
    cases hl : c.login with
    | none => simp [VaultCipher.arranged, hl]
    | some l => simp [VaultCipher.arranged, hl, Login.arranged]

/-- The chain of copies is determined by the newest of them. -/
theorem synced_eq_of_remoteEntity? {c there : VaultCipher} (h : c.remoteEntity? = there.remoteEntity?) :
    c.synced = there.synced := by
  cases hc : c.synced with
  | nil =>
      cases hthere : there.synced with
      | nil => rfl
      | cons copy older => simp [remoteEntity?, hc, hthere] at h
  | cons copy older =>
      cases hthere : there.synced with
      | nil => simp [remoteEntity?, hc, hthere] at h
      | cons copy' older' => simpa [remoteEntity?, hc, hthere] using h

/-- An item is another one with its own listed parts if the two agree on all that no rule mentions. -/
theorem eq_of_unlisted {c there : VaultCipher} (h : c.unlisted = there.unlisted) :
    c = { there with
      name := c.name
      notes := c.notes
      favorite := c.favorite
      fields := c.fields
      tags := c.tags
      login := c.login
      card := c.card
      identity := c.identity
      sshKey := c.sshKey } := by
  have hsynced := synced_eq_of_remoteEntity? (congrArg Unlisted.remoteEntity h)
  obtain ⟨⟨⟩, synced⟩ := c
  obtain ⟨⟨⟩, synced'⟩ := there
  simp only [unlisted, Unlisted.mk.injEq] at h
  obtain ⟨rfl, rfl, rfl, rfl, rfl, rfl, rfl, rfl, rfl, -⟩ := h
  cases hsynced
  rfl

/-- A copy that was merged before changes nothing but the order of lists. -/
theorem HoldsAll.merge_eq {c there : VaultCipher} (h : HoldsAll c there) :
    mergeRules.merge there c there there = c.arranged there := by
  rw [merge_mergeRules]
  split
  case isTrue hsame => rw [hsame, arranged_self]
  case isFalse =>
      -- Values of a part are values of the item, and the placeholder has none.
      have hlogin := Merge.mergePart_of_there {} Login.mergeRules Login.arranged
        Login.arranged_self h.login fun l hl => by
          refine Login.merge_of_there (fun field hnone => ?_) ?_
          · rw [Merge.view_getD field.read_empty]
            exact h.values (.login field) (by simpa [Scalar.read, hl] using hnone)
          · simpa [hl] using h.history
      have hcard := Merge.mergePart_of_there {} Card.mergeRules (fun c _ => c)
        (fun _ => rfl) h.card fun x hx => by
          refine Card.merge_of_there fun field hnone => ?_
          rw [Merge.view_getD field.read_empty]
          exact h.values (.card field) (by simpa [Scalar.read, hx] using hnone)
      have hidentity := Merge.mergePart_of_there {} Identity.mergeRules (fun i _ => i)
        (fun _ => rfl) h.identity fun x hx => by
          refine Identity.merge_of_there fun field hnone => ?_
          rw [Merge.view_getD field.read_empty]
          exact h.values (.identity field) (by simpa [Scalar.read, hx] using hnone)
      have hname : Merge.scalar there.name c.name there.name = c.name :=
        Merge.scalar_of_there (h.values .name)
      have hnotes : Merge.scalar there.notes c.notes there.notes = c.notes :=
        Merge.scalar_of_there (h.values .notes)
      have hsshKey : Merge.scalar there.sshKey c.sshKey there.sshKey = c.sshKey :=
        Merge.scalar_of_there (h.values .sshKey)
      rw [merge_partRules, hlogin, hcard, hidentity, hname, hnotes, hsshKey, if_pos rfl,
        Merge.mergeLists_of_there, Merge.mergeLists_of_there, Option.map_id', Option.map_id']
      exact (eq_of_unlisted (c := c.arranged there) h.unlisted).symm

/-! ## The same copy again -/

/-- An item with a server copy recorded as the one it was last synced with. -/
def recording (c there : VaultCipher) : VaultCipher := { c with synced := [there.toCipherContent] }

theorem detached_recording {c : VaultCipher} (hc : c.synced = []) (there : VaultCipher) :
    (c.recording there).detached = c := by
  obtain ⟨content, synced⟩ := c
  cases hc
  rfl

/-- A step of the run in which every copy is the recorded one. -/
theorem HoldsAll.mergeWithRemote_recording {c there : VaultCipher} (h : HoldsAll c there.detached) :
    (c.recording there).mergeWithRemote there = (c.arranged there.detached).recording there := by
  have hcopy : c.remoteEntity? = there.detached.remoteEntity? :=
    congrArg Unlisted.remoteEntity h.unlisted
  have hnone : c.synced = [] := synced_eq_of_remoteEntity? hcopy
  have hbase : (c.recording there).syncBase there = there.detached := rfl
  rw [mergeWithRemote_eq, hbase, detached_recording hnone, h.merge_eq]
  rfl

/-- An item without the items of its lists. -/
def withoutLists (c : VaultCipher) : VaultCipher :=
  { c with fields := [], tags := [], login := c.login.map fun l => { l with uris := [] } }

/-- Two items that differ at most in how their lists are ordered and how often an element is in them. -/
structure SameUpToLists (c c' : VaultCipher) : Prop where
  fields : ∀ field, field ∈ c.fields ↔ field ∈ c'.fields
  tags : ∀ tag, tag ∈ c.tags ↔ tag ∈ c'.tags
  uris : ∀ uri, uri ∈ (c.login.getD {}).uris ↔ uri ∈ (c'.login.getD {}).uris
  others : c.withoutLists = c'.withoutLists

theorem sameUpToLists_arranged (c there : VaultCipher) : SameUpToLists (c.arranged there) c := by
  refine ⟨fun _ => Merge.mem_rebuilt, fun _ => Merge.mem_rebuilt, fun uri => ?_, ?_⟩
  · cases hl : c.login with
    | none => simp [arranged, hl]
    | some l =>
        simp only [arranged, hl, Option.map_some, Option.getD_some]
        exact Merge.mem_rebuilt
  · simp only [withoutLists, arranged, Login.arranged, Option.map_map, Function.comp_def]

theorem SameUpToLists.recording {c c' : VaultCipher} (h : SameUpToLists c c') (there : VaultCipher) :
    SameUpToLists (c.recording there) (c'.recording there) := by
  refine ⟨h.fields, h.tags, h.uris, ?_⟩
  calc (c.recording there).withoutLists
      = c.withoutLists.recording there := rfl
    _ = c'.withoutLists.recording there := by rw [h.others]
    _ = (c'.recording there).withoutLists := rfl

/-- A server copy that is merged again changes at most how the lists are ordered and how often an
element is in them, and a third time it changes nothing. -/
theorem mergeWithRemote_again (x r : VaultCipher) :
    let first := x.mergeWithRemote r
    let second := first.mergeWithRemote r
    SameUpToLists second first ∧ second.mergeWithRemote r = second := by
  -- The first merge leaves an item that has whatever the copy has, and has the copy recorded.
  let merged := mergeRules.merge (x.syncBase r) x.detached r.detached r.detached
  have hmerged : HoldsAll merged r.detached := holdsAll_merge _ _ _
  have hfirst : x.mergeWithRemote r = merged.recording r := rfl
  have hsecond : (x.mergeWithRemote r).mergeWithRemote r = (merged.arranged r.detached).recording r := by
    rw [hfirst, hmerged.mergeWithRemote_recording]
  constructor
  · rw [hsecond, hfirst]
    exact (sameUpToLists_arranged merged r.detached).recording r
  · rw [hsecond, (hmerged.arranged r.detached).mergeWithRemote_recording, arranged_arranged]

/-- Tags are in the order of the older base at first, and in that of the server once it is the base. -/
example :
    let tagged (tags : List Tag) := { new "a" "c" .login Instant.epoch with tags }
    let x := (tagged [⟨"work"⟩, ⟨"mail"⟩, ⟨"bank"⟩]).recording (tagged [⟨"work"⟩, ⟨"mail"⟩])
    let r := tagged [⟨"mail"⟩, ⟨"work"⟩]
    (x.mergeWithRemote r).mergeWithRemote r ≠ x.mergeWithRemote r := by
  decide +kernel

/-! ## Runs of syncs -/

/-- The login of the server is there after the merge, with the server's history of passwords. -/
theorem login_mergeWithRemote {here there : VaultCipher} {l : Login} (hl : there.login = some l) :
    ∃ l', (here.mergeWithRemote there).login = some l' ∧ l'.passwordHistory = l.passwordHistory := by
  let merged := mergeRules.merge (here.syncBase there) here.detached there.detached there.detached
  have hmerged : HoldsAll merged there.detached := holdsAll_merge _ _ _
  have hpresent : merged.login ≠ none := fun hnone => by
    have habsent : there.login = none := hmerged.login hnone
    rw [hl] at habsent
    cases habsent
  obtain ⟨l', hl'⟩ := Option.ne_none_iff_exists'.1 hpresent
  refine ⟨l', hl', ?_⟩
  have hhistory := hmerged.history
  rw [hl'] at hhistory
  calc l'.passwordHistory
      = (there.login.getD {}).passwordHistory := hhistory
    _ = l.passwordHistory := by rw [hl, Option.getD_some]

/-- After a run of syncs all that no rule mentions is that of the last copy, the recorded base is the
last copy without a base of its own, and a login of the last copy is there with its history. -/
theorem foldl_mergeWithRemote_frame (x : VaultCipher) (earlier : List VaultCipher) (last : VaultCipher) :
    let c := (earlier ++ [last]).foldl mergeWithRemote x
    c.unlisted = { last.unlisted with remoteEntity := some last.detached } ∧
      last.detached.remoteEntity? = none ∧
      ∀ l, last.login = some l →
        ∃ l', c.login = some l' ∧ l'.passwordHistory = l.passwordHistory := by
  intro c
  have hc : c = (earlier.foldl mergeWithRemote x).mergeWithRemote last := List.foldl_append
  rw [hc]
  exact ⟨unlisted_mergeWithRemote _ last, rfl, fun _ => login_mergeWithRemote⟩

end VaultCipher
end PasswordVault
