import PasswordVault.Merge.Rule

/-!
# What a merge does to one field

A merge walks a tree of rules, but its promise is about single fields: what one side changed is not
lost. A field is read by a *view*, which may find nothing. This module carries the promise from a
leaf up to the root of a tree:

- `Lens.PutGet`: what is put in through a lens is seen again;
- `Merge.NoLostUpdate`: the outcome for one field, given its three versions;
- `Rule.Spares`: the rule writes nothing that a view reads;
- `Rule.Settles`: every merge by the rule treats a view as `NoLostUpdate` says, whatever the carrier.

A leaf settles its own focus (`Rule.settles_scalar`), a group settles what its children settle
(`Rule.settles_group`), and a list of rules settles what one of them settles and the later ones spare.
-/

namespace PasswordVault

/-! ## Lenses -/

namespace Lens

variable {S F α : Type}

/-- What is put in is seen again. A lens that can see nothing sees nothing once nothing was put in. -/
structure PutGet (lens : Lens S F) : Prop where
  some_seen : ∀ s value, lens.get (lens.set s (some value)) = some value
  none_seen : (∀ s, lens.get s ≠ none) ∨ ∀ s, lens.get (lens.set s none) = none

/-- What is seen in one value is seen in any other that it is put into. -/
theorem PutGet.get_set_get {lens : Lens S F} (h : lens.PutGet) (s t : S) :
    lens.get (lens.set s (lens.get t)) = lens.get t := by
  cases hfocus : lens.get t with
  | some value => exact h.some_seen s value
  | none =>
      rcases h.none_seen with htotal | hnone
      · exact absurd hfocus (htotal t)
      · exact hnone s

/-- Nothing is seen where it was put in, if the lens sees nothing in some value. -/
theorem PutGet.get_set_none {lens : Lens S F} (h : lens.PutGet) {t : S} (ht : lens.get t = none)
    (s : S) : lens.get (lens.set s none) = none := by
  have hseen := h.get_set_get s t
  rwa [ht] at hseen

theorem putGet_id : (Lens.id : Lens S S).PutGet where
  some_seen _ _ := rfl
  none_seen := Or.inl (by simp [Lens.id])

theorem putGet_field {get : S → F} {put : S → F → S} (h : ∀ s value, get (put s value) = value) :
    (Lens.field get put).PutGet where
  some_seen s value := congrArg some (h s value)
  none_seen := Or.inl (by simp [Lens.field])

theorem putGet_optional {get : S → Option F} {put : S → Option F → S}
    (h : ∀ s focus, get (put s focus) = focus) : (Lens.optional get put).PutGet where
  some_seen s value := h s (some value)
  none_seen := Or.inr fun s => h s none

/-- A view finds as much behind a lens as in the part with a placeholder for an absent one, if the
placeholder does not show: either the part is never absent, or the view finds nothing in it. -/
theorem view_getD_of_placed (lens : Lens S F) {placeholder : F} {view : F → Option α}
    (h : (∀ s, lens.get s ≠ none) ∨ view placeholder = none) (s : S) :
    view ((lens.get s).getD placeholder) = (lens.get s).bind view := by
  cases hfocus : lens.get s with
  | some focus => rfl
  | none =>
      rcases h with htotal | hnone
      · exact absurd hfocus (htotal s)
      · exact hnone

end Lens

namespace Merge

variable {S F α : Type}

/-! ## Outcomes -/

/-- How the merged version of a field follows from its three versions. A remote change wins; without
one a local change is kept; without either the field is as in the base or as on the server. An absent
version is no change. -/
structure NoLostUpdate (base here there merged : Option α) : Prop where
  remote_wins : there ≠ none → there ≠ base → merged = there
  local_kept : there = none ∨ there = base → here ≠ none → here ≠ base → merged = here
  unchanged : there = none ∨ there = base → here = none ∨ here = base → merged = base ∨ merged = there

namespace NoLostUpdate

/-- The remote version is a sound outcome for a field that was not changed locally. -/
theorem of_untouched {base here there : Option α} (h : here = none ∨ here = base) :
    NoLostUpdate base here there there where
  remote_wins _ _ := rfl
  local_kept _ hsome hchanged := by
    rcases h with h | h
    · exact absurd h hsome
    · exact absurd h hchanged
  unchanged _ _ := Or.inr rfl

/-- The scalar strategy loses no update. -/
theorem of_scalar [DecidableEq α] (base here there : Option α) :
    NoLostUpdate base here there (scalar base here there) := by
  have hskip : ∀ value : Option α, value = none ∨ value = base → changed? value base = none := by
    intro value h
    rcases h with h | h <;> simp [changed?, h]
  have htake : ∀ value : Option α, value ≠ base → changed? value base = value := by
    intro value h
    simp [changed?, h]
  refine ⟨?_, ?_, ?_⟩
  · intro hsome hchanged
    rcases Option.ne_none_iff_exists'.1 hsome with ⟨value, rfl⟩
    simp [scalar, htake _ hchanged]
  · intro hthere hsome hchanged
    rcases Option.ne_none_iff_exists'.1 hsome with ⟨value, rfl⟩
    simp [scalar, hskip there hthere, htake _ hchanged]
  · intro hthere hhere
    exact Or.inl (by simp [scalar, hskip there hthere, hskip here hhere])

end NoLostUpdate

/-- The scalar strategy takes one of the three versions. -/
theorem scalar_eq_version [DecidableEq α] (base here there : Option α) :
    scalar base here there = there ∨ scalar base here there = here ∨
      scalar base here there = base := by
  have hkept : ∀ {value : Option α} {v : α}, changed? value base = some v → some v = value := by
    intro value v h
    rw [changed?] at h
    split at h
    · cases h
    · exact h.symm
  rw [scalar]
  cases hthere : changed? there base with
  | some v => exact .inl (hkept hthere)
  | none =>
      cases hhere : changed? here base with
      | some v => exact .inr (.inl (hkept hhere))
      | none => exact .inr (.inr rfl)

/-- Only what is absent in the base is absent after the scalar strategy. -/
theorem base_eq_none_of_scalar_eq_none [DecidableEq α] {base here there : Option α}
    (h : scalar base here there = none) : base = none := by
  simp only [scalar, Option.or_eq_none_iff] at h
  exact h.2.2

/-! ## Writing past a view -/

/-- Whether a rule writes nothing that a view reads. A group writes through its own lens alone. -/
def Rule.Spares : {S : Type} → Rule S → (S → α) → Prop
  | _, .leaf lens _, view => ∀ s focus, view (lens.set s focus) = view s
  | _, @Rule.group _ _ _ lens _ _, view => ∀ s focus, view (lens.set s focus) = view s

/-- Whether none of several rules writes what a view reads. -/
def Rules.Spares : {S : Type} → Rules S → (S → α) → Prop
  | _, .nil, _ => True
  | _, .cons first rest, view => first.Spares view ∧ rest.Spares view

@[simp] theorem Rules.spares_ofList_nil {view : S → α} : (Rules.ofList []).Spares view :=
  trivial

@[simp] theorem Rules.spares_ofList_cons {first : Rule S} {rest : List (Rule S)} {view : S → α} :
    (Rules.ofList (first :: rest)).Spares view ↔
      first.Spares view ∧ (Rules.ofList rest).Spares view :=
  Iff.rfl

@[simp] theorem Rule.spares_leaf_optional {get : S → Option F} {put : S → Option F → S}
    {strategy : Strategy F} {view : S → α} :
    (Rule.leaf (.optional get put) strategy).Spares view ↔
      ∀ s focus, view (put s focus) = view s :=
  Iff.rfl

@[simp] theorem Rule.spares_leaf_field {get : S → F} {put : S → F → S} {strategy : Strategy F}
    {view : S → α} :
    (Rule.leaf (.field get put) strategy).Spares view ↔ ∀ s value, view (put s value) = view s := by
  constructor
  · intro h s value
    exact h s (some value)
  · intro h s focus
    cases focus with
    | none => rfl
    | some value => exact h s value

@[simp] theorem Rule.spares_group_optional [DecidableEq F] {get : S → Option F}
    {put : S → Option F → S} {placeholder : F} {children : Rules F} {view : S → α} :
    (Rule.group (.optional get put) placeholder children).Spares view ↔
      ∀ s focus, view (put s focus) = view s :=
  Iff.rfl

/-- A rule that writes past a view does not change it. -/
theorem Rule.view_merge {rule : Rule S} {view : S → α} (h : rule.Spares view)
    (base here there carrier : S) : view (rule.merge base here there carrier) = view carrier := by
  -- Every branch ends in one write through the lens of the rule.
  cases rule with
  | leaf lens strategy =>
      rw [Rule.merge]
      exact h _ _
  | group lens placeholder children =>
      rw [Rule.merge]
      split
      · exact h _ _
      · split
        · exact h _ _
        · exact h _ _

theorem Rules.view_merge {rules : Rules S} {view : S → α} (h : rules.Spares view)
    (base here there carrier : S) : view (rules.merge base here there carrier) = view carrier := by
  -- Only lists of rules matter here: a group is passed over as a whole.
  induction rules using Rules.rec (motive_1 := fun _ _ => True) with
  | nil => rw [Rules.merge]
  | cons first rest _ ih =>
      rw [Rules.merge, ih h.2]
      exact Rule.view_merge h.1 _ _ _ _
  | group => trivial
  | leaf => trivial

/-! ## Settled views -/

/-- Every merge by a rule treats a view as a field whose updates are not lost. -/
structure Rule.Settles (rule : Rule S) (view : S → Option α) : Prop where
  outcome : ∀ base here there carrier,
    NoLostUpdate (view base) (view here) (view there) (view (rule.merge base here there carrier))

/-- The merges of several rules treat a view as a field whose updates are not lost. -/
structure Rules.Settles (rules : Rules S) (view : S → Option α) : Prop where
  outcome : ∀ base here there carrier,
    NoLostUpdate (view base) (view here) (view there) (view (rules.merge base here there carrier))

theorem Rules.settles_of_first {first : Rule S} {rest : List (Rule S)} {view : S → Option α}
    (hfirst : first.Settles view) (hrest : (Rules.ofList rest).Spares view) :
    (Rules.ofList (first :: rest)).Settles view := by
  refine ⟨?_⟩
  intro base here there carrier
  rw [Rules.ofList, Rules.merge, Rules.view_merge hrest]
  exact hfirst.outcome base here there carrier

/-- The carrier that earlier rules leave behind does not matter. -/
theorem Rules.settles_of_rest {first : Rule S} {rest : List (Rule S)} {view : S → Option α}
    (hrest : (Rules.ofList rest).Settles view) : (Rules.ofList (first :: rest)).Settles view := by
  refine ⟨?_⟩
  intro base here there carrier
  rw [Rules.ofList, Rules.merge]
  exact hrest.outcome base here there _

/-- A rule for a single value settles what its own lens sees. -/
theorem Rule.settles_scalar [DecidableEq F] {lens : Lens S F} (hlens : lens.PutGet) :
    (Rule.scalar lens).Settles lens.get := by
  refine ⟨?_⟩
  intro base here there carrier
  have hseen : lens.get ((Rule.scalar lens).merge base here there carrier) =
      Merge.scalar (lens.get base) (lens.get here) (lens.get there) := by
    rw [Rule.scalar, Rule.merge]
    cases hmerged : Merge.scalar (lens.get base) (lens.get here) (lens.get there) with
    | some value => exact hlens.some_seen carrier value
    | none =>
        -- Nothing is put in, and nothing is what the base shows.
        have hbase : lens.get base = none := base_eq_none_of_scalar_eq_none hmerged
        simpa [hbase] using hlens.get_set_get carrier base
  rw [hseen]
  exact NoLostUpdate.of_scalar _ _ _

/-- A group settles what its children settle, if the placeholder does not show: either the group is
never absent, or the view finds nothing in the placeholder. -/
theorem Rule.settles_group [DecidableEq F] {lens : Lens S F} {placeholder : F} {children : Rules F}
    {view : F → Option α} (hlens : lens.PutGet) (hchildren : children.Settles view)
    (hplaceholder : (∀ s, lens.get s ≠ none) ∨ view placeholder = none) :
    (Rule.group lens placeholder children).Settles fun s => (lens.get s).bind view := by
  have hgetD := lens.view_getD_of_placed hplaceholder
  refine ⟨?_⟩
  intro base here there carrier
  rw [Rule.merge]
  split
  next habsent =>
    -- Neither side has the group, and a view of nothing is untouched.
    have hseen := hlens.get_set_get carrier there
    rw [habsent.2] at hseen
    simp only [habsent.1, habsent.2, hseen, Option.bind_none]
    exact NoLostUpdate.of_untouched (Or.inl rfl)
  next =>
    split
    next huntouched =>
      -- The remote group is taken as it is, changes and all.
      simp only [hlens.get_set_get, huntouched]
      exact NoLostUpdate.of_untouched (Or.inr rfl)
    next =>
      -- The children merge what is there, or the placeholder for what is not.
      simp only [hlens.some_seen, Option.bind_some, ← hgetD]
      exact hchildren.outcome _ _ _ _

/-- A single value is settled by the rule for it, if the later rules write elsewhere. -/
theorem Rules.settles_scalar_optional [DecidableEq F] {get : S → Option F}
    {put : S → Option F → S} {rest : List (Rule S)} (hput : ∀ s focus, get (put s focus) = focus)
    (hrest : (Rules.ofList rest).Spares get) :
    (Rules.ofList (Rule.scalar (.optional get put) :: rest)).Settles get :=
  Rules.settles_of_first (Rule.settles_scalar (Lens.putGet_optional hput)) hrest

/-- An optional part settles what its rules settle, if the later rules write elsewhere and the
placeholder lacks the value. -/
theorem Rules.settles_group_optional [DecidableEq F] {get : S → Option F}
    {put : S → Option F → S} {placeholder : F} {children : Rules F} {view : F → Option α}
    {rest : List (Rule S)} (hput : ∀ s focus, get (put s focus) = focus)
    (hchildren : children.Settles view) (hplaceholder : view placeholder = none)
    (hrest : (Rules.ofList rest).Spares fun s => (get s).bind view) :
    (Rules.ofList (Rule.group (.optional get put) placeholder children :: rest)).Settles
      fun s => (get s).bind view :=
  Rules.settles_of_first
    (Rule.settles_group (Lens.putGet_optional hput) hchildren (Or.inr hplaceholder)) hrest

end Merge
end PasswordVault
