import PasswordVault.Proofs.Merge.FieldOutcome

/-!
# What stays absent in a merge

A tree of rules has many places: each of its nodes looks at a part, and the way from the root to the
node says where that part is. A part that all versions lack should be lacking in the merged value. Groups
and single values keep to that. A list does not: a list that all versions lack is merged to an empty one.
The empty list shows, unless a group on the way was not touched here and is taken from the server.

- `Rule.Built`: rules of the usual kinds, with the usual lenses;
- `Rule.Place`: a node of a tree, with `view` for what it looks at and `Missing` for a part that is
  absent where it could be;
- `Rule.Place.leftover`: what a merge makes of a part that all versions lack;
- `Rule.Place.Apart`, `Rule.Place.Clear`: later rules leave the place alone, or never fill it;
- `Rule.Place.stays_absent`: the outcome at every place of every tree.
-/

namespace PasswordVault

variable {S F : Type}

/-! ## Built rules -/

/-- The lenses that rules are built with. A field is read where it is written. -/
inductive Lens.Made : {S F : Type} → Lens S F → Prop
  | id {S : Type} : Made (Lens.id : Lens S S)
  | field {S F : Type} {get : S → F} {put : S → F → S} (h : ∀ s value, get (put s value) = value) :
      Made (Lens.field get put)
  | optional {S F : Type} {get : S → Option F} {put : S → Option F → S}
      (h : ∀ s focus, get (put s focus) = focus) : Made (Lens.optional get put)

theorem Lens.Made.putGet {lens : Lens S F} (h : lens.Made) : lens.PutGet := by
  cases h with
  | id => exact Lens.putGet_id
  | field h => exact Lens.putGet_field h
  | optional h => exact Lens.putGet_optional h

namespace Merge

mutual

/-- A tree of groups, single values and lists, all through made lenses. -/
inductive Rule.Built : {S : Type} → Rule S → Prop
  | group {S F : Type} [DecidableEq F] {lens : Lens S F} {placeholder : F} {children : Rules F}
      (made : lens.Made) (built : Rules.Built children) :
      Rule.Built (.group lens placeholder children)
  | scalar {S F : Type} [DecidableEq F] {lens : Lens S F} (made : lens.Made) :
      Rule.Built (.leaf lens Merge.scalar)
  | list {S F : Type} [DecidableEq F] {lens : Lens S (List F)} (made : lens.Made) :
      Rule.Built (.leaf lens Merge.list)

/-- Trees of groups, single values and lists. -/
inductive Rules.Built : {S : Type} → Rules S → Prop
  | nil {S : Type} : Rules.Built (.nil : Rules S)
  | cons {S : Type} {first : Rule S} {rest : Rules S} (head : Rule.Built first)
      (tail : Rules.Built rest) : Rules.Built (.cons first rest)

end

theorem Rule.Built.made_leaf {lens : Lens S F} {strategy : Strategy F}
    (h : (Rule.leaf lens strategy).Built) : lens.Made := by
  cases h with
  | scalar made => exact made
  | list made => exact made

theorem Rule.Built.made_group [DecidableEq F] {lens : Lens S F} {placeholder : F}
    {children : Rules F} (h : (Rule.group lens placeholder children).Built) : lens.Made := by
  cases h with
  | group made _ => exact made

theorem Rule.Built.children [DecidableEq F] {lens : Lens S F} {placeholder : F}
    {children : Rules F} (h : (Rule.group lens placeholder children).Built) : children.Built := by
  cases h with
  | group _ built => exact built

/-! ## Places -/

mutual

/-- A node of a tree of rules, with the way to it. The type is that of the part the node looks at. -/
inductive Rule.Place : {S : Type} → Rule S → Type → Type 1
  | scalar {S F : Type} [DecidableEq F] {lens : Lens S F} : Rule.Place (.leaf lens Merge.scalar) F
  | list {S F : Type} [DecidableEq F] {lens : Lens S (List F)} :
      Rule.Place (.leaf lens Merge.list) (List F)
  | group {S F : Type} [DecidableEq F] {lens : Lens S F} {placeholder : F} {children : Rules F} :
      Rule.Place (.group lens placeholder children) F
  /-- A place below a group. -/
  | inside {S G F : Type} [DecidableEq G] {lens : Lens S G} {placeholder : G} {children : Rules G}
      (place : Rules.Place children F) : Rule.Place (.group lens placeholder children) F

/-- A node of one of several trees. -/
inductive Rules.Place : {S : Type} → Rules S → Type → Type 1
  | first {S F : Type} {first : Rule S} {rest : Rules S} (place : Rule.Place first F) :
      Rules.Place (.cons first rest) F
  | later {S F : Type} {first : Rule S} {rest : Rules S} (place : Rules.Place rest F) :
      Rules.Place (.cons first rest) F

end

mutual

def Rule.Place.view : {S F : Type} → {rule : Rule S} → rule.Place F → S → Option F
  | _, _, _, @Rule.Place.scalar _ _ _ lens, s => lens.get s
  | _, _, _, @Rule.Place.list _ _ _ lens, s => lens.get s
  | _, _, _, @Rule.Place.group _ _ _ lens _ _, s => lens.get s
  | _, _, _, @Rule.Place.inside _ _ _ _ lens _ _ place, s => (lens.get s).bind place.view

/-- The part that a node of one of several trees looks at. -/
def Rules.Place.view : {S F : Type} → {rules : Rules S} → rules.Place F → S → Option F
  | _, _, _, .first place, s => place.view s
  | _, _, _, .later place, s => place.view s

end

mutual

/-- A part is missing if it is absent although all groups around it are there. -/
def Rule.Place.Missing : {S F : Type} → {rule : Rule S} → rule.Place F → S → Prop
  | _, _, _, @Rule.Place.scalar _ _ _ lens, s => lens.get s = none
  | _, _, _, @Rule.Place.list _ _ _ lens, s => lens.get s = none
  | _, _, _, @Rule.Place.group _ _ _ lens _ _, s => lens.get s = none
  | _, _, _, @Rule.Place.inside _ _ _ _ lens _ _ place, s =>
    ∃ part, lens.get s = some part ∧ place.Missing part

/-- A part of one of several trees is missing if it is absent although all groups around it are there. -/
def Rules.Place.Missing : {S F : Type} → {rules : Rules S} → rules.Place F → S → Prop
  | _, _, _, .first place, s => place.Missing s
  | _, _, _, .later place, s => place.Missing s

end

mutual

/-- Whether all groups around a node were edited here, so that its own rule decides. -/
def Rule.Place.Edited : {S F : Type} → {rule : Rule S} → rule.Place F → (base here : S) → Prop
  | _, _, _, @Rule.Place.scalar _ _ _ _, _, _ => True
  | _, _, _, @Rule.Place.list _ _ _ _, _, _ => True
  | _, _, _, @Rule.Place.group _ _ _ _ _ _, _, _ => True
  | _, _, _, @Rule.Place.inside _ _ _ _ lens _ _ place, base, here =>
    ∃ part part', lens.get base = some part ∧ lens.get here = some part' ∧ part ≠ part' ∧
      place.Edited part part'

/-- Whether all groups around a node of one of several trees were edited here. -/
def Rules.Place.Edited : {S F : Type} → {rules : Rules S} → rules.Place F → (base here : S) → Prop
  | _, _, _, .first place, base, here => place.Edited base here
  | _, _, _, .later place, base, here => place.Edited base here

end

mutual

/-- What the rule of a node makes of a part that all versions lack. -/
def Rule.Place.leftover : {S F : Type} → {rule : Rule S} → rule.Place F → Option F
  | _, _, _, @Rule.Place.scalar _ _ _ _ => none
  | _, _, _, @Rule.Place.list _ _ _ _ => some []
  | _, _, _, @Rule.Place.group _ _ _ _ _ _ => none
  | _, _, _, @Rule.Place.inside _ _ _ _ _ _ _ place => place.leftover

/-- What the rule of a node of one of several trees makes of a part that all versions lack. -/
def Rules.Place.leftover : {S F : Type} → {rules : Rules S} → rules.Place F → Option F
  | _, _, _, .first place => place.leftover
  | _, _, _, .later place => place.leftover

end

/-! ## Later rules -/

mutual

/-- Rules that never fill a part that all versions lack: they write past it, or they write a single
value or a group that it is a part of, or that group itself. -/
inductive Rule.Avoids : {S α : Type} → Rule S → (S → Option α) → Prop
  | spares {S α : Type} {rule : Rule S} {view : S → Option α} (h : rule.Spares view) :
      Rule.Avoids rule view
  | scalar {S F α : Type} [DecidableEq F] {lens : Lens S F} {view : S → Option α} {inner : F → Option α}
      (h : ∀ s, view s = (lens.get s).bind inner) : Rule.Avoids (.leaf lens Merge.scalar) view
  | group {S F α : Type} [DecidableEq F] {lens : Lens S F} {placeholder : F} {children : Rules F}
      {view : S → Option α} (h : ∀ s, view s = none ↔ lens.get s = none) :
      Rule.Avoids (.group lens placeholder children) view
  /-- The children avoid the part, and the placeholder does not show it. -/
  | inside {S F α : Type} [DecidableEq F] {lens : Lens S F} {placeholder : F} {children : Rules F}
      {view : S → Option α} {inner : F → Option α} (h : ∀ s, view s = (lens.get s).bind inner)
      (placed : (∀ s, lens.get s ≠ none) ∨ inner placeholder = none)
      (avoids : Rules.Avoids children inner) : Rule.Avoids (.group lens placeholder children) view

/-- Several rules that never fill a part that all versions lack. -/
inductive Rules.Avoids : {S α : Type} → Rules S → (S → Option α) → Prop
  | nil {S α : Type} {view : S → Option α} : Rules.Avoids .nil view
  | cons {S α : Type} {first : Rule S} {rest : Rules S} {view : S → Option α}
      (head : Rule.Avoids first view) (tail : Rules.Avoids rest view) :
      Rules.Avoids (.cons first rest) view

end

mutual

/-- The rules that come after a place write past it. -/
def Rule.Place.Apart : {S F : Type} → {rule : Rule S} → rule.Place F → Prop
  | _, _, _, @Rule.Place.scalar _ _ _ _ => True
  | _, _, _, @Rule.Place.list _ _ _ _ => True
  | _, _, _, @Rule.Place.group _ _ _ _ _ _ => True
  | _, _, _, @Rule.Place.inside _ _ _ _ _ _ _ place => place.Apart

/-- The rules that come after a place in one of several trees write past it. -/
def Rules.Place.Apart : {S F : Type} → {rules : Rules S} → rules.Place F → Prop
  | _, _, _, @Rules.Place.first _ _ _ rest place => rest.Spares place.view ∧ place.Apart
  | _, _, _, .later place => place.Apart

end

mutual

/-- The rules that come after a place never fill it. -/
def Rule.Place.Clear : {S F : Type} → {rule : Rule S} → rule.Place F → Prop
  | _, _, _, @Rule.Place.scalar _ _ _ _ => True
  | _, _, _, @Rule.Place.list _ _ _ _ => True
  | _, _, _, @Rule.Place.group _ _ _ _ _ _ => True
  | _, _, _, @Rule.Place.inside _ _ _ _ _ _ _ place => place.Clear

/-- The rules that come after a place in one of several trees never fill it. -/
def Rules.Place.Clear : {S F : Type} → {rules : Rules S} → rules.Place F → Prop
  | _, _, _, @Rules.Place.first _ _ _ rest place => rest.Avoids place.view ∧ place.Clear
  | _, _, _, .later place => place.Clear

end

/-! ## Parts that all versions lack -/

/-- What none of the three versions has does not come out of merging a single value. -/
theorem Rule.get_merge_scalar [DecidableEq F] {lens : Lens S F} (hlens : lens.PutGet)
    {base here there : S} (hbase : lens.get base = none) (hhere : lens.get here = none)
    (hthere : lens.get there = none) (carrier : S) :
    lens.get ((Rule.leaf lens Merge.scalar).merge base here there carrier) = none := by
  have hmerged : Merge.scalar (none : Option F) none none = none := rfl
  rw [Rule.merge, hbase, hhere, hthere, hmerged]
  exact hlens.get_set_none hbase carrier

/-- A list that all versions lack is merged to an empty one. -/
theorem Rule.get_merge_list [DecidableEq F] {lens : Lens S (List F)} (hlens : lens.PutGet)
    {base here there : S} (hbase : lens.get base = none) (hhere : lens.get here = none)
    (hthere : lens.get there = none) (carrier : S) :
    lens.get ((Rule.leaf lens Merge.list).merge base here there carrier) = some [] := by
  have hmerged : Merge.list (none : Option (List F)) none none = some [] := rfl
  rw [Rule.merge, hbase, hhere, hthere, hmerged]
  exact hlens.some_seen carrier []

/-- A group that neither side has is gone, whatever the base has. -/
theorem Rule.get_merge_group [DecidableEq F] {lens : Lens S F} {placeholder : F}
    {children : Rules F} (hlens : lens.PutGet) {here there : S} (hhere : lens.get here = none)
    (hthere : lens.get there = none) (base carrier : S) :
    lens.get ((Rule.group lens placeholder children).merge base here there carrier) = none := by
  rw [Rule.merge, if_pos ⟨hhere, hthere⟩]
  exact hlens.get_set_none hhere carrier

mutual

/-- A part that all versions lack is not filled. -/
theorem Rule.Avoids.absent {S α : Type} {rule : Rule S} {view : S → Option α} (h : rule.Avoids view)
    (built : rule.Built) {base here there carrier : S} (hbase : view base = none)
    (hhere : view here = none) (hthere : view there = none) (hcarrier : view carrier = none) :
    view (rule.merge base here there carrier) = none := by
  cases h with
  | spares h => rw [Rule.view_merge h, hcarrier]
  | @scalar _ _ _ _ lens _ _ h =>
      rw [h] at hbase hhere hthere ⊢
      have hlens := built.made_leaf.putGet
      rw [Rule.merge]
      -- One of the three versions is put in, and each of them lacks the part.
      rcases scalar_eq_version (lens.get base) (lens.get here) (lens.get there) with hmerged | hmerged | hmerged
      · rw [hmerged, hlens.get_set_get, hthere]
      · rw [hmerged, hlens.get_set_get, hhere]
      · rw [hmerged, hlens.get_set_get, hbase]
  | group h =>
      rw [h] at hhere hthere ⊢
      exact Rule.get_merge_group built.made_group.putGet hhere hthere _ carrier
  | @inside _ _ _ _ lens placeholder _ _ inner h placed avoids =>
      rw [h] at hbase hhere hthere hcarrier ⊢
      have hlens := built.made_group.putGet
      have hgetD := lens.view_getD_of_placed placed
      rw [Rule.merge]
      split
      next habsent => rw [hlens.get_set_none habsent.1, Option.bind_none]
      next =>
        split
        next => rw [hlens.get_set_get, hthere]
        next =>
          rw [hlens.some_seen, Option.bind_some]
          exact avoids.absent built.children ((hgetD _).trans hbase) ((hgetD _).trans hhere)
            ((hgetD _).trans hthere) ((hgetD _).trans hcarrier)

/-- A part that all versions lack is not filled by any of several rules. -/
theorem Rules.Avoids.absent {S α : Type} {rules : Rules S} {view : S → Option α}
    (h : rules.Avoids view) (built : rules.Built) {base here there carrier : S}
    (hbase : view base = none) (hhere : view here = none) (hthere : view there = none)
    (hcarrier : view carrier = none) : view (rules.merge base here there carrier) = none := by
  cases h with
  | nil => rwa [Rules.merge]
  | cons head tail =>
      cases built with
      | cons hfirst hrest =>
          rw [Rules.merge]
          exact tail.absent hrest hbase hhere hthere (head.absent hfirst hbase hhere hthere hcarrier)

end

/-! ## What stays absent -/

mutual

/-- A missing part is absent. -/
theorem Rule.Place.absent_of_missing {S F : Type} {rule : Rule S} (place : rule.Place F) {s : S} :
    place.Missing s → place.view s = none := by
  cases place with
  | scalar => exact fun h => h
  | list => exact fun h => h
  | group => exact fun h => h
  | inside place =>
      rintro ⟨part, hpart, hmissing⟩
      rw [Rule.Place.view, hpart]
      exact place.absent_of_missing hmissing

/-- A missing part of one of several trees is absent. -/
theorem Rules.Place.absent_of_missing {S F : Type} {rules : Rules S} (place : rules.Place F) {s : S} :
    place.Missing s → place.view s = none := by
  cases place with
  | first place => exact place.absent_of_missing
  | later place => exact place.absent_of_missing

end

mutual

/-- A part that all versions lack stays absent, unless its own rule makes something of it. -/
theorem Rule.Place.absent_of_clear {S F : Type} {rule : Rule S} (place : rule.Place F)
    {base here there : S} (carrier : S) :
    rule.Built → place.Clear → place.Missing base → place.Missing here → place.Missing there →
      place.leftover = none ∨ ¬ place.Edited base here →
        place.view (rule.merge base here there carrier) = none := by
  cases place with
  | scalar =>
      intro built _ hbase hhere hthere _
      exact Rule.get_merge_scalar built.made_leaf.putGet hbase hhere hthere carrier
  | list =>
      rintro _ _ _ _ _ (hleftover | huntouched)
      · cases hleftover
      · exact absurd trivial huntouched
  | group =>
      intro built _ _ hhere hthere _
      exact Rule.get_merge_group built.made_group.putGet hhere hthere _ carrier
  | @inside _ _ _ _ lens _ _ place =>
      rintro built clear ⟨b, hb, hbase⟩ ⟨l, hl, hhere⟩ ⟨r, hr, hthere⟩ h
      have hlens := built.made_group.putGet
      rw [Rule.Place.view, Rule.merge, hb, hl, hr]
      split
      next habsent => cases habsent.1
      next =>
        split
        next =>
          -- The group is taken from the server, where the part is missing as well.
          rw [hlens.some_seen]
          exact place.absent_of_missing hthere
        next hedited =>
          have hinside : place.leftover = none ∨ ¬ place.Edited b l :=
            h.imp_right fun h hplace => h ⟨b, l, hb, hl, fun heq => hedited (heq ▸ rfl), hplace⟩
          rw [hlens.some_seen, Option.bind_some]
          exact place.absent_of_clear _ built.children clear hbase hhere hthere hinside

/-- A part of one of several trees stays absent, unless its own rule makes something of it. -/
theorem Rules.Place.absent_of_clear {S F : Type} {rules : Rules S} (place : rules.Place F)
    {base here there : S} (carrier : S) :
    rules.Built → place.Clear → place.Missing base → place.Missing here → place.Missing there →
      place.leftover = none ∨ ¬ place.Edited base here →
        place.view (rules.merge base here there carrier) = none := by
  cases place with
  | first place =>
      rintro (_ | ⟨hfirst, hrest⟩) clear hbase hhere hthere h
      have hmerged := place.absent_of_clear carrier hfirst clear.2 hbase hhere hthere h
      rw [Rules.merge]
      exact clear.1.absent hrest (place.absent_of_missing hbase) (place.absent_of_missing hhere)
        (place.absent_of_missing hthere) hmerged
  | later place =>
      rintro (_ | ⟨_, hrest⟩) clear hbase hhere hthere h
      rw [Rules.merge]
      exact place.absent_of_clear _ hrest clear hbase hhere hthere h

end

mutual

/-- In groups that were all edited here, a part that all versions lack is what its own rule makes of
it. -/
theorem Rule.Place.leftover_of_apart {S F : Type} {rule : Rule S} (place : rule.Place F)
    {base here there : S} (carrier : S) :
    rule.Built → place.Apart → place.Missing base → place.Missing here → place.Missing there →
      place.Edited base here → place.view (rule.merge base here there carrier) = place.leftover := by
  cases place with
  | scalar =>
      intro built _ hbase hhere hthere _
      exact Rule.get_merge_scalar built.made_leaf.putGet hbase hhere hthere carrier
  | list =>
      intro built _ hbase hhere hthere _
      exact Rule.get_merge_list built.made_leaf.putGet hbase hhere hthere carrier
  | group =>
      intro built _ _ hhere hthere _
      exact Rule.get_merge_group built.made_group.putGet hhere hthere _ carrier
  | @inside _ _ _ _ lens _ _ place =>
      rintro built apart ⟨b, hb, hbase⟩ ⟨l, hl, hhere⟩ ⟨r, hr, hthere⟩
        ⟨b', l', hb', hl', hne, hedited⟩
      obtain rfl : b = b' := Option.some.inj (hb.symm.trans hb')
      obtain rfl : l = l' := Option.some.inj (hl.symm.trans hl')
      -- All three have the group and it was edited, so its children are merged inside it.
      rw [Rule.Place.view, Rule.merge, hb, hl, hr, if_neg (fun habsent => nomatch habsent.1),
        if_neg (fun heq => hne (Option.some.inj heq)), built.made_group.putGet.some_seen,
        Option.bind_some]
      exact place.leftover_of_apart _ built.children apart hbase hhere hthere hedited

/-- A part of one of several trees is what its own rule makes of it. -/
theorem Rules.Place.leftover_of_apart {S F : Type} {rules : Rules S} (place : rules.Place F)
    {base here there : S} (carrier : S) :
    rules.Built → place.Apart → place.Missing base → place.Missing here → place.Missing there →
      place.Edited base here →
        place.view (rules.merge base here there carrier) = place.leftover := by
  cases place with
  | first place =>
      rintro (_ | ⟨hfirst, hrest⟩) apart hbase hhere hthere hedited
      rw [Rules.merge, Rules.Place.view, Rules.view_merge apart.1]
      exact place.leftover_of_apart carrier hfirst apart.2 hbase hhere hthere hedited
  | later place =>
      rintro (_ | ⟨_, hrest⟩) apart hbase hhere hthere hedited
      rw [Rules.merge]
      exact place.leftover_of_apart _ hrest apart hbase hhere hthere hedited

end

/-- What becomes of a part that all versions lack, at any place of any tree and whatever the carrier.
It stays absent if its rule makes nothing of it, as all rules but those for lists do, or if a group
around it was not touched here; it is enough that later rules do not fill it. Else, in groups that were
all edited here, it is what its rule makes of it: a list that all versions lack becomes an empty one. -/
theorem Rule.Place.stays_absent {rule : Rule S} (place : rule.Place F) (built : rule.Built)
    {base here there : S} (hbase : place.Missing base) (hhere : place.Missing here)
    (hthere : place.Missing there) (carrier : S) :
    (place.Clear → place.leftover = none ∨ ¬ place.Edited base here →
      place.view (rule.merge base here there carrier) = none) ∧
    (place.Apart → place.Edited base here →
      place.view (rule.merge base here there carrier) = place.leftover) := by
  refine ⟨?_, ?_⟩
  · intro clear h
    exact place.absent_of_clear carrier built clear hbase hhere hthere h
  · intro apart hedited
    exact place.leftover_of_apart carrier built apart hbase hhere hthere hedited

/-- A rule for tags that may be lacking and a number beside them. -/
def taggedRule : Rule (Option (List Nat) × Nat) :=
  .group .id (none, 0) (.ofList [
    .leaf (.optional Prod.fst fun s tags => (tags, s.2)) Merge.list,
    .leaf (.field Prod.snd fun s number => (s.1, number)) Merge.scalar])

def tagsPlace : taggedRule.Place (List Nat) := .inside (.first .list)

theorem taggedRule_built : taggedRule.Built :=
  .group .id (.cons (.list (.optional fun _ _ => rfl)) (.cons (.scalar (.field fun _ _ => rfl)) .nil))

theorem tagsPlace_missing (number : Nat) : tagsPlace.Missing (none, number) :=
  ⟨(none, number), rfl, rfl⟩

/-- Tags that all versions lack stay absent while the number is as in the base, and are an empty list
once it was changed here. -/
theorem Rule.Place.stays_absent_tags :
    tagsPlace.view (taggedRule.merge (none, 0) (none, 0) (none, 1) (none, 1)) = none ∧
      tagsPlace.view (taggedRule.merge (none, 0) (none, 1) (none, 0) (none, 0)) = some [] := by
  have hspares : (Rules.cons (Rule.leaf (.field Prod.snd fun s number => (s.1, number)) Merge.scalar)
      .nil).Spares fun s : Option (List Nat) × Nat => s.1 := by
    refine ⟨?_, trivial⟩
    rintro s (_ | number) <;> rfl
  have hmissing := tagsPlace_missing
  refine ⟨?_, ?_⟩
  · refine (tagsPlace.stays_absent taggedRule_built (hmissing 0) (hmissing 0) (hmissing 1)
      (none, 1)).1 ⟨.cons (.spares hspares.1) .nil, trivial⟩ (.inr ?_)
    rintro ⟨b, l, hb, hl, hne, _⟩
    exact hne (Option.some.inj (hb.symm.trans hl))
  · exact (tagsPlace.stays_absent taggedRule_built (hmissing 0) (hmissing 1) (hmissing 0)
      (none, 0)).2 ⟨hspares, trivial⟩ ⟨(none, 0), (none, 1), rfl, rfl, by decide, trivial⟩

/-- So tags that the base, both sides and the carrier lack are not absent in the merged value. -/
theorem tags_appear :
    taggedRule.Built ∧ tagsPlace.Missing (none, 0) ∧ tagsPlace.Missing (none, 1) ∧
      tagsPlace.view (taggedRule.merge (none, 0) (none, 1) (none, 0) (none, 0)) ≠ none :=
  ⟨taggedRule_built, tagsPlace_missing 0, tagsPlace_missing 1, by decide⟩

end Merge
end PasswordVault
