import Mathlib.Data.List.Forall2
import Mathlib.Data.List.Nodup

/-!
# Sequences

A sequence of steps that may fail succeeds only if each step does, on what the one before it has
left. Two sequences can also be related one by one, and entries are found by their keys.
-/

namespace SchemaDocs

variable {error α β : Type}

/-- What holds of all members is decided by going through these, even if their type is finite. -/
instance (priority := 2000) decidableMembers {items : List α} {motive : α → Prop} [DecidablePred motive] :
    Decidable (∀ item ∈ items, motive item) :=
  List.decidableBAll motive items

theorem bind_eq_ok_iff {first : Except error α} {next : α → Except error β} {result : β} :
    first >>= next = .ok result ↔ ∃ value, first = .ok value ∧ next value = .ok result := by
  cases first with
  | error fault =>
    constructor
    · intro h
      cases h
    · rintro ⟨_, h, -⟩
      cases h
  | ok value =>
    constructor
    · intro h
      exact ⟨value, rfl, h⟩
    · rintro ⟨other, hvalue, h⟩
      obtain rfl := Except.ok.inj hvalue
      exact h

theorem bind_eq_error_iff {first : Except error α} {next : α → Except error β} {reason : error} :
    first >>= next = .error reason ↔ first = .error reason ∨ ∃ value, first = .ok value ∧ next value = .error reason := by
  cases first with
  | error other => simp [bind, Except.bind]
  | ok value => simp [bind, Except.bind]

theorem eq_ok_of_toOption {outcome : Except error α} {value : α} (h : outcome.toOption = some value) :
    outcome = .ok value := by
  cases outcome with
  | error fault => cases h
  | ok other => exact congrArg Except.ok (Option.some.inj h)

/-- Two computations that give the same if they give anything fail both, or give it. -/
theorem cases_of_toOption {left right : Except error α} (h : right.toOption = left.toOption) :
    (∃ fault other, left = .error fault ∧ right = .error other) ∨ ∃ value, left = .ok value ∧ right = .ok value := by
  cases left with
  | error fault =>
    cases right with
    | error other => exact .inl ⟨fault, other, rfl, rfl⟩
    | ok value => cases h
  | ok value =>
    cases right with
    | error other => cases h
    | ok result => exact .inr ⟨value, rfl, congrArg Except.ok (Option.some.inj h)⟩

theorem toOption_map (f : α → β) (outcome : Except error α) : (outcome.map f).toOption = outcome.toOption.map f := by
  cases outcome <;> rfl

theorem toOption_mapError (f : error → β) (outcome : Except error α) :
    (outcome.mapError f).toOption = outcome.toOption := by
  cases outcome <;> rfl

/-- What every step keeps is kept by all of them. -/
theorem foldlM_keeps {motive : β → Prop} {step : β → α → Except error β} {items : List α} {start final : β}
    (hstep : ∀ state next, ∀ item ∈ items, motive state → step state item = .ok next → motive next)
    (hstart : motive start) (h : items.foldlM step start = .ok final) : motive final := by
  induction items generalizing start with
  | nil =>
    obtain rfl := Except.ok.inj h
    exact hstart
  | cons item items ih =>
    rw [List.foldlM_cons] at h
    obtain ⟨middle, hfirst, hrest⟩ := bind_eq_ok_iff.mp h
    exact ih (fun state next item hitem => hstep state next item (List.mem_cons_of_mem _ hitem))
      (hstep start middle item List.mem_cons_self hstart hfirst) hrest

theorem countP_singleton_eq_count [BEq β] [LawfulBEq β] {item : α} {value : β} {p : α → Bool} {wanted : β}
    (h : p item ↔ value = wanted) : [item].countP p = [value].count wanted := by
  rw [List.countP_singleton, List.count_singleton]
  exact if_congr (h.trans beq_iff_eq.symm) rfl rfl

theorem find?_eq_some_iff_of_unique {p : α → Bool} {item : α} {items : List α}
    (hunique : ∀ left ∈ items, ∀ right ∈ items, p left → p right → left = right) :
    items.find? p = some item ↔ item ∈ items ∧ p item := by
  constructor
  · intro h
    exact ⟨List.mem_of_find?_eq_some h, List.find?_some h⟩
  · intro ⟨hmem, hp⟩
    cases hfind : items.find? p with
    | none => exact absurd hp (List.find?_eq_none.mp hfind item hmem)
    | some other => rw [hunique other (List.mem_of_find?_eq_some hfind) item hmem (List.find?_some hfind) hp]

theorem countP_eq_one_of_unique [DecidableEq α] {p : α → Bool} {item : α} {items : List α} (hnodup : items.Nodup)
    (hitem : item ∈ items) (hp : ∀ other ∈ items, p other ↔ other = item) : items.countP p = 1 := by
  rw [List.countP_congr (q := fun other => other == item) fun other hother => (hp other hother).trans beq_iff_eq.symm]
  exact List.count_eq_one_of_mem hnodup hitem

/-! ### Sequences related one by one -/

theorem exists_of_mem_forall₂ {Relates : α → β → Prop} {items : List α} {values : List β}
    (h : List.Forall₂ Relates items values) :
    (∀ value ∈ values, ∃ item ∈ items, Relates item value) ∧ ∀ item ∈ items, ∃ value ∈ values, Relates item value := by
  induction h with
  | nil => simp
  | @cons item value items values hfirst _ ih =>
    constructor
    · rw [List.forall_mem_cons]
      refine ⟨⟨item, List.mem_cons_self, hfirst⟩, fun other hother => ?_⟩
      obtain ⟨partner, hpartner, hrelates⟩ := ih.1 other hother
      exact ⟨partner, List.mem_cons_of_mem _ hpartner, hrelates⟩
    · rw [List.forall_mem_cons]
      refine ⟨⟨value, List.mem_cons_self, hfirst⟩, fun other hother => ?_⟩
      obtain ⟨partner, hpartner, hrelates⟩ := ih.2 other hother
      exact ⟨partner, List.mem_cons_of_mem _ hpartner, hrelates⟩

/-- What is the same on each side of related items is the same sequence. -/
theorem map_eq_map_of_forall₂ {γ : Type} {Relates : α → β → Prop} {items : List α} {values : List β} {left : α → γ}
    {right : β → γ} (hsame : ∀ item value, Relates item value → left item = right value)
    (h : List.Forall₂ Relates items values) : items.map left = values.map right := by
  induction h with
  | nil => rfl
  | cons hfirst _ ih => rw [List.map_cons, List.map_cons, hsame _ _ hfirst, ih]

theorem forall₂_imp_of_mem {Relates Holds : α → β → Prop} {items : List α} {values : List β}
    (h : List.Forall₂ Relates items values) (himp : ∀ item ∈ items, ∀ value, Relates item value → Holds item value) :
    List.Forall₂ Holds items values := by
  induction h with
  | nil => exact .nil
  | cons hfirst _ ih =>
    exact .cons (himp _ List.mem_cons_self _ hfirst) (ih fun item hitem => himp item (List.mem_cons_of_mem _ hitem))

theorem forall₂_append_cons {Relates : α → β → Prop} {items : List α} {front back : List β} {value : β}
    (h : List.Forall₂ Relates items (front ++ value :: back)) :
    ∃ before item after, items = before ++ item :: after ∧ List.Forall₂ Relates before front ∧ Relates item value ∧
      List.Forall₂ Relates after back := by
  induction front generalizing items with
  | nil =>
    obtain ⟨item, after, hitem, hafter, rfl⟩ := List.forall₂_cons_right_iff.mp h
    exact ⟨[], item, after, rfl, .nil, hitem, hafter⟩
  | cons first front ih =>
    obtain ⟨head, rest, hhead, hrest, rfl⟩ := List.forall₂_cons_right_iff.mp h
    obtain ⟨before, item, after, rfl, hbefore, hitem, hafter⟩ := ih hrest
    exact ⟨head :: before, item, after, rfl, .cons hhead hbefore, hitem, hafter⟩

/-- What stands at one place of two lists side by side is related, and so are the lists without it. -/
theorem forall₂_pick {Relates : α → β → Prop} {items : List α} {values : List β} (h : List.Forall₂ Relates items values)
    (pick : Nat) :
    (items[pick]? = none ∧ values[pick]? = none) ∨
      ∃ item value, items[pick]? = some item ∧ values[pick]? = some value ∧ Relates item value ∧
        List.Forall₂ Relates (items.eraseIdx pick) (values.eraseIdx pick) := by
  induction h generalizing pick with
  | nil => exact .inl ⟨rfl, rfl⟩
  | @cons first result items values hfirst hrest ih =>
    cases pick with
    | zero => exact .inr ⟨first, result, rfl, rfl, hfirst, hrest⟩
    | succ pick =>
      obtain ⟨hnone, hnoneOther⟩ | ⟨item, value, hitem, hvalue, hrelates, herased⟩ := ih pick
      · exact .inl ⟨hnone, hnoneOther⟩
      · exact .inr ⟨item, value, hitem, hvalue, hrelates, .cons hfirst herased⟩

theorem forall₂_filterMap (view : α → Option β) (items : List α) :
    List.Forall₂ (fun item value => view item = some value) (items.filter fun item => (view item).isSome)
      (items.filterMap view) := by
  induction items with
  | nil => exact .nil
  | cons item items ih =>
    cases hitem : view item with
    | none => rwa [List.filter_cons_of_neg (by simp [hitem]), List.filterMap_cons_none hitem]
    | some value =>
      rw [List.filter_cons_of_pos (by simp [hitem]), List.filterMap_cons_some hitem]
      exact .cons hitem ih

/-- Values are different if no two items with one value are related to the same. -/
theorem nodup_map_of_forall₂ {γ : Type} {Relates : α → β → Prop} {items : List α} {values : List β} {key : β → γ}
    (h : List.Forall₂ Relates items values) (hitems : items.Nodup)
    (hkey : ∀ left ∈ items, ∀ right ∈ items, ∀ a b, Relates left a → Relates right b → key a = key b → left = right) :
    (values.map key).Nodup := by
  induction h with
  | nil => exact List.nodup_nil
  | @cons item value items values hfirst hrest ih =>
    obtain ⟨hitem, hitems⟩ := List.nodup_cons.mp hitems
    rw [List.map_cons, List.nodup_cons]
    refine ⟨fun hmem => ?_, ih hitems fun left hleft right hright =>
      hkey left (List.mem_cons_of_mem _ hleft) right (List.mem_cons_of_mem _ hright)⟩
    obtain ⟨other, hother, hsame⟩ := List.mem_map.mp hmem
    obtain ⟨partner, hpartner, hrelates⟩ := (exists_of_mem_forall₂ hrest).1 other hother
    have heq := hkey partner (List.mem_cons_of_mem _ hpartner) item List.mem_cons_self other value hrelates hfirst hsame
    exact hitem (heq ▸ hpartner)

/-! ### Looking up keys -/

section Lookup

variable {κ : Type} [BEq κ] [LawfulBEq κ]

theorem lookup_eq_some_iff_mem {entries : List (κ × α)} (h : (entries.map Prod.fst).Nodup) {key : κ} {value : α} :
    entries.lookup key = some value ↔ (key, value) ∈ entries := by
  induction entries with
  | nil => simp
  | cons entry entries ih =>
    obtain ⟨name, first⟩ := entry
    obtain ⟨hname, hrest⟩ := List.nodup_cons.mp h
    rw [List.lookup_cons, List.mem_cons, Prod.mk.injEq]
    by_cases hkey : key = name
    · subst hkey
      have hnone : (key, value) ∉ entries := fun hmem => hname (List.mem_map.mpr ⟨_, hmem, rfl⟩)
      simp [hnone, eq_comm]
    · rw [beq_eq_false_iff_ne.mpr hkey]
      simp [hkey, ih hrest]

theorem lookup_map_of_mem (key : α → κ) (value : κ → β) {items : List α} {item : α} (h : item ∈ items) :
    (items.map fun other => (key other, value (key other))).lookup (key item) = some (value (key item)) := by
  induction items with
  | nil => cases h
  | cons other items ih =>
    rw [List.map_cons, List.lookup_cons]
    by_cases hsame : key item = key other
    · rw [beq_iff_eq.mpr hsame, hsame]
    · rw [beq_eq_false_iff_ne.mpr hsame]
      exact ih ((List.mem_cons.mp h).resolve_left fun hother => hsame (congrArg key hother))

end Lookup

/-! ### Sorting items into groups -/

/-- Items that are taken out key by key are all items, if each has one of the keys. -/
theorem perm_flatMap_filter {κ : Type} [DecidableEq κ] {key : α → κ} {keys : List κ} (hkeys : keys.Nodup)
    {items : List α}
    (hitems : ∀ item ∈ items, key item ∈ keys) : (keys.flatMap fun k => items.filter (key · = k)).Perm items := by
  induction keys generalizing items with
  | nil =>
    rw [List.eq_nil_iff_forall_not_mem.mpr fun item hitem => List.not_mem_nil (hitems item hitem)]
    exact .nil
  | cons k keys ih =>
    obtain ⟨hk, hkeys⟩ := List.nodup_cons.mp hkeys
    have hothers : (keys.flatMap fun other => items.filter (key · = other)) =
        keys.flatMap fun other => (items.filter fun item => !decide (key item = k)).filter (key · = other) := by
      refine List.flatMap_congr fun other hother => ?_
      rw [List.filter_filter]
      refine List.filter_congr fun item _ => ?_
      have hne : other ≠ k := fun heq => hk (heq ▸ hother)
      by_cases hitem : key item = other <;> simp [hitem, hne]
    rw [List.flatMap_cons, hothers]
    refine ((ih hkeys fun item hitem => ?_).append_left _).trans (List.filter_append_perm _ _)
    obtain ⟨hitem, hne⟩ := List.mem_filter.mp hitem
    exact (List.mem_cons.mp (hitems item hitem)).resolve_left (by simpa using hne)

end SchemaDocs
