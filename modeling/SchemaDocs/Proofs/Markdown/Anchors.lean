import SchemaDocs.Proofs.Markdown.Nesting
import SchemaDocs.Proofs.Text.Slugs
import Mathlib.Data.Finset.Card
import Mathlib.Order.Bounds.Basic
import Mathlib.Order.Nat

/-!
# Anchors of headings

The anchor of a heading is the first free candidate behind the anchors of the headings before it. No
two candidates are the same, so that one of as many as there are anchors, and one more, is free.
Anchors depend on the titles of the headings only, each on those up to its own.
-/

namespace SchemaDocs.Markdown

open Text (IsWord IsHyphenated)

/-! ### Candidates -/

theorem toList_anchorCandidate_succ (base : String) (attempt : Nat) :
    (anchorCandidate base (attempt + 1)).toList = base.toList ++ '-' :: (toString (attempt + 2)).toList := by
  rw [anchorCandidate, if_neg (Nat.succ_ne_zero attempt), String.toList_append, String.toList_append, List.append_assoc]
  rfl

private theorem anchorCandidate_injective {base : String} {left right : Nat}
    (h : anchorCandidate base left = anchorCandidate base right) : left = right := by
  have hlonger (attempt : Nat) : anchorCandidate base (attempt + 1) ≠ base := by
    intro hsame
    have hlength := congrArg (fun text => text.toList.length) hsame
    simp only [toList_anchorCandidate_succ, List.length_append, List.length_cons] at hlength
    omega
  cases left with
  | zero =>
    cases right with
    | zero => rfl
    | succ right => exact absurd h.symm (hlonger right)
  | succ left =>
    cases right with
    | zero => exact absurd h (hlonger left)
    | succ right =>
      have hlists := congrArg String.toList h
      rw [toList_anchorCandidate_succ, toList_anchorCandidate_succ, List.append_cancel_left_eq] at hlists
      have hnumber : left + 2 = right + 2 := Text.toString_injective (String.toList_injective (List.cons.inj hlists).2)
      omega

theorem anchorBase_eq (title : String) :
    anchorBase title = if Text.slugify title = "" then "section" else Text.slugify title := by
  simp only [anchorBase, String.isEmpty_iff]

private theorem isHyphenated_anchorBase (title : String) : IsHyphenated (anchorBase title).toList := by
  rw [anchorBase]
  split
  · exact .word ⟨by decide, by decide⟩
  · rename_i hne
    rw [Text.slugify, String.toList_ofList]
    refine Text.isHyphenated_slug fun hnil => hne ?_
    rw [Text.slugify, hnil]
    rfl

private theorem isHyphenated_anchorCandidate (title : String) (attempt : Nat) :
    IsHyphenated (anchorCandidate (anchorBase title) attempt).toList := by
  cases attempt with
  | zero =>
    rw [anchorCandidate, if_pos rfl]
    exact isHyphenated_anchorBase title
  | succ attempt =>
    rw [toList_anchorCandidate_succ]
    exact (isHyphenated_anchorBase title).append_word (Text.isWord_toString _)

/-! ### The free candidate -/

/-- One of as many candidates as there are anchors in use, and one more, is free. -/
theorem exists_isLeast_free (used : Finset String) (base : String) :
    ∃ attempt ≤ used.card, IsLeast {free | anchorCandidate base free ∉ used} attempt := by
  have hfree : ∃ free ≤ used.card, anchorCandidate base free ∉ used := by
    by_contra! hused
    -- one candidate more than there are anchors would have to be among these, and all are different
    have hmaps : ∀ tried ∈ Finset.range (used.card + 1), anchorCandidate base tried ∈ used :=
      fun tried htried => hused tried (Finset.mem_range_succ_iff.mp htried)
    have hcard := Finset.card_le_card_of_injOn (anchorCandidate base) hmaps fun _ _ _ _ => anchorCandidate_injective
    rw [Finset.card_range] at hcard
    omega
  obtain ⟨free, hle, hfree⟩ := hfree
  have hexists : ∃ attempt, anchorCandidate base attempt ∉ used := ⟨free, hfree⟩
  exact ⟨Nat.find hexists, (Nat.find_min' hexists hfree).trans hle, Nat.isLeast_find hexists⟩

/-- The candidates before the first free one are used. -/
theorem mem_of_lt_isLeast {used : Finset String} {base : String} {attempt tried : Nat}
    (h : IsLeast {free | anchorCandidate base free ∉ used} attempt) (htried : tried < attempt) :
    anchorCandidate base tried ∈ used :=
  not_not.mp fun hfree => htried.not_ge (h.2 hfree)

private theorem freeAnchor_eq_of_isLeast {used : List String} {base : String} {fuel attempt first : Nat}
    (h : IsLeast {free | anchorCandidate base free ∉ used.toFinset} first) (hle : attempt ≤ first)
    (hfuel : first ≤ attempt + fuel) : freeAnchor used base fuel attempt = anchorCandidate base first := by
  induction fuel generalizing attempt with
  | zero => rw [freeAnchor, Nat.le_antisymm hle hfuel]
  | succ fuel ih =>
    rw [freeAnchor]
    rcases hle.eq_or_lt with rfl | hlt
    · have hfree : anchorCandidate base attempt ∉ used := mt List.mem_toFinset.mpr h.1
      exact if_neg (mt List.contains_iff_mem.mp hfree)
    · have hused : anchorCandidate base attempt ∈ used := List.mem_toFinset.mp (mem_of_lt_isLeast h hlt)
      exact (if_pos (List.contains_iff_mem.mpr hused)).trans (ih hlt (by omega))

/-- The anchor of a heading is the first candidate that is free. -/
theorem uniqueAnchor_eq_of_isLeast {used : List String} {title : String} {first : Nat}
    (h : IsLeast {free | anchorCandidate (anchorBase title) free ∉ used.toFinset} first) :
    uniqueAnchor used title = anchorCandidate (anchorBase title) first := by
  obtain ⟨least, hle, hleast⟩ := exists_isLeast_free used.toFinset (anchorBase title)
  have henough : least ≤ 0 + used.length := (hle.trans used.toFinset_card_le).trans_eq (Nat.zero_add _).symm
  rw [IsLeast.unique h hleast]
  exact freeAnchor_eq_of_isLeast hleast (Nat.zero_le least) henough

theorem exists_uniqueAnchor_eq (used : List String) (title : String) :
    ∃ attempt, anchorCandidate (anchorBase title) attempt ∉ used ∧
      uniqueAnchor used title = anchorCandidate (anchorBase title) attempt := by
  obtain ⟨first, -, hfirst⟩ := exists_isLeast_free used.toFinset (anchorBase title)
  exact ⟨first, mt List.mem_toFinset.mpr hfirst.1, uniqueAnchor_eq_of_isLeast hfirst⟩

theorem uniqueAnchor_not_mem (used : List String) (title : String) : uniqueAnchor used title ∉ used := by
  obtain ⟨attempt, hfree, hanchor⟩ := exists_uniqueAnchor_eq used title
  rwa [hanchor]

private theorem isHyphenated_uniqueAnchor (used : List String) (title : String) :
    IsHyphenated (uniqueAnchor used title).toList := by
  obtain ⟨attempt, -, hanchor⟩ := exists_uniqueAnchor_eq used title
  rw [hanchor]
  exact isHyphenated_anchorCandidate title attempt

/-! ### Anchors of titles -/

/-- The anchors of headings with the given titles, behind headings that use the given anchors. -/
def anchorsFrom : (used : List String) → (titles : List String) → List String
  | _, [] => []
  | used, title :: titles =>
    uniqueAnchor used title :: anchorsFrom (uniqueAnchor used title :: used) titles

section

variable {used titles : List String}

/-- Anchors are new, and differ from each other. -/
theorem nodup_anchorsFrom : (anchorsFrom used titles).Nodup ∧ ∀ anchor ∈ anchorsFrom used titles, anchor ∉ used := by
  induction titles generalizing used with
  | nil => exact ⟨.nil, nofun⟩
  | cons title titles ih =>
    obtain ⟨hnodup, hnew⟩ := @ih (uniqueAnchor used title :: used)
    rw [anchorsFrom, List.nodup_cons, List.forall_mem_cons]
    refine ⟨⟨fun hmem => ?_, hnodup⟩, uniqueAnchor_not_mem used title, fun anchor hanchor hused => ?_⟩
    · exact hnew _ hmem List.mem_cons_self
    · exact hnew anchor hanchor (List.mem_cons_of_mem _ hused)

theorem isHyphenated_of_mem_anchorsFrom : ∀ anchor ∈ anchorsFrom used titles, IsHyphenated anchor.toList := by
  induction titles generalizing used with
  | nil => exact nofun
  | cons title titles ih => exact List.forall_mem_cons.mpr ⟨isHyphenated_uniqueAnchor used title, ih⟩

theorem take_anchorsFrom (count : Nat) :
    (anchorsFrom used titles).take count = anchorsFrom used (titles.take count) := by
  induction titles generalizing used count with
  | nil => simp [anchorsFrom]
  | cons title titles ih =>
    cases count with
    | zero => rfl
    | succ count => rw [anchorsFrom, List.take_succ_cons, List.take_succ_cons, anchorsFrom, ih]

private theorem getElem?_anchorsFrom {position : Nat} {title : String} (h : titles[position]? = some title) :
    (anchorsFrom used titles)[position]? =
      some (uniqueAnchor (((anchorsFrom used titles).take position).reverse ++ used) title) := by
  induction titles generalizing used position with
  | nil => cases h
  | cons first titles ih =>
    cases position with
    | zero =>
      obtain rfl : first = title := Option.some.inj h
      rfl
    | succ position =>
      rw [anchorsFrom, List.getElem?_cons_succ, ih h, List.take_succ_cons, List.reverse_cons, List.append_assoc]
      rfl

end

/-! ### Headings -/

section

variable {used : List String} {event : Event}

theorem headingsFrom_start (current : Option (Nat × String)) (level : Nat) (anchor : Option String)
    (events : List Event) :
    headingsFrom used current (.start (.heading level anchor) :: events) = headingsFrom used (some (level, "")) events := by
  cases current <;> rfl

theorem headingsFrom_stop (level other : Nat) (title : String) (events : List Event) :
    headingsFrom used (some (level, title)) (.stop (.heading other) :: events) =
      ⟨title, uniqueAnchor used title, level⟩ :: headingsFrom (uniqueAnchor used title :: used) none events := rfl

theorem exists_headingsFrom_of_apart (used : List String) (current : Option (Nat × String))
    (h : event.marksHeading = false) :
    ∃ next, next.map Prod.fst = current.map Prod.fst ∧
      ∀ events, headingsFrom used current (event :: events) = headingsFrom used next events := by
  cases event with
  | start tag =>
    refine ⟨current, rfl, fun events => ?_⟩
    cases tag with
    | heading level anchor => cases h
    | _ => rfl
  | stop tag =>
    refine ⟨current, rfl, fun events => ?_⟩
    cases tag with
    | heading level => cases h
    | _ => rfl
  | text text =>
    cases current with
    | none => exact ⟨none, rfl, fun _ => rfl⟩
    | some heading => exact ⟨some (heading.1, heading.2 ++ text), rfl, fun _ => rfl⟩
  | code text =>
    cases current with
    | none => exact ⟨none, rfl, fun _ => rfl⟩
    | some heading => exact ⟨some (heading.1, heading.2 ++ text), rfl, fun _ => rfl⟩
  | _ => exact ⟨current, rfl, fun _ => rfl⟩

private theorem headingsFrom_cases (used : List String) (current : Option (Nat × String)) (event : Event) :
    (∃ next, ∀ events, headingsFrom used current (event :: events) = headingsFrom used next events) ∨
      ∃ level title, ∀ events, headingsFrom used current (event :: events) =
        ⟨title, uniqueAnchor used title, level⟩ :: headingsFrom (uniqueAnchor used title :: used) none events := by
  cases hmark : event.marksHeading with
  | false =>
    obtain ⟨next, -, hnext⟩ := exists_headingsFrom_of_apart used current hmark
    exact .inl ⟨next, hnext⟩
  | true =>
    unfold Event.marksHeading at hmark
    split at hmark
    · exact .inl ⟨_, headingsFrom_start current _ _⟩
    · rcases current with _ | ⟨level, title⟩
      · exact .inl ⟨none, fun _ => rfl⟩
      · exact .inr ⟨level, title, headingsFrom_stop level _ title⟩
    · cases hmark

/-- Headings have the anchors of their titles. -/
theorem ids_headingsFrom (used : List String) (current : Option (Nat × String)) (events : List Event) :
    (headingsFrom used current events).map (·.id) = anchorsFrom used ((headingsFrom used current events).map (·.title)) := by
  induction events generalizing used current with
  | nil => rfl
  | cons event events ih =>
    rcases headingsFrom_cases used current event with ⟨next, hnext⟩ | ⟨level, title, hentry⟩
    · rw [hnext, ih]
    · rw [hentry, List.map_cons, List.map_cons, ih, anchorsFrom]

/-- The anchor of a heading is that of its title behind the anchors of the headings before it. -/
theorem id_eq_uniqueAnchor {events : List Event} {position : Nat} {entry : TocEntry}
    (h : (headings events)[position]? = some entry) :
    entry.id = uniqueAnchor (((headings events).take position).map (·.id)).reverse entry.title := by
  have hids : (headings events).map (·.id) = anchorsFrom [] ((headings events).map (·.title)) := ids_headingsFrom ..
  have htitle : ((headings events).map (·.title))[position]? = some entry.title := by
    rw [List.getElem?_map, h, Option.map_some]
  have hid : ((headings events).map (·.id))[position]? = some entry.id := by
    rw [List.getElem?_map, h, Option.map_some]
  have hanchor : (anchorsFrom [] _)[position]? = some (uniqueAnchor _ entry.title) := getElem?_anchorsFrom htitle
  rw [← hids, hid, ← List.map_take, List.append_nil] at hanchor
  exact Option.some.inj hanchor

/-- Further events add headings behind those that are complete. -/
theorem headingsFrom_append (used : List String) (current : Option (Nat × String)) (events more : List Event) :
    headingsFrom used current events <+: headingsFrom used current (events ++ more) := by
  induction events generalizing used current with
  | nil => exact List.nil_prefix
  | cons event events ih =>
    rw [List.cons_append]
    rcases headingsFrom_cases used current event with ⟨next, hnext⟩ | ⟨level, title, hentry⟩
    · rw [hnext, hnext]
      exact ih used next
    · rw [hentry, hentry, List.prefix_cons_inj]
      exact ih _ none

end

end SchemaDocs.Markdown
