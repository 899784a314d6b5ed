import SchemaDocs.Page.Discovery
import SchemaDocs.Proofs.Storage.Listing

/-!
# Candidates for pages

A file can be a page if its name is a stem with an extension of pages and nothing on the way to it is passed
over. The search through a directory comes to these files, in the order of the listing, and to no others.
-/

namespace SchemaDocs.Discovery

open SchemaDocs.Tree (entryFiles)

/-! ### Names -/

theorem isReserved_eq_false_iff {name : String} :
    isReserved name = false ↔ name.toList.head? ≠ some '_' ∧ name.toList.head? ≠ some '.' := by
  rw [isReserved]
  cases name.toList <;> simp

/-- A name with an extension is the stem with the extension behind a dot. -/
theorem toList_of_splitExtension {name stem extension : String}
    (h : Path.splitExtension name = (stem, some extension)) :
    name.toList = stem.toList ++ '.' :: extension.toList := by
  rw [Path.splitExtension] at h
  split at h
  · rename_i after before hspan
    split at h
    · cases h
    · obtain ⟨rfl, hextension⟩ := Prod.mk.inj h
      obtain rfl := Option.some.inj hextension
      have hsplit : name.toList.reverse = after ++ '.' :: before := by
        have hparts := List.span_eq_takeWhile_dropWhile (fun c : Char => decide (c ≠ '.')) name.toList.reverse
        rw [hspan] at hparts
        obtain ⟨hafter, hbefore⟩ := Prod.mk.inj hparts
        rw [hafter, hbefore, List.takeWhile_append_dropWhile]
      rw [String.toList_ofList, String.toList_ofList, ← List.reverse_reverse name.toList, hsplit]
      simp
  · cases h

/-- A stem and an extension without dots can be told apart. -/
theorem splitExtension_append {stem extension : String} (hstem : stem ≠ "") (hextension : extension ≠ "")
    (hdot : '.' ∉ extension.toList) : Path.splitExtension (stem ++ "." ++ extension) = (stem, some extension) := by
  have htext : (stem ++ "." ++ extension).toList = stem.toList ++ '.' :: extension.toList := by simp
  have hspan : (stem ++ "." ++ extension).toList.reverse.span (· ≠ '.') =
      (extension.toList.reverse, '.' :: stem.toList.reverse) := by
    have hpass : ∀ c ∈ extension.toList.reverse, decide (c ≠ '.') := by
      intro c hc
      rw [decide_eq_true_iff]
      rintro rfl
      exact hdot (List.mem_reverse.mp hc)
    rw [htext, List.reverse_append, List.reverse_cons, List.append_assoc, List.singleton_append,
      List.span_eq_takeWhile_dropWhile, List.takeWhile_append_of_pos hpass, List.dropWhile_append_of_pos hpass]
    simp
  have hdots : stem ++ "." ++ extension ≠ ".." := by
    intro hname
    have hlength := congrArg (List.length ∘ String.toList) hname
    simp only [Function.comp_apply, htext, List.length_append, List.length_cons] at hlength
    have hstemLength := List.length_pos_iff.mpr (mt String.toList_eq_nil_iff.mp hstem)
    have hextensionLength := List.length_pos_iff.mpr (mt String.toList_eq_nil_iff.mp hextension)
    have htwo : "..".toList.length = 2 := rfl
    omega
  rw [Path.splitExtension, hspan]
  simp [hdots, hstem]

private theorem candidate?_eq_some_iff {directories : List String} {name : String} (hname : isReserved name = false)
    {content : ByteArray} {candidate : Candidate} :
    candidate? directories name content = some candidate ↔
      ∃ stem, (∃ extension ∈ ["md", "markdown"], name = stem ++ "." ++ extension) ∧
        candidate = ⟨directories ++ [stem], content⟩ := by
  constructor
  · intro h
    rw [candidate?] at h
    split at h
    · rename_i stem extension hsplit
      split at h
      · rename_i hextension
        obtain rfl := Option.some.inj h
        have htext := toList_of_splitExtension hsplit
        refine ⟨stem, ⟨extension, List.contains_iff_mem.mp hextension, String.toList_inj.mp ?_⟩, rfl⟩
        simp [htext]
      · cases h
    · cases h
  · rintro ⟨stem, ⟨extension, hextension, rfl⟩, rfl⟩
    have hstem : stem ≠ "" := by
      rintro rfl
      exact (isReserved_eq_false_iff.mp hname).2 (by simp)
    have hplain : ∀ extension ∈ ["md", "markdown"], extension ≠ "" ∧ '.' ∉ extension.toList := by decide
    obtain ⟨hne, hdot⟩ := hplain extension hextension
    rw [candidate?, splitExtension_append hstem hne hdot]
    exact if_pos (List.contains_iff_mem.mpr hextension)

/-! ### Places -/

/-- A place below the topmost directory where a page can be. The name there is the stem and an extension. -/
structure IsPagePlace (place directories : List String) (stem : String) : Prop where
  name : ∃ extension ∈ ["md", "markdown"], place = directories ++ [stem ++ "." ++ extension]
  shown : ∀ name ∈ place, name.toList.head? ≠ some '_' ∧ name.toList.head? ≠ some '.'

theorem isPagePlace_singleton_iff {name stem : String} {directories : List String} :
    IsPagePlace [name] directories stem ↔
      isReserved name = false ∧ directories = [] ∧ ∃ extension ∈ ["md", "markdown"], name = stem ++ "." ++ extension := by
  constructor
  · rintro ⟨⟨extension, hextension, hplace⟩, hshown⟩
    obtain ⟨hdirectories, hname⟩ := List.append_eq_singleton_iff.mp hplace.symm |>.resolve_right (by simp)
    exact ⟨isReserved_eq_false_iff.mpr (hshown name List.mem_cons_self), hdirectories, extension, hextension,
      (List.singleton_inj.mp hname).symm⟩
  · rintro ⟨hname, rfl, extension, hextension, rfl⟩
    exact ⟨⟨extension, hextension, rfl⟩, List.forall_mem_singleton.mpr (isReserved_eq_false_iff.mp hname)⟩

theorem isPagePlace_cons_iff {name stem : String} {place directories : List String} (hplace : place ≠ []) :
    IsPagePlace (name :: place) directories stem ↔
      isReserved name = false ∧ ∃ below, directories = name :: below ∧ IsPagePlace place below stem := by
  constructor
  · rintro ⟨⟨extension, hextension, hparts⟩, hshown⟩
    obtain ⟨hname, hrest⟩ := List.forall_mem_cons.mp hshown
    cases directories with
    | nil => exact absurd (List.cons.inj hparts).2 hplace
    | cons first below =>
      obtain ⟨rfl, hbelow⟩ := List.cons.inj hparts
      exact ⟨isReserved_eq_false_iff.mpr hname, below, rfl, ⟨extension, hextension, hbelow⟩, hrest⟩
  · rintro ⟨hname, below, rfl, ⟨extension, hextension, rfl⟩, hrest⟩
    exact ⟨⟨extension, hextension, rfl⟩, List.forall_mem_cons.mpr ⟨isReserved_eq_false_iff.mp hname, hrest⟩⟩

namespace IsPagePlace

variable {place directories : List String} {stem : String}

theorem stem_ne_empty (h : IsPagePlace place directories stem) : stem ≠ "" := by
  rintro rfl
  obtain ⟨extension, -, rfl⟩ := h.name
  exact (h.shown _ (List.mem_append_right _ List.mem_cons_self)).2 (by simp)

/-- The names that lead to a page begin as those that lead to its file. -/
theorem unreserved (h : IsPagePlace place directories stem) :
    ∀ name ∈ directories ++ [stem], isReserved name = false := by
  obtain ⟨extension, -, rfl⟩ := h.name
  obtain ⟨hdirectories, hname⟩ := List.forall_mem_append.mp h.shown
  refine List.forall_mem_append.mpr ⟨fun name hmem => isReserved_eq_false_iff.mpr (hdirectories name hmem), ?_⟩
  obtain ⟨c, rest, hstem⟩ := List.exists_cons_of_ne_nil (mt String.toList_eq_nil_iff.mp h.stem_ne_empty)
  have hfirst := List.forall_mem_singleton.mp hname
  rw [String.toList_append, String.toList_append, hstem] at hfirst
  exact List.forall_mem_singleton.mpr (isReserved_eq_false_iff.mpr (hstem ▸ hfirst))

end IsPagePlace

/-! ### The search -/

def candidateBelow? : (directories : List String) → (place : List String) → (content : ByteArray) → Option Candidate
  | _, [], _ => none
  | directories, [name], content => if isReserved name then none else candidate? directories name content
  | directories, name :: next :: place, content =>
    if isReserved name then none else candidateBelow? (directories ++ [name]) (next :: place) content

theorem candidateBelow?_cons {name : String} (hname : isReserved name = false) (directories : List String)
    {place : List String} (hplace : place ≠ []) (content : ByteArray) :
    candidateBelow? directories (name :: place) content = candidateBelow? (directories ++ [name]) place content := by
  obtain ⟨next, rest, rfl⟩ := List.exists_cons_of_ne_nil hplace
  rw [candidateBelow?, hname, if_neg Bool.false_ne_true]

private theorem candidateBelow?_of_isReserved {name : String} (hname : isReserved name)
    (directories place : List String)
    (content : ByteArray) : candidateBelow? directories (name :: place) content = none := by
  cases place with
  | nil => rw [candidateBelow?, if_pos hname]
  | cons next place => rw [candidateBelow?, if_pos hname]

mutual

theorem candidates_eq_filterMap (directories : List String) {name : String} (hname : isReserved name = false)
    (tree : Tree) :
    candidates directories name tree =
      tree.files.filterMap fun file => candidateBelow? directories (name :: file.1) file.2 := by
  cases tree with
  | file content =>
    rw [candidates, Tree.files, List.filterMap_eq_flatMap_toList, List.flatMap_singleton, candidateBelow?, hname,
      if_neg Bool.false_ne_true]
  | directory entries =>
    rw [candidates, Tree.files, entryCandidates_eq_filterMap]
    refine List.filterMap_congr fun file hfile => ?_
    obtain ⟨entry, -, below, hbelow⟩ := Tree.exists_entry_of_mem_entryFiles hfile
    rw [candidateBelow?_cons hname _ (hbelow ▸ List.cons_ne_nil _ _)]

theorem entryCandidates_eq_filterMap (directories : List String) (entries : List (String × Tree)) :
    entryCandidates directories entries =
      (entryFiles entries).filterMap fun file => candidateBelow? directories file.1 file.2 := by
  cases entries with
  | nil => rfl
  | cons entry entries =>
    obtain ⟨name, tree⟩ := entry
    rw [entryCandidates, entryFiles, List.filterMap_append, List.filterMap_map, entryCandidates_eq_filterMap directories entries]
    congr 1
    by_cases hname : isReserved name
    · rw [if_pos hname]
      refine (List.filterMap_eq_nil_iff.mpr fun file _ => ?_).symm
      exact candidateBelow?_of_isReserved hname directories file.1 file.2
    · rw [if_neg hname]
      exact candidates_eq_filterMap directories (Bool.eq_false_iff.mpr hname) tree

end

theorem candidateBelow?_eq_some_iff {above place : List String} {content : ByteArray} {candidate : Candidate} :
    candidateBelow? above place content = some candidate ↔
      ∃ directories stem, IsPagePlace place directories stem ∧ candidate = ⟨above ++ directories ++ [stem], content⟩ := by
  induction place generalizing above with
  | nil =>
    refine iff_of_false nofun ?_
    rintro ⟨directories, stem, ⟨⟨extension, -, hplace⟩, -⟩, -⟩
    exact List.append_ne_nil_of_right_ne_nil directories (List.cons_ne_nil _ _) hplace.symm
  | cons name place ih =>
    by_cases hname : isReserved name = false
    · by_cases hplace : place = []
      · subst hplace
        rw [candidateBelow?, hname, if_neg Bool.false_ne_true, candidate?_eq_some_iff hname]
        simp [isPagePlace_singleton_iff, hname]
      · rw [candidateBelow?_cons hname above hplace, ih]
        constructor
        · rintro ⟨below, stem, hpage, rfl⟩
          exact ⟨name :: below, stem, (isPagePlace_cons_iff hplace).mpr ⟨hname, below, rfl, hpage⟩, by simp⟩
        · rintro ⟨directories, stem, hpage, rfl⟩
          obtain ⟨-, below, rfl, hbelow⟩ := (isPagePlace_cons_iff hplace).mp hpage
          exact ⟨below, stem, hbelow, by simp⟩
    · rw [candidateBelow?_of_isReserved (Bool.not_eq_false _ |>.mp hname)]
      refine iff_of_false nofun ?_
      rintro ⟨directories, stem, hpage, -⟩
      exact hname (isReserved_eq_false_iff.mpr (hpage.shown name List.mem_cons_self))

theorem mem_entryCandidates_iff {entries : List (String × Tree)} {candidate : Candidate} :
    candidate ∈ entryCandidates [] entries ↔
      ∃ place directories stem, IsPagePlace place directories stem ∧ (place, candidate.content) ∈ entryFiles entries ∧
        candidate.segments = directories ++ [stem] := by
  rw [entryCandidates_eq_filterMap, List.mem_filterMap]
  constructor
  · rintro ⟨⟨place, content⟩, hfile, hcandidate⟩
    obtain ⟨directories, stem, hplace, rfl⟩ := candidateBelow?_eq_some_iff.mp hcandidate
    exact ⟨place, directories, stem, hplace, hfile, rfl⟩
  · rintro ⟨place, directories, stem, hplace, hfile, hsegments⟩
    refine ⟨(place, candidate.content), hfile, ?_⟩
    exact candidateBelow?_eq_some_iff.mpr ⟨directories, stem, hplace, by rw [List.nil_append, ← hsegments]⟩

end SchemaDocs.Discovery
