import SchemaDocs.Proofs.Page.Candidates
import SchemaDocs.Proofs.Storage.Names
import Mathlib.Data.List.TakeDrop

/-!
# The names of found pages

The names that lead to a page can be told from its identity, and no two ways of directories make the
same path, since names have no slashes.
-/

namespace SchemaDocs

/-! ### Ways of directories -/

section Ways

variable {left right way : List String}

theorem pieces_way (hne : way ≠ []) (hway : ∀ name ∈ way, IsEntryName name) :
    Text.pieces '/' (String.intercalate "/" way) = way :=
  Text.pieces_intercalate rfl hne fun name hname => (hway name hname).slash_not_mem

theorem way_eq_nil (hway : ∀ name ∈ way, IsEntryName name) (h : String.intercalate "/" way = "") : way = [] := by
  by_contra hne
  have hpieces := pieces_way hne hway
  rw [h] at hpieces
  have hempty : "" ∈ way := by
    rw [← hpieces]
    decide
  exact (hway "" hempty).ne_empty rfl

theorem way_unique (hleft : ∀ name ∈ left, IsEntryName name) (hright : ∀ name ∈ right, IsEntryName name)
    (h : String.intercalate "/" left = String.intercalate "/" right) : left = right := by
  by_cases hnil : left = []
  · subst hnil
    exact (way_eq_nil hright h.symm).symm
  · have hother : right ≠ [] := by
      intro hright
      subst hright
      exact hnil (way_eq_nil hleft h)
    rw [← pieces_way hnil hleft, h, pieces_way hother hright]

end Ways

/-! ### Pages -/

/-- The names that lead to a page are names of files and directories, and make its identity. -/
structure SourcePage.IsNamed (source : SourcePage) : Prop where
  segments_ne_nil : source.segments ≠ []
  names : ∀ name ∈ source.segments, IsEntryName name
  id_eq : source.id = String.intercalate "/" (if source.isIndex then source.directories else source.segments)

namespace Discovery

open SchemaDocs.Tree (AreNamed)

/-- The names that lead to a candidate are names of files and directories. -/
structure Candidate.IsNamed (candidate : Candidate) : Prop where
  segments_ne_nil : candidate.segments ≠ []
  names : ∀ name ∈ candidate.segments, IsEntryName name

theorem isNamed_of_mem_entryCandidates {entries : List (String × Tree)} (hentries : AreNamed entries)
    {candidate : Candidate} (h : candidate ∈ entryCandidates [] entries) : candidate.IsNamed := by
  obtain ⟨place, directories, stem, hplace, hfile, hsegments⟩ := mem_entryCandidates_iff.mp h
  obtain ⟨extension, -, rfl⟩ := hplace.name
  obtain ⟨hdirectories, hname⟩ := List.forall_mem_append.mp (Tree.names_of_mem_entryFiles hentries hfile)
  have hstem : IsEntryName stem := by
    refine ⟨hplace.stem_ne_empty, fun hslash => (List.forall_mem_singleton.mp hname).slash_not_mem ?_⟩
    rw [String.toList_append, String.toList_append, List.append_assoc]
    exact List.mem_append_left _ hslash
  constructor <;> rw [hsegments]
  · exact List.append_ne_nil_of_right_ne_nil _ (List.cons_ne_nil _ _)
  · exact List.forall_mem_append.mpr ⟨hdirectories, List.forall_mem_singleton.mpr hstem⟩

theorem isNamed_of_source? {candidate : Candidate} (hcandidate : candidate.IsNamed) {source : SourcePage}
    (h : candidate.source? = some source) : source.IsNamed := by
  obtain ⟨page, -, rfl⟩ := Option.map_eq_some_iff.mp h
  exact ⟨hcandidate.segments_ne_nil, hcandidate.names, rfl⟩

theorem exists_candidate_of_mem_discover {files : FileSystem} {directory : String} {source : SourcePage}
    (h : source ∈ discover files directory) :
    ∃ entries candidate, files.find directory = .ok (.directory entries) ∧ candidate ∈ entryCandidates [] entries ∧
      candidate.source? = some source := by
  rw [discover] at h
  split at h
  · rename_i entries hfind
    obtain ⟨hsource, -⟩ := List.mem_filter.mp h
    obtain ⟨candidate, hcandidate, hsource⟩ := List.mem_filterMap.mp hsource
    exact ⟨entries, candidate, hfind, hcandidate, hsource⟩
  · cases h

theorem isNamed_of_mem_discover {files : FileSystem} (hfiles : files.root.IsNamed) {directory : String}
    {source : SourcePage} (h : source ∈ discover files directory) : source.IsNamed := by
  obtain ⟨entries, candidate, hfind, hcandidate, hsource⟩ := exists_candidate_of_mem_discover h
  have hentries : AreNamed entries := FileSystem.isNamed_of_find hfiles hfind
  exact isNamed_of_source? (isNamed_of_mem_entryCandidates hentries hcandidate) hsource

end Discovery

end SchemaDocs
