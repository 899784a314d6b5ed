import SchemaDocs.Proofs.Page.Names

/-!
# The documents of found pages

A page that describes its directory is called `index`, and no other page is. So the path of a page's
document is made from the names that lead to the page in one way for all pages, and tells them apart.
-/

namespace SchemaDocs

def pagePath (segments : List String) : String := "pages/" ++ String.intercalate "/" segments ++ ".json"

/-- A page as it is found: it is led to by names that are not reserved, and describes its directory
if it is called so. -/
structure SourcePage.IsFound (source : SourcePage) : Prop extends source.IsNamed where
  unreserved : ∀ name ∈ source.segments, Discovery.isReserved name = false
  isIndex_iff : source.isIndex = true ↔ source.segments.getLast? = some "index"

namespace Discovery

theorem isFound_of_mem_discover {files : FileSystem} (hfiles : files.root.IsNamed) {directory : String}
    {source : SourcePage} (h : source ∈ discover files directory) : source.IsFound := by
  have hnamed := isNamed_of_mem_discover hfiles h
  obtain ⟨entries, candidate, -, hcandidate, hsource⟩ := exists_candidate_of_mem_discover h
  obtain ⟨page, -, rfl⟩ := Option.map_eq_some_iff.mp hsource
  obtain ⟨place, directories, stem, hplace, -, hsegments⟩ := mem_entryCandidates_iff.mp hcandidate
  exact ⟨hnamed, hsegments ▸ hplace.unreserved, decide_eq_true_iff⟩

end Discovery

namespace SourcePage.IsFound

variable {source left right : SourcePage}

private theorem segments_of_isIndex (h : source.IsFound) (hindex : source.isIndex) :
    source.segments = source.directories ++ ["index"] := by
  obtain ⟨front, hfront⟩ := List.getLast?_eq_some_iff.mp (h.isIndex_iff.mp hindex)
  rw [directories, hfront, List.dropLast_concat]

theorem documentPath_eq (h : source.IsFound) : source.documentPath = pagePath source.segments := by
  rw [documentPath, h.id_eq, pagePath]
  by_cases hindex : source.isIndex
  · rw [if_pos hindex, if_pos hindex, h.segments_of_isIndex hindex]
    by_cases hroot : source.directories = []
    · rw [hroot]
      rfl
    · have hid : (String.intercalate "/" source.directories).isEmpty = false := by
        rw [String.isEmpty_eq_false_iff]
        exact fun hempty =>
          hroot (way_eq_nil (fun name hname => h.names name (List.dropLast_subset _ hname)) hempty)
      have hjson : ("/index.json" : String) = "/" ++ "index" ++ ".json" := rfl
      rw [hid, if_neg Bool.false_ne_true, String.intercalate_append_of_ne_nil hroot (List.cons_ne_nil _ _),
        String.intercalate_singleton, hjson]
      simp only [String.append_assoc]
  · rw [if_neg hindex, if_neg hindex]

theorem same_of_segments (hleft : left.IsFound) (hright : right.IsFound) (h : left.segments = right.segments) :
    left.id = right.id ∧ left.isIndex = right.isIndex := by
  have hindex : left.isIndex = right.isIndex := by
    rw [Bool.eq_iff_iff, hleft.isIndex_iff, hright.isIndex_iff, h]
  rw [hleft.id_eq, hright.id_eq, directories, directories, hindex, h]
  exact ⟨rfl, rfl⟩

end SourcePage.IsFound

end SchemaDocs
