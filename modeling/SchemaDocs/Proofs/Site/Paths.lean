import SchemaDocs.Proofs.Page.Paths
import SchemaDocs.Proofs.Schema.Outcome
import SchemaDocs.Proofs.Site.Plans

/-!
# Where documents lie

The documents of the reference lie below `data`, each in the directory of its kind, and those of the
pages below `pages`. All of these paths are accepted. Names are told apart by the paths that are made
from them, so that a path can be wanted twice only for two files of the same page.
-/

namespace SchemaDocs

variable {path name : String} {kind : Kind} {entry : Entry} {source left right : SourcePage}

/-! ### What the paths are made of -/

theorem pieces_documentPath (kind : Kind) (name : String) :
    Text.pieces '/' (documentPath kind name) = "data" :: kind.tag :: Text.pieces '/' (name ++ ".json") := by
  have hbase : Text.pieces '/' ("data/" ++ kind.tag) = ["data", kind.tag] := by
    cases kind <;> rfl
  have hpath : documentPath kind name = "data/" ++ kind.tag ++ "/" ++ (name ++ ".json") := String.append_assoc
  rw [hpath, Text.pieces_append_separator rfl, hbase]
  rfl

theorem pieces_pagePath (segments : List String) :
    Text.pieces '/' (pagePath segments) = "pages" :: Text.pieces '/' (String.intercalate "/" segments ++ ".json") := by
  have hpath : pagePath segments = "pages" ++ "/" ++ (String.intercalate "/" segments ++ ".json") := String.append_assoc
  rw [hpath, Text.pieces_append_separator rfl]
  rfl

theorem documentPath_inj {otherKind : Kind} {other : String}
    (h : documentPath kind name = documentPath otherKind other) :
    kind = otherKind ∧ name = other := by
  have hpieces := congrArg (Text.pieces '/') h
  rw [pieces_documentPath, pieces_documentPath] at hpieces
  obtain ⟨-, hpieces⟩ := List.cons.inj hpieces
  obtain ⟨htag, hpieces⟩ := List.cons.inj hpieces
  exact ⟨Kind.tag_injective htag, (String.append_left_inj _).mp (Text.pieces_injective '/' hpieces)⟩

theorem pagePath_inj {segments others : List String} (hsegments : ∀ name ∈ segments, IsEntryName name)
    (hothers : ∀ name ∈ others, IsEntryName name) (h : pagePath segments = pagePath others) : segments = others := by
  have hpieces := congrArg (Text.pieces '/') h
  rw [pieces_pagePath, pieces_pagePath] at hpieces
  obtain ⟨-, hpieces⟩ := List.cons.inj hpieces
  exact way_unique hsegments hothers ((String.append_left_inj _).mp (Text.pieces_injective '/' hpieces))

private theorem documentPath_ne_pagePath (segments : List String) : documentPath kind name ≠ pagePath segments := by
  intro h
  have hpieces := congrArg (Text.pieces '/') h
  rw [pieces_documentPath, pieces_pagePath] at hpieces
  exact absurd (List.cons.inj hpieces).1 (by decide)

private theorem documentPath_ne_index : documentPath kind name ≠ "data/index.json" := by
  intro h
  have hpieces := congrArg (Text.pieces '/') h
  rw [pieces_documentPath] at hpieces
  have hindex : Text.pieces '/' "data/index.json" = ["data", "index.json"] := rfl
  rw [hindex] at hpieces
  exact Text.pieces_ne_nil '/' _ (List.cons.inj (List.cons.inj hpieces).2).2

theorem treePath_eq : Stage.treePath = pagePath ["_tree"] := rfl

/-! ### Accepted paths -/

theorem isOutputPath_iff : isOutputPath path ↔ ∀ name ∈ Text.pieces '/' path, name ≠ "" ∧ name ≠ "." ∧ name ≠ ".." := by
  simp only [isOutputPath, List.all_eq_true, Bool.and_eq_true, decide_eq_true_eq, and_assoc]

private theorem isOutputPath_json (h : isOutputPath path) : isOutputPath (path ++ ".json") := by
  obtain ⟨front, last, hpath, hjson⟩ := Text.pieces_append_of_not_mem (show '/' ∉ ".json".toList by decide) path
  rw [isOutputPath_iff] at h ⊢
  rw [hjson]
  intro name hname
  rcases List.mem_append.mp hname with hname | hname
  · exact h name (hpath ▸ List.mem_append_left _ hname)
  · -- the last name is too long for dots
    obtain rfl := List.mem_singleton.mp hname
    have hlength : 5 ≤ (last ++ ".json").length := by
      rw [String.length_append]
      exact Nat.le_add_left 5 _
    refine ⟨?_, ?_, ?_⟩ <;>
    · intro hlast
      rw [hlast] at hlength
      exact absurd hlength (by decide)

private theorem IsTypeName.isSegment (h : IsTypeName name) : IsSegment name := by
  refine ⟨?_, ?_, ?_, h.noSlash⟩ <;>
  · rintro rfl
    exact h.segments "" (by decide) rfl

private theorem Entry.HasValidName.isOutputPath_path (h : entry.HasValidName) : isOutputPath entry.path := by
  refine isOutputPath_json (isOutputPath_iff.mpr ?_)
  have hpieces : Text.pieces '/' ("data/" ++ entry.kind.tag ++ "/" ++ entry.qualifiedName) =
      ["data", entry.kind.tag] ++ Text.pieces '/' entry.qualifiedName := by
    rw [Text.pieces_append_separator rfl]
    cases entry.kind <;> rfl
  rw [hpieces]
  intro name hname
  rcases List.mem_append.mp hname with hname | hname
  · have hbase : ∀ name ∈ ["data", entry.kind.tag], name ≠ "" ∧ name ≠ "." ∧ name ≠ ".." := by
      cases entry.kind <;> decide
    exact hbase name hname
  · by_cases hkind : entry.kind = .proto
    · exact (h.file hkind).segments name hname
    · have htype := (h.type hkind).isSegment
      rw [Text.pieces_of_not_mem htype.slash_not_mem] at hname
      obtain rfl := List.mem_singleton.mp hname
      exact ⟨htype.ne_empty, htype.ne_dot, htype.ne_dots⟩

private theorem SourcePage.IsFound.isOutputPath_documentPath (h : source.IsFound) :
    isOutputPath source.documentPath := by
  rw [h.documentPath_eq]
  refine isOutputPath_json (isOutputPath_iff.mpr ?_)
  have hpieces : Text.pieces '/' ("pages/" ++ String.intercalate "/" source.segments) = "pages" :: source.segments := by
    have hseam := Text.pieces_append_separator (show "/".toList = ['/'] from rfl) "pages"
      (String.intercalate "/" source.segments)
    rw [pieces_way h.segments_ne_nil h.names] at hseam
    exact hseam
  rw [hpieces]
  intro name hname
  rcases List.mem_cons.mp hname with rfl | hname
  · decide
  · refine ⟨(h.names name hname).ne_empty, ?_, ?_⟩ <;>
    · rintro rfl
      exact absurd (h.unreserved _ hname) (by decide)

private theorem SourcePage.IsFound.documentPath_ne_treePath (h : source.IsFound) :
    source.documentPath ≠ Stage.treePath := by
  rw [h.documentPath_eq, treePath_eq]
  intro hpath
  have htree : ∀ name ∈ ["_tree"], IsEntryName name :=
    List.forall_mem_singleton.mpr ⟨by decide, by decide⟩
  have hsegments := pagePath_inj h.names htree hpath
  refine absurd (h.unreserved "_tree" ?_) (by decide)
  rw [hsegments]
  exact List.mem_singleton_self _

/-! ### Documents of a site -/

/-- The paths of the documents of a site are accepted, and no two documents want one path but for
pages of one identity. -/
structure PathsApart (registry : Registry) (sources : List SourcePage) : Prop where
  reference_accepted : ∀ entry ∈ registry.entries, isOutputPath entry.path
  page_accepted : ∀ source ∈ sources, isOutputPath source.documentPath
  reference_distinct : (registry.entries.map Entry.path).Nodup
  reference_ne_index : ∀ entry ∈ registry.entries, entry.path ≠ "data/index.json"
  reference_ne_tree : ∀ entry ∈ registry.entries, entry.path ≠ "pages/_tree.json"
  reference_ne_page : ∀ entry ∈ registry.entries, ∀ source ∈ sources, entry.path ≠ source.documentPath
  page_ne_tree : ∀ source ∈ sources, source.documentPath ≠ "pages/_tree.json"
  page_not_data : ∀ source ∈ sources, ¬ "data/".toList <+: source.documentPath.toList
  page_same : ∀ left ∈ sources, ∀ right ∈ sources, left.documentPath = right.documentPath →
    left.id = right.id ∧ left.isIndex = right.isIndex

theorem pathsApart {registry : Registry} {sources : List SourcePage} (hnamed : WellNamed registry.entries)
    (hsources : ∀ source ∈ sources, source.IsFound) : PathsApart registry sources where
  reference_accepted entry hentry := (hnamed.valid entry hentry).isOutputPath_path
  page_accepted source hsource := (hsources source hsource).isOutputPath_documentPath
  reference_distinct := by
    rw [List.Nodup, List.pairwise_map]
    refine hnamed.distinct.imp fun {left right} hdistinct hpath => hdistinct ?_
    obtain ⟨hkind, hname⟩ := documentPath_inj hpath
    exact ⟨by rw [hkind], hname⟩
  reference_ne_index _ _ := documentPath_ne_index
  reference_ne_tree _ _ := documentPath_ne_pagePath ["_tree"]
  reference_ne_page _ _ source hsource := by
    rw [(hsources source hsource).documentPath_eq]
    exact documentPath_ne_pagePath source.segments
  page_ne_tree source hsource := (hsources source hsource).documentPath_ne_treePath
  page_not_data source hsource := by
    rw [(hsources source hsource).documentPath_eq, pagePath, String.append_assoc, String.toList_append]
    rintro ⟨rest, hrest⟩
    exact absurd (List.cons.inj hrest).1 (by decide)
  page_same left hleft right hright h := by
    have hleft := hsources left hleft
    have hright := hsources right hright
    rw [hleft.documentPath_eq, hright.documentPath_eq] at h
    exact hleft.same_of_segments hright (pagePath_inj hleft.names hright.names h)

end SchemaDocs
