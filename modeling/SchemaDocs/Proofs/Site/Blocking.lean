import SchemaDocs.Proofs.Site.Namespaces
import SchemaDocs.Proofs.Site.Room

/-!
# Documents in each other's way

A document lies behind its name with an ending, so a directory whose name has that ending takes the
place of a document. That is the only way in which documents get in each other's way: a file beside a
directory with the files of another name, or a page beside a directory with pages. Where there is no such pair,
the stages never end because a file cannot be made.
-/

namespace SchemaDocs

open SchemaDocs.Path (Blocks blocks_iff)
open FileSystem (Leads WithinLimits)

variable {left right base : String} {kind otherKind : Kind} {registry : Registry} {sources : List SourcePage}

/-! ### Blocking paths -/

theorem Path.blocks_append_iff_of_not_mem {ending : String} (hending : '/' ∉ ending.toList) :
    Blocks left (right ++ ending) ↔ Blocks left right := by
  constructor
  · intro h
    obtain ⟨rest, hne, hpieces⟩ := blocks_iff.mp h
    obtain ⟨front, last, hright, hmore⟩ := Text.pieces_append_of_not_mem hending right
    obtain ⟨others, end_, rfl⟩ := (List.eq_nil_or_concat' rest).resolve_left hne
    rw [hmore, ← List.append_assoc] at hpieces
    obtain ⟨hfront, -⟩ := List.append_inj' hpieces rfl
    exact blocks_iff.mpr ⟨others ++ [last], by simp, by rw [hright, hfront, List.append_assoc]⟩
  · rintro ⟨rest, rfl⟩
    exact ⟨rest ++ ending, String.append_assoc⟩

theorem Path.blocks_append_left_iff : Blocks (base ++ "/" ++ left) (base ++ "/" ++ right) ↔ Blocks left right := by
  simp only [blocks_iff, Text.pieces_append_separator (show ("/" : String).toList = ['/'] from rfl), List.append_assoc,
    List.append_cancel_left_eq]

theorem Path.not_blocks_of_not_mem (h : '/' ∉ right.toList) : ¬ Blocks left right := by
  rintro ⟨rest, rfl⟩
  refine h ?_
  rw [String.toList_append, String.toList_append]
  exact List.mem_append_left _ (List.mem_append_right _ List.mem_cons_self)

/-! ### Blocking documents -/

theorem blocks_documentPath_iff {name other : String} :
    Blocks (documentPath kind name) (documentPath otherKind other) ↔ kind = otherKind ∧ Blocks (name ++ ".json") other := by
  have hpath (kind : Kind) (name : String) :
      documentPath kind name = "data/" ++ kind.tag ++ "/" ++ (name ++ ".json") := String.append_assoc
  by_cases hkind : kind = otherKind
  · subst hkind
    rw [hpath, hpath, Path.blocks_append_left_iff, Path.blocks_append_iff_of_not_mem (by decide)]
    exact (and_iff_right rfl).symm
  · refine ⟨fun h => ?_, fun h => absurd h.1 hkind⟩
    obtain ⟨rest, -, hpieces⟩ := blocks_iff.mp h
    rw [pieces_documentPath, pieces_documentPath] at hpieces
    exact absurd (Kind.tag_injective (List.cons.inj (List.cons.inj hpieces).2).1).symm hkind

theorem blocks_pagePath_iff {segments others : List String} :
    Blocks (pagePath segments) (pagePath others) ↔
      Blocks (String.intercalate "/" segments ++ ".json") (String.intercalate "/" others) := by
  have hpath (segments : List String) :
      pagePath segments = "pages" ++ "/" ++ (String.intercalate "/" segments ++ ".json") := String.append_assoc
  rw [hpath, hpath, Path.blocks_append_left_iff, Path.blocks_append_iff_of_not_mem (by decide)]

/-- How one document can be in the way of another one. -/
inductive InTheWay (registry : Registry) (sources : List SourcePage) : String → String → Prop where
  | file {outer inner : Entry} (houter : outer ∈ registry.entries) (hinner : inner ∈ registry.entries)
      (houterKind : outer.kind = .proto) (hinnerKind : inner.kind = .proto)
      (h : Blocks (outer.qualifiedName ++ ".json") inner.qualifiedName) : InTheWay registry sources outer.path inner.path
  | page {outer inner : SourcePage} (houter : outer ∈ sources) (hinner : inner ∈ sources)
      (h : Blocks (String.intercalate "/" outer.segments ++ ".json") (String.intercalate "/" inner.segments)) :
      InTheWay registry sources outer.documentPath inner.documentPath

/-- The paths of all documents of a site. -/
def sitePlan (registry : Registry) (sources : List SourcePage) : List String :=
  registry.referencePaths ++ pagePaths sources

private theorem mem_sitePlan_of_entry {entry : Entry} (h : entry ∈ registry.entries) :
    entry.path ∈ sitePlan registry sources :=
  List.mem_append_left _ (List.mem_cons_of_mem _ (List.mem_map_of_mem (registry.byStages_perm.mem_iff.mpr h)))

private theorem mem_sitePlan_of_source {source : SourcePage} (h : source ∈ sources) :
    source.documentPath ∈ sitePlan registry sources :=
  List.mem_append_right _ (List.mem_append_left _ (List.mem_map_of_mem h))

private theorem InTheWay.mem_sitePlan (h : InTheWay registry sources left right) :
    left ∈ sitePlan registry sources ∧ right ∈ sitePlan registry sources := by
  cases h with
  | file houter hinner => exact ⟨mem_sitePlan_of_entry houter, mem_sitePlan_of_entry hinner⟩
  | page houter hinner => exact ⟨mem_sitePlan_of_source houter, mem_sitePlan_of_source hinner⟩

private theorem not_blocks_of_ne {first other : String} {rest others : List String}
    (hleft : Text.pieces '/' left = first :: rest)
    (hright : Text.pieces '/' right = other :: others) (hne : first ≠ other) : ¬ Blocks left right := by
  intro h
  obtain ⟨more, -, hpieces⟩ := blocks_iff.mp h
  rw [hleft, hright] at hpieces
  exact hne (List.cons.inj hpieces).1.symm

private theorem pieces_index : Text.pieces '/' "data/index.json" = ["data", "index.json"] := rfl

/-- The index is in nobody's way, since no kind is called like it. -/
theorem not_blocks_index {name : String} : ¬ Blocks "data/index.json" (documentPath kind name) := by
  intro h
  obtain ⟨rest, -, hpieces⟩ := blocks_iff.mp h
  rw [pieces_documentPath, pieces_index] at hpieces
  have htag : kind.tag = "index.json" := (List.cons.inj (List.cons.inj hpieces).2).1
  cases kind <;> exact absurd htag (by decide)

private theorem blocks_documentPath_index {name : String} : ¬ Blocks (documentPath kind name) "data/index.json" := by
  intro h
  obtain ⟨rest, hne, hpieces⟩ := blocks_iff.mp h
  rw [pieces_documentPath, pieces_index] at hpieces
  have hnothing := (List.cons.inj (List.cons.inj hpieces).2).2
  exact hne (List.append_eq_nil_iff.mp hnothing.symm).2

/-- A page or the navigation tree, of which both are known by names. -/
def IsPlaced (sources : List SourcePage) (segments : List String) : Prop :=
  segments = ["_tree"] ∨ ∃ source ∈ sources, source.segments = segments

private theorem mem_sitePlan_cases {path : String} (hsources : ∀ source ∈ sources, source.IsFound)
    (h : path ∈ sitePlan registry sources) :
    path = "data/index.json" ∨ (∃ entry ∈ registry.entries, path = entry.path) ∨
      ∃ segments, IsPlaced sources segments ∧ path = pagePath segments := by
  simp only [sitePlan, Registry.referencePaths, pagePaths, List.cons_append, List.mem_cons, List.mem_append, List.mem_map,
    List.not_mem_nil, or_false] at h
  rcases h with hindex | ⟨entry, hentry, rfl⟩ | ⟨source, hsource, rfl⟩ | htree
  · exact .inl hindex
  · exact .inr (.inl ⟨entry, registry.byStages_perm.mem_iff.mp hentry, rfl⟩)
  · exact .inr (.inr ⟨_, .inr ⟨source, hsource, rfl⟩, (hsources source hsource).documentPath_eq⟩)
  · exact .inr (.inr ⟨_, .inl rfl, htree⟩)

/-- The navigation tree is in nobody's way and nobody in its way, since no page has a name like it. -/
theorem exists_sources_of_blocks {segments others : List String} (hsources : ∀ source ∈ sources, source.IsFound)
    (hsegments : IsPlaced sources segments) (hothers : IsPlaced sources others)
    (h : Blocks (String.intercalate "/" segments ++ ".json") (String.intercalate "/" others)) :
    ∃ outer ∈ sources, ∃ inner ∈ sources, outer.segments = segments ∧ inner.segments = others := by
  rcases hothers with rfl | ⟨inner, hinner, rfl⟩
  · exact absurd h (Path.not_blocks_of_not_mem (by decide))
  · rcases hsegments with rfl | ⟨outer, houter, rfl⟩
    · have hfound := hsources inner hinner
      obtain ⟨rest, -, hpieces⟩ := blocks_iff.mp h
      rw [pieces_way hfound.segments_ne_nil hfound.names] at hpieces
      have htree : Text.pieces '/' (String.intercalate "/" ["_tree"] ++ ".json") = ["_tree.json"] := rfl
      refine absurd (hfound.unreserved "_tree.json" ?_) (by decide)
      rw [hpieces, htree]
      exact List.mem_append_left _ List.mem_cons_self
    · exact ⟨outer, houter, inner, hinner, rfl, rfl⟩

/-- Of the paths of a site, one blocks another exactly if its document is in the way of the other. -/
theorem blocks_iff_inTheWay (hnamed : WellNamed registry.entries) (hsources : ∀ source ∈ sources, source.IsFound)
    (hleft : left ∈ sitePlan registry sources) (hright : right ∈ sitePlan registry sources) :
    Blocks left right ↔ InTheWay registry sources left right := by
  constructor
  · intro h
    rcases mem_sitePlan_cases hsources hleft with rfl | ⟨outer, houter, rfl⟩ | ⟨segments, hsegments, rfl⟩ <;>
      rcases mem_sitePlan_cases hsources hright with rfl | ⟨inner, hinner, rfl⟩ | ⟨others, hothers, rfl⟩
    · obtain ⟨rest, hne, hpieces⟩ := blocks_iff.mp h
      exact absurd (List.self_eq_append_right.mp hpieces) hne
    · exact absurd h not_blocks_index
    · exact absurd h (not_blocks_of_ne pieces_index (pieces_pagePath others) (by decide))
    · exact absurd h blocks_documentPath_index
    · obtain ⟨hkind, hblocks⟩ := blocks_documentPath_iff.mp h
      have hproto : inner.kind = .proto := by
        by_contra hkind
        exact Path.not_blocks_of_not_mem ((hnamed.valid inner hinner).type hkind).noSlash hblocks
      exact .file houter hinner (hkind.trans hproto) hproto hblocks
    · exact absurd h (not_blocks_of_ne (pieces_documentPath _ _) (pieces_pagePath others) (by decide))
    · exact absurd h (not_blocks_of_ne (pieces_pagePath segments) pieces_index (by decide))
    · exact absurd h (not_blocks_of_ne (pieces_pagePath segments) (pieces_documentPath _ _) (by decide))
    · have hblocks := blocks_pagePath_iff.mp h
      obtain ⟨outer, houter, inner, hinner, rfl, rfl⟩ := exists_sources_of_blocks hsources hsegments hothers hblocks
      rw [← (hsources outer houter).documentPath_eq, ← (hsources inner hinner).documentPath_eq]
      exact .page houter hinner hblocks
  · intro h
    cases h with
    | file _ _ houterKind hinnerKind h => exact blocks_documentPath_iff.mpr ⟨houterKind.trans hinnerKind.symm, h⟩
    | page houter hinner h =>
      rw [(hsources _ houter).documentPath_eq, (hsources _ hinner).documentPath_eq]
      exact blocks_pagePath_iff.mpr h

/-! ### Runs -/

variable {context : Context} {start final : Disk} {plan : List String}

private theorem Disk.Completes.not_blocks (h : start.Completes plan final) (hleft : left ∈ plan)
    (hright : right ∈ plan) :
    ¬ Blocks left right := by
  obtain ⟨journal, rfl, hjournal⟩ := h
  have hholds := holdsAll_of_writeAll hjournal
  have hfile (path : String) (hpath : path ∈ journal.map Prod.fst) :
      ∃ content, final.files.root.bareAt? (start.output.place final.files path) = some (.file content) := by
    obtain ⟨write, hwrite, rfl⟩ := List.mem_map.mp hpath
    obtain ⟨place, hplace, hcontent⟩ := FileSystem.read_eq_ok_iff.mp (hholds.read write hwrite)
    rw [OutputDirectory.eq_place_of_locate (hholds.accepted write hwrite) hplace] at hcontent
    exact ⟨_, hcontent⟩
  obtain ⟨outer, houter⟩ := hfile left hleft
  obtain ⟨inner, hinner⟩ := hfile right hright
  intro hblocks
  obtain ⟨rest, hne, hpieces⟩ := blocks_iff.mp hblocks
  -- nothing stands below a file
  have hnone := Tree.get?_below (by rw [houter]; nofun) hne
  rw [OutputDirectory.place, hpieces, ← List.append_assoc, Tree.bareAt?_eq_file_iff] at hinner
  rw [OutputDirectory.place, hinner] at hnone
  cases hnone

/-- The output directory is there and is empty. -/
def Disk.IsVacant (disk : Disk) : Prop :=
  ∃ top, disk.files.Leads disk.output.root top ∧ disk.files.root.get? top = some (.directory [])

theorem Disk.IsVacant.exists_holdsOnly (h : start.IsVacant) : ∃ top, start.HoldsOnly top [] := by
  obtain ⟨top, hleads, hempty⟩ := h
  have hnone (names : List String) (hnames : names ≠ []) : start.files.root.bareAt? (top ++ names) = none := by
    obtain ⟨name, rest, rfl⟩ := List.exists_cons_of_ne_nil hnames
    rw [Tree.bareAt?_eq_none_iff, Tree.get?_append, hempty]
    rfl
  refine ⟨top, hleads, fun _ hmem => absurd hmem List.not_mem_nil, fun names hnames => .inl ?_, fun names content hnames => ?_⟩
  · by_contra hne
    rw [hnone names hne] at hnames
    cases hnames
  · by_cases hne : names = []
    · rw [hne, List.append_nil, hleads.directory] at hnames
      cases hnames
    · rw [hnone names hne] at hnames
      cases hnames

/-- The paths that the stages of a site come to: those of the reference, and those of the pages that are
found behind it. -/
inductive Context.Plans (context : Context) (start : Disk) : String → Prop where
  | reference {path : String} (h : path ∈ context.registry.referencePaths) : Plans context start path
  | page {middle : Disk} {path : String} (hreference : start.Completes context.registry.referencePaths middle)
      (h : path ∈ pagePaths (context.foundPages middle.files)) : Plans context start path

theorem Ledger.RecordsIn.pagePaths_eq {ledger : Ledger} {entries : List Entry}
    (h : ledger.RecordsIn context entries start final) :
    (ledger.pageDocuments.map SiteDocument.write).map Prod.fst = pagePaths ledger.sources := by
  have hpaths := map_eq_map_of_forall₂ (fun _ _ hdocument => hdocument.path.symm) h.pages
  rw [List.map_map, pageDocuments, pagePaths, List.map_append, hpaths]
  rfl

private theorem Ledger.Records.completes {ledger : Ledger} (h : ledger.Records context start final) :
    ∃ middle, start.Completes context.registry.referencePaths middle ∧ ledger.sources = context.foundPages middle.files ∧
      start.Completes (sitePlan context.registry ledger.sources) final := by
  have hreference : (ledger.referenceDocuments.map SiteDocument.write).map Prod.fst = context.registry.referencePaths := by
    have hpaths := map_eq_map_of_forall₂ (fun _ _ hdocument => hdocument.path.symm) h.reference
    rw [List.map_map, referenceDocuments, Registry.referencePaths, List.map_cons, hpaths]
    rfl
  obtain ⟨middle, hmiddle, hsources⟩ := h.sources
  refine ⟨middle, ⟨_, hreference, hmiddle⟩, hsources, ledger.documents.map SiteDocument.write, ?_, h.writes⟩
  rw [documents, List.map_append, List.map_append, hreference, h.pagePaths_eq, sitePlan]

namespace Stage

open Build (Fails Yields)

variable {start final : Workshop}

/-- In an empty directory, the stages come to a file that cannot be made only where a document is in the
way of another one. -/
theorem exists_inTheWay_of_fails (hnamed : WellNamed context.registry.entries) (hfiles : start.disk.files.root.IsNamed)
    (hvacant : start.disk.IsVacant)
    (hlimits : ∀ path, context.Plans start.disk path → WithinLimits start.disk.output.root (Text.pieces '/' path))
    {reason : String} (h : (runAll context standard).Fails start (.output (.failed reason)) final) :
    (∃ left right, InTheWay context.registry [] left right) ∨
      ∃ middle, start.disk.Completes context.registry.referencePaths middle ∧
        ∃ left right, InTheWay context.registry (context.foundPages middle.files) left right := by
  obtain ⟨top, honly⟩ := hvacant.exists_holdsOnly
  have hnone : ∀ source ∈ ([] : List SourcePage), source.IsFound := List.forall_mem_nil _
  have hreferences : context.registry.referencePaths ⊆ sitePlan context.registry [] := List.subset_append_left _ _
  have hroom : ∀ path ∈ context.registry.referencePaths,
      WithinLimits start.disk.output.root (Text.pieces '/' path) := fun path hpath => hlimits path (.reference hpath)
  rcases halts_of_runAll h with hhalts | ⟨middle, hreference, hhalts⟩
  · obtain ⟨left, hleft, right, hright, hblocks⟩ := honly.exists_blocks hroom hhalts
    rw [List.append_nil] at hleft hright
    exact .inl ⟨left, right, (blocks_iff_inTheWay hnamed hnone (hreferences hleft) (hreferences hright)).mp hblocks⟩
  · have hsources : ∀ source ∈ context.foundPages middle.files, source.IsFound := fun _ =>
      Context.isFound_of_foundPages (hreference.isNamed hfiles)
    -- the reference has been written, so that its documents are apart and leave room for the pages
    obtain ⟨hmiddle, hroot⟩ := honly.of_completes hreference hroom fun left hleft right hright => by
      rw [List.append_nil] at hleft hright
      exact hreference.not_blocks hleft hright
    have hroomPages : ∀ path ∈ pagePaths (context.foundPages middle.files),
        WithinLimits middle.output.root (Text.pieces '/' path) := by
      intro path hpath
      rw [hroot]
      exact hlimits path (.page hreference hpath)
    obtain ⟨left, hleft, right, hright, hblocks⟩ := hmiddle.exists_blocks hroomPages hhalts
    rw [List.append_nil, List.perm_append_comm.mem_iff] at hleft hright
    exact .inr ⟨middle, hreference, left, right, (blocks_iff_inTheWay hnamed hsources hleft hright).mp hblocks⟩

/-- Of the documents of a site, one blocks another exactly if it is the document of a file or a page, and
the directory of another file or page is called like it. None does where the stages succeed; and in
an empty directory, where no name is too long, the stages never fail to make a file for any other
reason. -/
theorem blocks_iff_and_fails_only_inTheWay (hregistry : Registry.build context.schema = .ok context.registry)
    (hfiles : start.disk.files.root.IsNamed) :
    (∀ directory left right, left ∈ sitePlan context.registry (Discovery.discover start.disk.files directory) →
        right ∈ sitePlan context.registry (Discovery.discover start.disk.files directory) →
        (Blocks left right ↔ InTheWay context.registry (Discovery.discover start.disk.files directory) left right)) ∧
      (∀ report, (runAll context standard).Yields start report final →
        ∃ middle, start.disk.Completes context.registry.referencePaths middle ∧
          start.disk.Completes (sitePlan context.registry (context.foundPages middle.files)) final.disk ∧
          ∀ left right, ¬ InTheWay context.registry (context.foundPages middle.files) left right) ∧
      (start.disk.IsVacant →
        (∀ path, context.Plans start.disk path → WithinLimits start.disk.output.root (Text.pieces '/' path)) →
        ∀ reason, (runAll context standard).Fails start (.output (.failed reason)) final →
          (∃ left right, InTheWay context.registry [] left right) ∨
            ∃ middle, start.disk.Completes context.registry.referencePaths middle ∧
              ∃ left right, InTheWay context.registry (context.foundPages middle.files) left right) := by
  have hnamed := wellNamed_of_build hregistry
  refine ⟨fun directory left right hleft hright => ?_, fun report h => ?_, fun hvacant hlimits reason h => ?_⟩
  · exact blocks_iff_inTheWay hnamed (fun _ => Discovery.isFound_of_mem_discover hfiles) hleft hright
  · obtain ⟨ledger, hrecords, -⟩ := records_runAll h
    obtain ⟨middle, hreference, hfound, hcompletes⟩ := hrecords.completes
    rw [hfound] at hcompletes
    refine ⟨middle, hreference, hcompletes, fun left right hway => ?_⟩
    have hsources : ∀ source ∈ context.foundPages middle.files, source.IsFound := fun _ =>
      Context.isFound_of_foundPages (hreference.isNamed hfiles)
    obtain ⟨hleft, hright⟩ := hway.mem_sitePlan
    exact hcompletes.not_blocks hleft hright ((blocks_iff_inTheWay hnamed hsources hleft hright).mpr hway)
  · exact exists_inTheWay_of_fails hnamed hfiles hvacant hlimits h

end Stage

namespace Sample

/-- A file, and another one in a directory that is called like the document of the first. -/
def nestedSchema : Schema where
  output := "o"
  files := [{ name := "a" }, { name := "a.json/b" }]

/-- A page, and another one in a directory that is called like the document of the first. -/
def nestedPages : FileSystem where
  root := .directory [
    ("o", .directory []),
    ("p", .directory [("a.json", .directory [("b.md", .file "".toUTF8)]), ("a.md", .file "".toUTF8)])]

def nestedWorkshop : Workshop where
  disk := ⟨nestedPages, { root := "o" }⟩

/-- The files of a schema and the pages of a directory. -/
def nestedContext (schema : Schema) (pagesDirectory : Option String) : Context :=
  { schema, registry := (.ofEntries schema.entries), title := "Docs", pagesDirectory }

private theorem nestedSchema_registered : Registry.build nestedSchema = .ok (.ofEntries nestedSchema.entries) := rfl

private theorem nestedPages_named : nestedPages.root.IsNamed := by
  have hname (name : String) (h : name ≠ "" ∧ '/' ∉ name.toList) : IsEntryName name := ⟨h.1, h.2⟩
  exact ⟨hname _ (by decide), trivial, hname _ (by decide), ⟨hname _ (by decide), ⟨hname _ (by decide), trivial, trivial⟩,
    hname _ (by decide), trivial, trivial⟩, trivial⟩

private theorem nestedWorkshop_vacant : nestedWorkshop.disk.IsVacant := ⟨["o"], ⟨rfl, rfl⟩, rfl⟩

private theorem files_fail : hasCause (.failed "o/data/proto/a.json")
    (Stage.runAll (nestedContext nestedSchema none) Stage.standard nestedWorkshop).1 = true := by
  decide +kernel

private theorem nestedPlan_withinLimits {path : String}
    (h : (nestedContext nestedSchema none).Plans nestedWorkshop.disk path) :
    WithinLimits "o" (Text.pieces '/' path) := by
  have hplan : path ∈ ["data/index.json", "data/proto/a.json", "data/proto/a.json/b.json", "pages/_tree.json"] := by
    cases h with
    | reference h =>
      have hpaths : (nestedContext nestedSchema none).registry.referencePaths =
          ["data/index.json", "data/proto/a.json", "data/proto/a.json/b.json"] := rfl
      rw [hpaths] at h
      exact List.mem_append_left ["pages/_tree.json"] h
    | page _ h =>
      obtain rfl : path = "pages/_tree.json" := List.mem_singleton.mp h
      decide
  have hlimits : ∀ path ∈ ["data/index.json", "data/proto/a.json", "data/proto/a.json/b.json", "pages/_tree.json"],
      WithinLimits "o" (Text.pieces '/' path) := by
    decide +kernel
  exact hlimits path hplan

end Sample

theorem Stage.blocks_iff_and_fails_only_inTheWay_nested :
    ∃ final, (runAll (Sample.nestedContext Sample.nestedSchema none) standard).Fails Sample.nestedWorkshop
        (.output (.failed "o/data/proto/a.json")) final ∧
      ((∃ left right, InTheWay (.ofEntries Sample.nestedSchema.entries) [] left right) ∨
        ∃ middle, Sample.nestedWorkshop.disk.Completes (Registry.referencePaths (.ofEntries Sample.nestedSchema.entries)) middle ∧
          ∃ left right, InTheWay (.ofEntries Sample.nestedSchema.entries)
            ((Sample.nestedContext Sample.nestedSchema none).foundPages middle.files) left right) := by
  obtain ⟨final, hfails⟩ := Sample.exists_of_hasCause Sample.files_fail
  have hregistry : Registry.build (Sample.nestedContext Sample.nestedSchema none).schema =
      .ok (Sample.nestedContext Sample.nestedSchema none).registry := Sample.nestedSchema_registered
  have hnamed : Sample.nestedWorkshop.disk.files.root.IsNamed := Sample.nestedPages_named
  obtain ⟨-, -, honly⟩ := blocks_iff_and_fails_only_inTheWay hregistry hnamed
  exact ⟨final, hfails, honly Sample.nestedWorkshop_vacant (fun _ => Sample.nestedPlan_withinLimits) _ hfails⟩

private theorem Sample.pages_fail : Sample.hasCause (.failed "o/pages/a.json")
    (Stage.runAll (Sample.nestedContext { output := "o" } (some "p")) Stage.standard Sample.nestedWorkshop).1 = true := by
  decide +kernel

/-- Files and pages that are accepted, whose documents are in each other's way, so that no site of theirs
is made in an empty directory. -/
theorem Stage.documents_in_each_others_way :
    (Registry.build Sample.nestedSchema = .ok (.ofEntries Sample.nestedSchema.entries) ∧
      "data/proto/a.json" ∈ Registry.referencePaths (.ofEntries Sample.nestedSchema.entries) ∧
      "data/proto/a.json/b.json" ∈ Registry.referencePaths (.ofEntries Sample.nestedSchema.entries) ∧
      ∃ final, (runAll (Sample.nestedContext Sample.nestedSchema none) standard).Fails Sample.nestedWorkshop
        (.output (.failed "o/data/proto/a.json")) final) ∧
    ((PageTree.merge "Docs" (Discovery.discover Sample.nestedPages "p") {}).toOption.isSome ∧
      "pages/a.json" ∈ pagePaths (Discovery.discover Sample.nestedPages "p") ∧
      "pages/a.json/b.json" ∈ pagePaths (Discovery.discover Sample.nestedPages "p") ∧
      ∃ final, (runAll (Sample.nestedContext { output := "o" } (some "p")) standard).Fails Sample.nestedWorkshop
        (.output (.failed "o/pages/a.json")) final) ∧
    Blocks "data/proto/a.json" "data/proto/a.json/b.json" ∧ Blocks "pages/a.json" "pages/a.json/b.json" ∧
      Sample.nestedWorkshop.disk.IsVacant := by
  have hpages : pagePaths (Discovery.discover Sample.nestedPages "p") =
      ["pages/a.json/b.json", "pages/a.json", "pages/_tree.json"] := by
    decide +kernel
  refine ⟨⟨Sample.nestedSchema_registered, by decide, by decide, Sample.exists_of_hasCause Sample.files_fail⟩,
    ⟨by decide +kernel, ?_, ?_, Sample.exists_of_hasCause Sample.pages_fail⟩, ⟨"b.json", rfl⟩, ⟨"b.json", rfl⟩,
    Sample.nestedWorkshop_vacant⟩
  · rw [hpages]
    decide
  · rw [hpages]
    decide

end SchemaDocs
