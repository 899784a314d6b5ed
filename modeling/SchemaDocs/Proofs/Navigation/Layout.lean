import SchemaDocs.Navigation.Merge
import SchemaDocs.Proofs.Page.Names
import SchemaDocs.Proofs.Sequence
import Mathlib.Data.List.Infix
import Mathlib.Data.List.Nodup

/-!
# Where pages and folders belong

A layout says in which folder each listed page stands, and there is a folder for each directory on
the way to a page. It is sound if no two nodes below one folder share a name. Pages are laid out by
their directories, and in the end each stands in the folder that it declares, if there is one.
Between the two lie the layouts in which some pages have been moved and the others wait.
-/

namespace SchemaDocs

variable {sources done : List SourcePage} {source : SourcePage} {way passed directories : List String}
  {isFolder : List String → Prop}

namespace SourcePage

def isListed (source : SourcePage) : Bool := !source.isIndex && source.page.inNav

/-- Whether the directories of the page have folders. -/
def needsFolders (source : SourcePage) : Bool := source.isIndex || source.page.inNav

def navEntry (source : SourcePage) : NavEntry :=
  { kind := .page, id := source.id, name := source.name, title := source.title, order := source.page.order,
    document := some source.documentPath }

theorem IsNamed.segments_eq (h : source.IsNamed) : source.segments = source.directories ++ [source.name] := by
  rw [directories, name, List.getLast?_eq_getLast_of_ne_nil h.segments_ne_nil, Option.getD_some,
    List.dropLast_append_getLast]

theorem IsNamed.directories_names (h : source.IsNamed) : ∀ name ∈ source.directories, IsEntryName name := by
  intro name hname
  apply h.names name
  rw [h.segments_eq]
  exact List.mem_append_left _ hname

/-- A page that describes its directory has the directory's path for its identity. -/
def IsInPlace (source : SourcePage) : Prop :=
  source.isIndex → source.id = String.intercalate "/" source.directories

theorem IsNamed.isInPlace (h : source.IsNamed) : source.IsInPlace := by
  intro hindex
  rw [h.id_eq, if_pos hindex]

theorem IsNamed.id_of_isListed (h : source.IsNamed) (hlisted : source.isListed) :
    source.id = String.intercalate "/" (source.directories ++ [source.name]) := by
  rw [isListed, Bool.and_eq_true, Bool.not_eq_true'] at hlisted
  rw [h.id_eq, hlisted.1, if_neg Bool.false_ne_true, h.segments_eq]

end SourcePage

def listedPages (sources : List SourcePage) : List SourcePage := sources.filter SourcePage.isListed

def indexPages (sources : List SourcePage) : List SourcePage := sources.filter (·.isIndex)

theorem map_id_indexPages (hsources : ∀ source ∈ sources, source.IsInPlace) :
    (indexPages sources).map SourcePage.id =
      ((indexPages sources).map SourcePage.directories).map (String.intercalate "/") := by
  rw [List.map_map]
  refine List.map_congr_left fun source hsource => ?_
  obtain ⟨hsource, hindex⟩ := List.mem_filter.mp hsource
  exact hsources source hsource hindex

/-! ### Folders -/

/-- There is a folder for each directory on the way to a listed page or to a page that describes its
directory. -/
def HasFolder (sources : List SourcePage) (way : List String) : Prop :=
  way ≠ [] ∧ ∃ source ∈ sources, source.needsFolders ∧ way <+: source.directories

instance (sources : List SourcePage) : DecidablePred (HasFolder sources) := fun way =>
  inferInstanceAs (Decidable (way ≠ [] ∧ ∃ source ∈ sources, source.needsFolders ∧ way <+: source.directories))

theorem HasFolder.mono {others : List SourcePage} (h : HasFolder sources way) (hsubset : sources ⊆ others) :
    HasFolder others way := by
  obtain ⟨hne, source, hsource, hfolders⟩ := h
  exact ⟨hne, source, hsubset hsource, hfolders⟩

theorem HasFolder.names (h : HasFolder sources way) (hsources : ∀ source ∈ sources, source.IsNamed) :
    ∀ name ∈ way, IsEntryName name := by
  obtain ⟨-, source, hsource, -, hway⟩ := h
  intro name hname
  exact (hsources source hsource).directories_names name (hway.subset hname)

/-- The ways that lead to folders, among them the way without directories that leads to the root. -/
def folderWays (sources : List SourcePage) : List (List String) :=
  [] :: (sources.filter SourcePage.needsFolders).flatMap fun source => source.directories.inits

theorem mem_folderWays_iff : way ∈ folderWays sources ↔ way = [] ∨ HasFolder sources way := by
  rw [folderWays, List.mem_cons, List.mem_flatMap]
  by_cases hnil : way = []
  · simp [hnil]
  · simp only [hnil, false_or, List.mem_filter, List.mem_inits, HasFolder, ne_eq, not_false_eq_true, true_and, and_assoc]

theorem names_of_mem_folderWays (hsources : ∀ source ∈ sources, source.IsNamed) (hway : way ∈ folderWays sources) :
    ∀ name ∈ way, IsEntryName name := by
  rcases mem_folderWays_iff.mp hway with rfl | hfolder
  · exact List.forall_mem_nil _
  · exact hfolder.names hsources

/-- The folders that there are once the folder at the end of a way is made. -/
def WithFolders (isFolder : List String → Prop) (passed directories way : List String) : Prop :=
  isFolder way ∨ ∃ extra, extra ≠ [] ∧ extra <+: directories ∧ way = passed ++ extra

theorem withFolders_nil {way : List String} : WithFolders isFolder passed [] way ↔ isFolder way := by
  simp only [WithFolders, List.prefix_nil]
  constructor
  · intro h
    rcases h with h | ⟨extra, hne, hnil, -⟩
    · exact h
    · exact absurd hnil hne
  · exact .inl

theorem withFolders_cons {directory : String} {way : List String} :
    WithFolders isFolder passed (directory :: directories) way ↔
      WithFolders (fun way => isFolder way ∨ way = passed ++ [directory]) (passed ++ [directory]) directories way := by
  simp only [WithFolders, or_assoc]
  apply or_congr_right
  constructor
  · intro ⟨extra, hne, hleads, hway⟩
    obtain ⟨first, others, rfl⟩ := List.exists_cons_of_ne_nil hne
    obtain ⟨rfl, hothers⟩ := List.cons_prefix_cons.mp hleads
    by_cases hnil : others = []
    · exact .inl (hnil ▸ hway)
    · exact .inr ⟨others, hnil, hothers, by rw [hway, List.append_assoc, List.singleton_append]⟩
  · intro h
    rcases h with hway | ⟨extra, hne, hleads, hway⟩
    · exact ⟨[directory], List.cons_ne_nil _ _, List.cons_prefix_cons.mpr ⟨rfl, List.nil_prefix⟩, hway⟩
    · exact ⟨directory :: extra, List.cons_ne_nil _ _, List.cons_prefix_cons.mpr ⟨rfl, hleads⟩,
        by rw [hway, List.append_assoc, List.singleton_append]⟩

namespace SourcePage

/-- The way to the folder that a page declares, if there is such a folder. -/
def declaredWay? (sources : List SourcePage) (source : SourcePage) : Option (List String) :=
  source.page.declaredParent.bind fun declared =>
    (folderWays sources).find? fun way => String.intercalate "/" way = PageTree.trimSlashes declared

/-- The way to the folder that a page is to stand in. -/
def home (sources : List SourcePage) (source : SourcePage) : List String :=
  (source.declaredWay? sources).getD source.directories

/-- A page declares the folder whose path it gives, up to slashes at the ends; the empty path is that
of the root. -/
theorem declaredWay?_eq_some_iff (hsources : ∀ source ∈ sources, source.IsNamed) :
    source.declaredWay? sources = some way ↔
      ∃ declared, source.page.declaredParent = some declared ∧ (way = [] ∨ HasFolder sources way) ∧
        String.intercalate "/" way = PageTree.trimSlashes declared := by
  rw [declaredWay?, Option.bind_eq_some_iff]
  refine exists_congr fun declared => and_congr_right fun _ => ?_
  rw [find?_eq_some_iff_of_unique, mem_folderWays_iff, decide_eq_true_eq]
  intro left hleft right hright hleftPath hrightPath
  rw [decide_eq_true_eq] at hleftPath hrightPath
  exact way_unique (names_of_mem_folderWays hsources hleft) (names_of_mem_folderWays hsources hright)
    (hleftPath.trans hrightPath.symm)

/-- A page is to stand in the folder that it declares if there is one, and else in that of its
directories. -/
inductive IsHome (sources : List SourcePage) (source : SourcePage) : List String → Prop where
  | declared {declared : String} {way : List String} (hdeclared : source.page.declaredParent = some declared)
      (hway : way = [] ∨ HasFolder sources way) (hpath : String.intercalate "/" way = PageTree.trimSlashes declared) :
      IsHome sources source way
  | directories (hnone : ∀ declared way, source.page.declaredParent = some declared → way = [] ∨ HasFolder sources way →
      String.intercalate "/" way ≠ PageTree.trimSlashes declared) : IsHome sources source source.directories

theorem isHome_home (hsources : ∀ source ∈ sources, source.IsNamed) (source : SourcePage) :
    source.IsHome sources (source.home sources) := by
  rw [home]
  cases hway : source.declaredWay? sources with
  | none =>
    refine .directories fun declared way hdeclared hfolder hpath => ?_
    rw [(declaredWay?_eq_some_iff hsources).mpr ⟨declared, hdeclared, hfolder, hpath⟩] at hway
    cases hway
  | some way =>
    obtain ⟨declared, hdeclared, hfolder, hpath⟩ := (declaredWay?_eq_some_iff hsources).mp hway
    exact .declared hdeclared hfolder hpath

end SourcePage

/-! ### Layouts -/

/-- A page with the way to the folder that it stands in. -/
structure Stand where
  page : SourcePage
  way : List String
deriving DecidableEq

def Stand.place (stand : Stand) : List String := stand.way ++ [stand.page.name]

/-- No two siblings share a name: no two pages have one place, and no page has that of a folder. -/
structure Apart (isFolder : List String → Prop) (stands : List Stand) : Prop where
  pages : (stands.map Stand.place).Nodup
  folders : ∀ stand ∈ stands, ¬ isFolder stand.place

instance (isFolder : List String → Prop) [DecidablePred isFolder] (stands : List Stand) :
    Decidable (Apart isFolder stands) :=
  decidable_of_iff ((stands.map Stand.place).Nodup ∧ ∀ stand ∈ stands, ¬ isFolder stand.place)
    ⟨fun ⟨pages, folders⟩ => ⟨pages, folders⟩, fun ⟨pages, folders⟩ => ⟨pages, folders⟩⟩

theorem Apart.of_subset {isFolder others : List String → Prop} {stands rest : List Stand}
    (h : Apart others (stands ++ rest)) (hfolders : ∀ way, isFolder way → others way) : Apart isFolder stands where
  pages := by
    have hpages := h.pages
    rw [List.map_append] at hpages
    exact hpages.of_append_left
  folders stand hstand hfolder := h.folders stand (List.mem_append_left _ hstand) (hfolders _ hfolder)

/-- The layout in which some pages stand where they are to stand and the others wait in their
directories. -/
def standing (sources moved waiting : List SourcePage) : List Stand :=
  (moved.map fun source => ⟨source, source.home sources⟩) ++ waiting.map fun source => ⟨source, source.directories⟩

/-- The layout by directories. -/
def directoryLayout (sources : List SourcePage) : List Stand := standing sources [] (listedPages sources)

/-- The layout in which each page stands where it is to stand. -/
def finalLayout (sources : List SourcePage) : List Stand := standing sources (listedPages sources) []

/-! ### One page more -/

theorem directoryLayout_eq (sources : List SourcePage) :
    directoryLayout sources = (listedPages sources).map fun source => ⟨source, source.directories⟩ := rfl

theorem directoryLayout_append (front back : List SourcePage) :
    directoryLayout (front ++ back) = directoryLayout front ++ directoryLayout back := by
  rw [directoryLayout_eq, listedPages, List.filter_append, List.map_append]
  rfl

theorem directoryLayout_of_isListed (hlisted : source.isListed) :
    directoryLayout [source] = [⟨source, source.directories⟩] := by
  rw [directoryLayout_eq, listedPages, List.filter_cons_of_pos hlisted]
  rfl

theorem directoryLayout_of_not_isListed (hlisted : ¬ source.isListed) : directoryLayout [source] = [] := by
  rw [directoryLayout_eq, listedPages, List.filter_cons_of_neg hlisted]
  rfl

theorem hasFolder_append_of_needsFolders {way : List String} (hfolders : source.needsFolders) :
    HasFolder (done ++ [source]) way ↔ WithFolders (HasFolder done) [] source.directories way := by
  simp only [HasFolder, WithFolders, List.mem_append, List.mem_singleton, List.nil_append]
  constructor
  · intro ⟨hne, other, hother, hother', hleads⟩
    rcases hother with hother | rfl
    · exact .inl ⟨hne, other, hother, hother', hleads⟩
    · exact .inr ⟨way, hne, hleads, rfl⟩
  · intro h
    rcases h with ⟨hne, other, hother, hother', hleads⟩ | ⟨extra, hne, hleads, rfl⟩
    · exact ⟨hne, other, .inl hother, hother', hleads⟩
    · exact ⟨hne, source, .inr rfl, hfolders, hleads⟩

theorem hasFolder_append_of_not_needsFolders {way : List String} (hfolders : ¬ source.needsFolders) :
    HasFolder (done ++ [source]) way ↔ HasFolder done way := by
  constructor
  · intro ⟨hne, other, hother, hother', hleads⟩
    rcases List.mem_append.mp hother with hother | hother
    · exact ⟨hne, other, hother, hother', hleads⟩
    · rw [List.mem_singleton.mp hother] at hother'
      exact absurd hother' hfolders
  · intro h
    exact h.mono (List.subset_append_left _ _)

end SchemaDocs
