import SchemaDocs.Proofs.Page.Files
import SchemaDocs.Proofs.Page.Names

/-!
# Pages lost with their directory

Where the page that describes a directory cannot be read, the directory is broken, and the pages in and below
it are lost. They are told by their identities. The identity of a page below a directory begins with the
path of the directory and a slash, and no other identity does; but a page beside the directory that is called
like it has the directory's own path for its identity, and is lost as well. All other pages stay.
-/

namespace SchemaDocs

/-! ### Identities below a directory -/

private theorem way_slash_prefix_iff {way other : List String} (hne : way ≠ []) (hway : ∀ name ∈ way, IsEntryName name)
    (hother : ∀ name ∈ other, IsEntryName name) :
    (String.intercalate "/" way ++ "/").toList <+: (String.intercalate "/" other).toList ↔
      ∃ rest, rest ≠ [] ∧ other = way ++ rest := by
  constructor
  · rintro ⟨rest, hrest⟩
    have htext : String.intercalate "/" other = String.intercalate "/" way ++ "/" ++ String.ofList rest := by
      rw [← String.toList_inj, String.toList_append, String.toList_ofList, hrest]
    have hsome : other ≠ [] := by
      rintro rfl
      simp at hrest
    refine ⟨Text.pieces '/' (String.ofList rest), Text.pieces_ne_nil '/' _, ?_⟩
    rw [← pieces_way hsome hother, htext, Text.pieces_append_separator rfl, pieces_way hne hway]
  · rintro ⟨rest, hrest, rfl⟩
    rw [String.intercalate_append_of_ne_nil hne hrest]
    exact ⟨(String.intercalate "/" rest).toList, String.toList_append.symm⟩

/-- The names that make the identity of a page. -/
def SourcePage.idNames (source : SourcePage) : List String :=
  if source.isIndex then source.directories else source.segments

namespace Discovery

open SchemaDocs.Tree (AreListed AreNamed entryFiles Precedes)

variable {entries : List (String × Tree)} {source : SourcePage} {way place : List String} {content : ByteArray}

theorem isWithin_iff (hsource : source.IsNamed) (hne : way ≠ []) (hway : ∀ name ∈ way, IsEntryName name) :
    isWithin (String.intercalate "/" way) source ↔ way <+: source.idNames := by
  have hnames : ∀ name ∈ source.idNames, IsEntryName name := by
    rw [SourcePage.idNames]
    split
    · exact fun name hname => hsource.names name (List.dropLast_subset _ hname)
    · exact hsource.names
  have hid : source.id = String.intercalate "/" source.idNames := hsource.id_eq
  rw [isWithin, Bool.or_eq_true, decide_eq_true_eq, List.isPrefixOf_iff_prefix, hid, way_slash_prefix_iff hne hway hnames]
  constructor
  · rintro (hsame | ⟨rest, -, hrest⟩)
    · rw [way_unique hnames hway hsame]
    · exact ⟨rest, hrest.symm⟩
  · rintro ⟨rest, hrest⟩
    by_cases hnil : rest = []
    · exact .inl (by rw [← hrest, hnil, List.append_nil])
    · exact .inr ⟨rest, hnil, hrest.symm⟩

/-! ### Broken directories -/

/-- A page that describes a directory below the topmost one cannot be read. -/
structure IsBroken (entries : List (String × Tree)) (way : List String) : Prop where
  below : way ≠ []
  unread : ∃ place content, IsPagePlace place way "index" ∧ (Tree.directory entries).get? place = some (.file content) ∧
    ¬ ∃ page, Reads content page

/-- A page that is lost with a broken directory. It lies in the directory or below it, or beside it under its name. -/
inductive IsLost (entries : List (String × Tree)) (source : SourcePage) : Prop where
  | within {way : List String} (hbroken : IsBroken entries way) (hway : way <+: source.directories)
  | namesake (hindex : source.isIndex = false) (hbroken : IsBroken entries source.segments)

private theorem IsBroken.names (h : IsBroken entries way) (hnamed : AreNamed entries) :
    ∀ name ∈ way, IsEntryName name := by
  obtain ⟨place, content, hplace, hfile, -⟩ := h.unread
  obtain ⟨extension, -, rfl⟩ := hplace.name
  have hroot : (Tree.directory entries).IsNamed := hnamed
  exact (List.forall_mem_append.mp (Tree.isNamed_of_get? hroot hfile).1).1

private theorem isLost_iff (hsource : source.segments ≠ []) :
    IsLost entries source ↔ ∃ way, IsBroken entries way ∧ way <+: source.idNames := by
  have hsegments : source.segments = source.directories ++ [source.segments.getLast hsource] :=
    (List.dropLast_append_getLast hsource).symm
  constructor
  · rintro (⟨hbroken, hway⟩ | ⟨hindex, hbroken⟩)
    · refine ⟨_, hbroken, ?_⟩
      rw [SourcePage.idNames]
      split
      · exact hway
      · rw [hsegments]
        exact hway.trans (List.prefix_append _ _)
    · refine ⟨_, hbroken, ?_⟩
      rw [SourcePage.idNames, hindex, if_neg Bool.false_ne_true]
  · rintro ⟨way, hbroken, hway⟩
    rw [SourcePage.idNames] at hway
    split at hway
    · exact .within hbroken hway
    · rename_i hindex
      rw [hsegments, List.prefix_concat_iff, ← hsegments] at hway
      rcases hway with rfl | hway
      · exact .namesake (Bool.not_eq_true _ ▸ hindex) hbroken
      · exact .within hbroken hway

private theorem lostDirectory?_eq_some_iff {directories : List String} {stem id : String}
    (hdirectories : ∀ name ∈ directories, IsEntryName name) :
    Candidate.lostDirectory? ⟨directories ++ [stem], content⟩ = some id ↔
      stem = "index" ∧ directories ≠ [] ∧ (¬ ∃ page, Reads content page) ∧ id = String.intercalate "/" directories := by
  have hunread : (Candidate.source? ⟨directories ++ [stem], content⟩).isNone ↔ ¬ ∃ page, Reads content page := by
    simp only [Candidate.source?, Option.isNone_map, Option.isNone_iff_eq_none, Option.eq_none_iff_forall_ne_some,
      ne_eq, readPage?_eq_some_iff, not_exists]
  have hbelow : String.intercalate "/" directories = "" ↔ directories = [] :=
    ⟨way_eq_nil hdirectories, fun hnil => hnil ▸ rfl⟩
  rw [Candidate.lostDirectory?, Candidate.isIndex_mk, Candidate.id_mk, Option.ite_none_right_eq_some, Bool.and_eq_true,
    Bool.and_eq_true, hunread, decide_eq_true_eq]
  constructor
  · rintro ⟨⟨⟨rfl, hid⟩, hcontent⟩, hsame⟩
    rw [if_pos rfl, Bool.not_eq_true', String.isEmpty_eq_false_iff, ne_eq, hbelow] at hid
    exact ⟨rfl, hid, hcontent, (Option.some.inj hsame).symm⟩
  · rintro ⟨rfl, hdirectories, hcontent, rfl⟩
    rw [if_pos rfl, Bool.not_eq_true', String.isEmpty_eq_false_iff, ne_eq, hbelow]
    exact ⟨⟨⟨rfl, hdirectories⟩, hcontent⟩, rfl⟩

private theorem mem_lost_iff (hlisted : AreListed entries) (hnamed : AreNamed entries) {id : String} :
    id ∈ (entryCandidates [] entries).filterMap Candidate.lostDirectory? ↔
      ∃ way, IsBroken entries way ∧ id = String.intercalate "/" way := by
  rw [List.mem_filterMap]
  constructor
  · rintro ⟨⟨segments, content⟩, hcandidate, hlost⟩
    have hnames := (isNamed_of_mem_entryCandidates hnamed hcandidate).names
    obtain ⟨place, directories, stem, hplace, hfile, rfl⟩ := mem_entryCandidates_iff.mp hcandidate
    obtain ⟨rfl, hbelow, hunread, hid⟩ := (lostDirectory?_eq_some_iff (List.forall_mem_append.mp hnames).1).mp hlost
    exact ⟨directories, ⟨hbelow, place, content, hplace, (Tree.mem_entryFiles_iff hlisted).mp hfile, hunread⟩, hid⟩
  · rintro ⟨way, hbroken, rfl⟩
    obtain ⟨place, content, hplace, hfile, hunread⟩ := hbroken.unread
    refine ⟨⟨way ++ ["index"], content⟩, mem_entryCandidates_iff.mpr ⟨place, way, "index", hplace, ?_, rfl⟩, ?_⟩
    · exact (Tree.mem_entryFiles_iff hlisted).mpr hfile
    · exact (lostDirectory?_eq_some_iff (hbroken.names hnamed)).mpr ⟨rfl, hbroken.below, hunread, rfl⟩

/-! ### The pages that stay -/

/-- The pages below a directory are those of its files that are not lost, in order. -/
structure Keeps (entries : List (String × Tree)) (found : List (List String × ByteArray)) (sources : List SourcePage) :
    Prop where
  ordered : found.Pairwise Precedes
  mem_iff : ∀ place content, (place, content) ∈ found ↔
    (Tree.directory entries).get? place = some (.file content) ∧ ∃ source, Holds place content source ∧ ¬ IsLost entries source
  held : List.Forall₂ (fun file source => Holds file.1 file.2 source) found sources

private theorem isNamed_of_pageAt? (hnamed : AreNamed entries) {file : List String × ByteArray}
    (hfile : file ∈ entryFiles entries) (hpage : pageAt? file = some source) : source.IsNamed := by
  obtain ⟨candidate, hcandidate, hsource⟩ := Option.bind_eq_some_iff.mp hpage
  have hmem : candidate ∈ entryCandidates [] entries := by
    rw [entryCandidates_eq_filterMap]
    exact List.mem_filterMap.mpr ⟨file, hfile, hcandidate⟩
  exact isNamed_of_source? (isNamed_of_mem_entryCandidates hnamed hmem) hsource

def keptAt? (entries : List (String × Tree)) (file : List String × ByteArray) : Option SourcePage :=
  (pageAt? file).filter fun source =>
    !((entryCandidates [] entries).filterMap Candidate.lostDirectory?).any (isWithin · source)

theorem keptAt?_eq_some_iff (hlisted : AreListed entries) (hnamed : AreNamed entries)
    (hfile : (place, content) ∈ entryFiles entries) :
    keptAt? entries (place, content) = some source ↔ Holds place content source ∧ ¬ IsLost entries source := by
  rw [keptAt?, Option.filter_eq_some_iff, pageAt?_eq_some_iff]
  refine and_congr_right fun hholds => ?_
  have hsource := isNamed_of_pageAt? hnamed hfile (pageAt?_eq_some_iff.mpr hholds)
  rw [Bool.not_eq_true', ← Bool.not_eq_true, List.any_eq_true, isLost_iff hsource.segments_ne_nil]
  refine not_congr ⟨?_, ?_⟩
  · rintro ⟨id, hid, hwithin⟩
    obtain ⟨way, hbroken, rfl⟩ := (mem_lost_iff hlisted hnamed).mp hid
    exact ⟨way, hbroken, (isWithin_iff hsource hbroken.below (hbroken.names hnamed)).mp hwithin⟩
  · rintro ⟨way, hbroken, hway⟩
    exact ⟨_, (mem_lost_iff hlisted hnamed).mpr ⟨way, hbroken, rfl⟩,
      (isWithin_iff hsource hbroken.below (hbroken.names hnamed)).mpr hway⟩

private theorem keeps_pagesOf (hlisted : AreListed entries) (hnamed : AreNamed entries) :
    Keeps entries ((entryFiles entries).filter fun file => (keptAt? entries file).isSome)
      (pagesOf (entryCandidates [] entries)) := by
  have hsources : (entryCandidates [] entries).filterMap Candidate.source? = (entryFiles entries).filterMap pageAt? := by
    rw [entryCandidates_eq_filterMap, List.filterMap_filterMap]
    rfl
  have hpages : pagesOf (entryCandidates [] entries) = (entryFiles entries).filterMap (keptAt? entries) := by
    rw [pagesOf, hsources, List.filter_filterMap]
    rfl
  have hkept (file : List String × ByteArray) (hfile : file ∈ entryFiles entries) (source : SourcePage) :
      keptAt? entries file = some source ↔ Holds file.1 file.2 source ∧ ¬ IsLost entries source :=
    keptAt?_eq_some_iff hlisted hnamed hfile
  refine ⟨(Tree.pairwise_entryFiles hlisted).filter _, fun place content => ?_, ?_⟩
  · rw [List.mem_filter, ← Tree.mem_entryFiles_iff hlisted, Option.isSome_iff_exists]
    exact and_congr_right fun hfile => exists_congr fun source => hkept _ hfile source
  · rw [hpages]
    refine forall₂_imp_of_mem (forall₂_filterMap (keptAt? entries) _) fun file hfile source hsource => ?_
    exact ((hkept file (List.mem_filter.mp hfile).1 source).mp hsource).1

/-- A page is missing exactly if it is lost. -/
theorem Keeps.not_mem_iff {found : List (List String × ByteArray)} {sources : List SourcePage}
    (h : Keeps entries found sources) (hfile : (Tree.directory entries).get? place = some (.file content))
    (hholds : Holds place content source) : source ∉ sources ↔ IsLost entries source := by
  rw [← not_iff_not, Decidable.not_not]
  constructor
  · intro hsource
    obtain ⟨⟨other, held⟩, hother, hpage⟩ := (exists_of_mem_forall₂ h.held).1 source hsource
    obtain ⟨-, kept, hkept, hstays⟩ := (h.mem_iff other held).mp hother
    rwa [hpage.unique hkept]
  · intro hstays
    obtain ⟨kept, hkept, hpage⟩ := (exists_of_mem_forall₂ h.held).2 _ ((h.mem_iff place content).mpr ⟨hfile, source, hholds, hstays⟩)
    rwa [hholds.unique hpage]

/-- Pages are found in the files that hold one, but for those that are lost: a page is missing exactly if it lies
in or below a directory whose own page cannot be read, or stands beside such a directory under its name. -/
theorem discover_misses_lost {files : FileSystem} {directory : String}
    (hfind : files.find directory = .ok (.directory entries)) (hlisted : AreListed entries) (hnamed : AreNamed entries) :
    (∃ found, Keeps entries found (discover files directory)) ∧
      ∀ place content source, (Tree.directory entries).get? place = some (.file content) → Holds place content source →
        (source ∉ discover files directory ↔ IsLost entries source) := by
  have hkeeps := keeps_pagesOf hlisted hnamed
  have hdiscover : discover files directory = pagesOf (entryCandidates [] entries) := by
    rw [discover, hfind]
  rw [hdiscover]
  exact ⟨⟨_, hkeeps⟩, fun place content source hfile hholds => hkeeps.not_mem_iff hfile hholds⟩

/-! ### A directory with a namesake -/

/-- A directory whose own page cannot be read, with a page in it, and two pages beside it that are called like it. -/
def brokenEntries : List (String × Tree) := [
  ("guide", .directory [("index.md", .file "---\nunclosed".toUTF8), ("intro.md", .file "# I".toUTF8)]),
  ("guide-extra.md", .file "# E".toUTF8),
  ("guide.md", .file "# G".toUTF8)]

def introPage : SourcePage := ⟨"guide/intro", ["guide", "intro"], false, ⟨none, "# I", [⟨"I", "i", 1⟩]⟩⟩

def extraPage : SourcePage := ⟨"guide-extra", ["guide-extra"], false, ⟨none, "# E", [⟨"E", "e", 1⟩]⟩⟩

def namesakePage : SourcePage := ⟨"guide", ["guide"], false, ⟨none, "# G", [⟨"G", "g", 1⟩]⟩⟩

private theorem brokenEntries_listed : AreListed brokenEntries :=
  ⟨by decide, ⟨by decide, trivial, by decide, trivial, trivial⟩, by decide, trivial, by decide, trivial, trivial⟩

private theorem brokenEntries_named : AreNamed brokenEntries := by
  have hname (name : String) (h : name ≠ "" ∧ '/' ∉ name.toList) : IsEntryName name := ⟨h.1, h.2⟩
  exact ⟨hname _ (by decide), ⟨hname _ (by decide), trivial, hname _ (by decide), trivial, trivial⟩, hname _ (by decide), trivial,
    hname _ (by decide), trivial, trivial⟩

private theorem brokenEntries_found : discover (filesOf brokenEntries) "p" = [extraPage] := by decide +kernel

private theorem holds_introPage : Holds ["guide", "intro.md"] "# I".toUTF8 introPage :=
  pageAt?_eq_some_iff.mp (by decide +kernel)

private theorem holds_extraPage : Holds ["guide-extra.md"] "# E".toUTF8 extraPage :=
  pageAt?_eq_some_iff.mp (by decide +kernel)

private theorem holds_namesakePage : Holds ["guide.md"] "# G".toUTF8 namesakePage :=
  pageAt?_eq_some_iff.mp (by decide +kernel)

theorem discover_misses_lost_namesake :
    (filesOf brokenEntries).find "p" = .ok (.directory brokenEntries) ∧ AreListed brokenEntries ∧ AreNamed brokenEntries ∧
      discover (filesOf brokenEntries) "p" = [extraPage] ∧ IsLost brokenEntries introPage ∧ ¬ IsLost brokenEntries extraPage ∧
      IsLost brokenEntries namesakePage := by
  have hfind : (filesOf brokenEntries).find "p" = .ok (.directory brokenEntries) := rfl
  obtain ⟨-, hmisses⟩ := discover_misses_lost hfind brokenEntries_listed brokenEntries_named
  rw [brokenEntries_found] at hmisses
  refine ⟨hfind, brokenEntries_listed, brokenEntries_named, brokenEntries_found, ?_, ?_, ?_⟩
  · exact (hmisses _ _ _ rfl holds_introPage).mp (by decide)
  · exact fun hlost => (hmisses _ _ _ rfl holds_extraPage).mpr hlost List.mem_cons_self
  · exact (hmisses _ _ _ rfl holds_namesakePage).mp (by decide)

/-- A page is missing although it lies in no directory whose own page cannot be read. -/
theorem namesake_missing :
    (Tree.directory brokenEntries).get? ["guide.md"] = some (.file "# G".toUTF8) ∧
      Holds ["guide.md"] "# G".toUTF8 namesakePage ∧ namesakePage ∉ discover (filesOf brokenEntries) "p" ∧
      ¬ ∃ way, IsBroken brokenEntries way ∧ way <+: namesakePage.directories := by
  refine ⟨rfl, holds_namesakePage, ?_, ?_⟩
  · rw [brokenEntries_found]
    decide
  · rintro ⟨way, hbroken, hway⟩
    exact hbroken.below (List.prefix_nil.mp hway)

end Discovery

end SchemaDocs
