import SchemaDocs.Proofs.Page.Candidates
import SchemaDocs.Proofs.Sequence

/-!
# The files that hold pages

A file holds a page if it has an extension of pages, nothing on the way to it is passed over, and its
content can be read as a page. Where all pages that describe directories below the topmost one can be read,
the files that hold pages are those that pages are found in, one in each, in the order of their places.
-/

namespace SchemaDocs.Discovery

open SchemaDocs.Tree (AreListed entryFiles Precedes)

/-- The content of a file is the text of a page. -/
def Reads (content : ByteArray) (page : Page) : Prop :=
  ∃ text, String.fromUTF8? content = some text ∧ Page.parse text = .ok page

/-- The file at a place holds a page. -/
inductive Holds (place : List String) (content : ByteArray) : SourcePage → Prop where
  | page {directories : List String} {stem : String} {page : Page} (hplace : IsPagePlace place directories stem)
    (hpage : Reads content page) :
    Holds place content {
      id := String.intercalate "/" (if stem = "index" then directories else directories ++ [stem])
      segments := directories ++ [stem]
      isIndex := decide (stem = "index")
      page }

/-- The pages that describe directories below the topmost one can be read. -/
def IndexesRead (entries : List (String × Tree)) : Prop :=
  ∀ place directories content, IsPagePlace place directories "index" → directories ≠ [] →
    (Tree.directory entries).get? place = some (.file content) → ∃ page, Reads content page

/-- These are the files below a directory that hold pages, in the order of their places, and these their pages. -/
structure Finds (entries : List (String × Tree)) (found : List (List String × ByteArray)) (sources : List SourcePage) :
    Prop where
  ordered : found.Pairwise Precedes
  mem_iff : ∀ place content, (place, content) ∈ found ↔
    (Tree.directory entries).get? place = some (.file content) ∧ ∃ source, Holds place content source
  held : List.Forall₂ (fun file source => Holds file.1 file.2 source) found sources

theorem readPage?_eq_some_iff {content : ByteArray} {page : Page} :
    readPage? content = some page ↔ Reads content page := by
  have hparsed {outcome : Except FrontMatterError Page} : outcome.toOption = some page ↔ outcome = .ok page := by
    cases outcome <;> simp [Except.toOption]
  rw [readPage?, Option.bind_eq_some_iff, Reads]
  simp only [hparsed]

/-! ### Pages -/

section Candidates

variable {directories : List String} {stem : String} {content : ByteArray}

theorem Candidate.isIndex_mk : Candidate.isIndex ⟨directories ++ [stem], content⟩ = decide (stem = "index") := by
  simp [Candidate.isIndex]

theorem Candidate.id_mk :
    Candidate.id ⟨directories ++ [stem], content⟩ =
      String.intercalate "/" (if stem = "index" then directories else directories ++ [stem]) := by
  simp [Candidate.id, Candidate.isIndex_mk]

end Candidates

def pageAt? (file : List String × ByteArray) : Option SourcePage :=
  (candidateBelow? [] file.1 file.2).bind Candidate.source?

theorem pageAt?_eq_some_iff {place : List String} {content : ByteArray} {source : SourcePage} :
    pageAt? (place, content) = some source ↔ Holds place content source := by
  rw [pageAt?, Option.bind_eq_some_iff]
  constructor
  · rintro ⟨candidate, hcandidate, hsource⟩
    obtain ⟨directories, stem, hplace, rfl⟩ := candidateBelow?_eq_some_iff.mp hcandidate
    obtain ⟨page, hpage, rfl⟩ := Option.map_eq_some_iff.mp hsource
    rw [Candidate.id_mk, Candidate.isIndex_mk]
    exact .page hplace (readPage?_eq_some_iff.mp hpage)
  · rintro @⟨directories, stem, page, hplace, hpage⟩
    refine ⟨⟨directories ++ [stem], content⟩, candidateBelow?_eq_some_iff.mpr ⟨directories, stem, hplace, rfl⟩, ?_⟩
    rw [Candidate.source?, readPage?_eq_some_iff.mpr hpage, Candidate.id_mk, Candidate.isIndex_mk]
    rfl

private theorem lost_eq_nil {entries : List (String × Tree)} (hlisted : AreListed entries)
    (hindex : IndexesRead entries) :
    (entryCandidates [] entries).filterMap Candidate.lostDirectory? = [] := by
  rw [List.filterMap_eq_nil_iff]
  intro ⟨segments, content⟩ hcandidate
  obtain ⟨place, directories, stem, hplace, hfile, rfl⟩ := mem_entryCandidates_iff.mp hcandidate
  refine if_neg fun hlost => ?_
  rw [Bool.and_eq_true, Bool.and_eq_true, Candidate.isIndex_mk, Candidate.id_mk, decide_eq_true_iff] at hlost
  obtain ⟨⟨rfl, hid⟩, hsource⟩ := hlost
  have hbelow : directories ≠ [] := by
    rintro rfl
    exact absurd hid (by decide)
  obtain ⟨page, hpage⟩ := hindex place directories content hplace hbelow ((Tree.mem_entryFiles_iff hlisted).mp hfile)
  rw [Candidate.source?, readPage?_eq_some_iff.mpr hpage] at hsource
  cases hsource

private theorem finds_pagesOf {entries : List (String × Tree)} (hlisted : AreListed entries)
    (hindex : IndexesRead entries) :
    Finds entries ((entryFiles entries).filter fun file => (pageAt? file).isSome) (pagesOf (entryCandidates [] entries)) := by
  have hpages : pagesOf (entryCandidates [] entries) = (entryFiles entries).filterMap pageAt? := by
    rw [pagesOf, lost_eq_nil hlisted hindex, entryCandidates_eq_filterMap, List.filterMap_filterMap]
    exact List.filter_eq_self.mpr fun _ _ => rfl
  refine ⟨(Tree.pairwise_entryFiles hlisted).filter _, fun place content => ?_, ?_⟩
  · rw [List.mem_filter, Tree.mem_entryFiles_iff hlisted, Option.isSome_iff_exists]
    simp only [pageAt?_eq_some_iff]
  · rw [hpages]
    exact (forall₂_filterMap pageAt? _).imp fun _ _ => pageAt?_eq_some_iff.mp

theorem Holds.unique {place : List String} {content : ByteArray} {left right : SourcePage}
    (hleft : Holds place content left) (hright : Holds place content right) : left = right :=
  Option.some.inj ((pageAt?_eq_some_iff.mpr hleft).symm.trans (pageAt?_eq_some_iff.mpr hright))

private theorem Finds.eq_of_same {entries rest : List (String × Tree)} {found others : List (List String × ByteArray)}
    {left right : List SourcePage} (hleft : Finds entries found left) (hright : Finds rest others right)
    (hsame : ∀ place content source, Holds place content source →
      ((Tree.directory entries).get? place = some (.file content) ↔
        (Tree.directory rest).get? place = some (.file content))) : left = right := by
  have hfound : found = others := by
    refine List.Pairwise.eq_of_mem_iff hleft.ordered hright.ordered fun ⟨place, content⟩ => ?_
    rw [hleft.mem_iff, hright.mem_iff]
    exact and_congr_left fun ⟨source, hsource⟩ => hsame place content source hsource
  subst hfound
  have hunique : Relator.RightUnique fun (file : List String × ByteArray) source => Holds file.1 file.2 source :=
    fun _ _ _ => Holds.unique
  exact List.right_unique_forall₂' hunique hleft.held hright.held

/-- Where the pages that describe directories below the topmost one can be read, a page is found in each file
that holds one, and in no other; the pages stand in the order of the places of their files, name by name.
The other files make no difference, also those that fail. -/
theorem discover_exact {files : FileSystem} {directory : String} {entries : List (String × Tree)}
    (hfind : files.find directory = .ok (.directory entries)) (hlisted : AreListed entries) (hindex : IndexesRead entries) :
    (∃ found, Finds entries found (discover files directory)) ∧
      ∀ (other : FileSystem) (rest : List (String × Tree)), other.find directory = .ok (.directory rest) →
        AreListed rest → IndexesRead rest →
        (∀ place content source, Holds place content source →
          ((Tree.directory entries).get? place = some (.file content) ↔
            (Tree.directory rest).get? place = some (.file content))) →
        discover other directory = discover files directory := by
  have hdiscover {files : FileSystem} {entries : List (String × Tree)}
      (hfind : files.find directory = .ok (.directory entries)) :
      discover files directory = pagesOf (entryCandidates [] entries) := by
    rw [discover, hfind]
  refine ⟨⟨_, hdiscover hfind ▸ finds_pagesOf hlisted hindex⟩, fun other rest hother hrest hread hsame => ?_⟩
  rw [hdiscover hfind, hdiscover hother]
  exact ((finds_pagesOf hlisted hindex).eq_of_same (finds_pagesOf hrest hread) hsame).symm

/-! ### A directory with files that fail -/

/-- A directory that is called like a page, a reserved name, and a name that stands behind that of a directory
although its path stands before those below that directory. -/
def soundEntries : List (String × Tree) := [
  ("_draft.md", .file "# Draft".toUTF8),
  ("a", .directory [("index.md", .file "# A".toUTF8), ("x.y.markdown", .file "text".toUTF8)]),
  ("a-b.md", .file "# B".toUTF8),
  ("b.md", .directory [("c.md", .file "".toUTF8)])]

/-- The same with a page that describes the topmost directory and cannot be read. -/
def sampleEntries : List (String × Tree) := [
  ("_draft.md", .file "# Draft".toUTF8),
  ("a", .directory [("index.md", .file "# A".toUTF8), ("x.y.markdown", .file "text".toUTF8)]),
  ("a-b.md", .file "# B".toUTF8),
  ("b.md", .directory [("c.md", .file "".toUTF8)]),
  ("index.md", .file ⟨#[0xFF]⟩)]

/-- A file system with one directory. -/
def filesOf (entries : List (String × Tree)) : FileSystem where
  root := .directory [("p", .directory entries)]

private theorem soundEntries_listed : AreListed soundEntries := by
  refine ⟨by decide, trivial, by decide, ⟨by decide, trivial, by decide, trivial, trivial⟩, by decide, trivial, ?_⟩
  exact ⟨by decide, ⟨by decide, trivial, trivial⟩, trivial⟩

private theorem sampleEntries_listed : AreListed sampleEntries := by
  refine ⟨by decide, trivial, by decide, ⟨by decide, trivial, by decide, trivial, trivial⟩, by decide, trivial, ?_⟩
  exact ⟨by decide, ⟨by decide, trivial, trivial⟩, by decide, trivial, trivial⟩

private theorem indexesRead_of_readable {entries : List (String × Tree)} (hlisted : AreListed entries)
    (hread : ∀ file ∈ entryFiles entries, file.1.length < 2 ∨ (readPage? file.2).isSome) : IndexesRead entries := by
  intro place directories content hplace hbelow hfile
  obtain ⟨extension, -, hparts⟩ := hplace.name
  have hlength : ¬ place.length < 2 := by
    have hpositive := List.length_pos_iff.mpr hbelow
    rw [hparts, List.length_append, List.length_singleton]
    omega
  have hpage := (hread _ ((Tree.mem_entryFiles_iff hlisted).mpr hfile)).resolve_left hlength
  obtain ⟨page, hpage⟩ := Option.isSome_iff_exists.mp hpage
  exact ⟨page, readPage?_eq_some_iff.mp hpage⟩

private theorem soundEntries_read : IndexesRead soundEntries :=
  indexesRead_of_readable soundEntries_listed (by decide +kernel)

private theorem sampleEntries_read : IndexesRead sampleEntries :=
  indexesRead_of_readable sampleEntries_listed (by decide +kernel)

private theorem sample_same {place : List String} {content : ByteArray} {source : SourcePage}
    (h : Holds place content source) :
    (Tree.directory sampleEntries).get? place = some (.file content) ↔
      (Tree.directory soundEntries).get? place = some (.file content) := by
  have hkept : ∀ file ∈ entryFiles sampleEntries, file ∈ entryFiles soundEntries ∨ (pageAt? file).isNone := by
    have hbroken : pageAt? (["index.md"], ⟨#[0xFF]⟩) = none := by decide +kernel
    simp [sampleEntries, soundEntries, entryFiles, Tree.files, hbroken]
  have hthere : ∀ file ∈ entryFiles soundEntries, file ∈ entryFiles sampleEntries := by
    simp [sampleEntries, soundEntries, entryFiles, Tree.files]
  rw [← Tree.mem_entryFiles_iff sampleEntries_listed, ← Tree.mem_entryFiles_iff soundEntries_listed]
  refine ⟨fun hfile => (hkept _ hfile).resolve_right ?_, hthere _⟩
  rw [pageAt?_eq_some_iff.mpr h]
  exact Bool.false_ne_true

theorem discover_exact_sample :
    (filesOf sampleEntries).find "p" = .ok (.directory sampleEntries) ∧ AreListed sampleEntries ∧
      IndexesRead sampleEntries ∧
      (discover (filesOf sampleEntries) "p").map (·.segments) = [["a", "index"], ["a", "x.y"], ["a-b"], ["b.md", "c"]] ∧
      (∃ found, Finds sampleEntries found (discover (filesOf sampleEntries) "p")) ∧
      discover (filesOf soundEntries) "p" = discover (filesOf sampleEntries) "p" := by
  have hfind : (filesOf sampleEntries).find "p" = .ok (.directory sampleEntries) := rfl
  have hsound : (filesOf soundEntries).find "p" = .ok (.directory soundEntries) := rfl
  obtain ⟨hfound, hsame⟩ := discover_exact hfind sampleEntries_listed sampleEntries_read
  exact ⟨hfind, sampleEntries_listed, sampleEntries_read, by decide +kernel, hfound,
    hsame _ _ hsound soundEntries_listed soundEntries_read fun _ _ _ => sample_same⟩

end SchemaDocs.Discovery
