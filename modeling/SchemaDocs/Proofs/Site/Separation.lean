import SchemaDocs.Proofs.Navigation.Subtrees
import SchemaDocs.Proofs.Site.Accounts
import SchemaDocs.Proofs.Site.Namespaces

/-!
# Pages and reference apart

The documents of the reference and the reference in the tree depend on the schema, the title and the limit
of the renderer; the documents of the pages and the pages in the tree depend on the pages that are found,
the title and the limit. Neither depends on the other, although both share a tree, a renderer and a
directory: a page may be called as a declaration is, or stand in a directory of the name `reference`.
-/

namespace SchemaDocs

open FileSystem (Leads)
open PageTree (AreParts)

/-! ### Documents in common -/

/-- A path leads into a directory of a site. -/
def IsBelow (name path : String) : Prop := (Text.pieces '/' path).head? = some name

/-- Two sites have both written a path, with the same content, or neither has. -/
structure Workshop.AgreeAt (left right : Workshop) (path : String) : Prop where
  written : path ∈ left.disk.output.written ↔ path ∈ right.disk.output.written
  content : path ∈ left.disk.output.written → ∃ content,
    left.disk.files.read (left.disk.output.location path) = .ok content ∧
      right.disk.files.read (right.disk.output.location path) = .ok content

namespace Disk

variable {leftStart leftEnd rightStart rightEnd : Disk} {left right : List Write} {leftTop rightTop : List String}
  {path name : String}

private theorem read_of_writeAll (h : leftStart.writeAll left = .ok leftEnd) {write : Write} (hwrite : write ∈ left) :
    leftEnd.files.read (leftEnd.output.location write.1) = .ok write.2 := by
  have hall := holdsAll_of_writeAll h
  rw [OutputDirectory.location_of_root hall.root]
  exact hall.read write hwrite

private theorem agreeAt_of_writeAll {leftRenderer rightRenderer : Markdown.Renderer}
    (hleft : leftStart.writeAll left = .ok leftEnd)
    (hright : rightStart.writeAll right = .ok rightEnd) (hleftStart : leftStart.output.written = [])
    (hrightStart : rightStart.output.written = []) (hsame : ∀ write : Write, write.1 = path → (write ∈ left ↔ write ∈ right)) :
    Workshop.AgreeAt ⟨leftEnd, leftRenderer⟩ ⟨rightEnd, rightRenderer⟩ path := by
  have hwrittenLeft : path ∈ leftEnd.output.written ↔ ∃ write ∈ left, write.1 = path := by
    rw [(holdsAll_of_writeAll hleft).written.mem_iff, hleftStart, List.append_nil, List.mem_map]
  have hwrittenRight : path ∈ rightEnd.output.written ↔ ∃ write ∈ right, write.1 = path := by
    rw [(holdsAll_of_writeAll hright).written.mem_iff, hrightStart, List.append_nil, List.mem_map]
  refine ⟨?_, fun hpath => ?_⟩
  · rw [hwrittenLeft, hwrittenRight]
    exact exists_congr fun write => and_congr_left fun hpath => hsame write hpath
  · obtain ⟨write, hwrite, rfl⟩ := hwrittenLeft.mp hpath
    exact ⟨write.2, read_of_writeAll hleft hwrite, read_of_writeAll hright ((hsame write rfl).mp hwrite)⟩

/-- What one journal writes into a directory the other writes too. -/
private theorem covers_of_writeAll (hleads : leftStart.files.Leads leftStart.output.root leftTop)
    (hleft : leftStart.writeAll left = .ok leftEnd) (hleadsRight : rightStart.files.Leads rightStart.output.root rightTop)
    (hright : rightStart.writeAll right = .ok rightEnd)
    (hsame : ∀ write : Write, IsBelow name write.1 → write ∈ left → write ∈ right) (names : List String) :
    rightEnd.files.root.bareAt? (rightTop ++ name :: names) = leftEnd.files.root.bareAt? (leftTop ++ name :: names) ∨
      (∀ write ∈ left, ¬ leftTop ++ name :: names <+: leftTop ++ Text.pieces '/' write.1) ∧
        leftEnd.files.root.bareAt? (leftTop ++ name :: names) = leftStart.files.root.bareAt? (leftTop ++ name :: names) := by
  have hbelow {write : Write} {rest : List String} (hrest : leftTop ++ name :: names ++ rest = leftTop ++ Text.pieces '/' write.1) :
      Text.pieces '/' write.1 = name :: (names ++ rest) := by
    rw [List.append_assoc] at hrest
    exact (List.append_cancel_left hrest).symm
  rcases bareAt?_of_writeAll hleads hleft (leftTop ++ name :: names) with
    ⟨write, hwrite, hplace, hfile⟩ | ⟨write, hwrite, rest, hempty, hplace, hdirectory⟩ | hspared
  · have hpieces := hbelow ((List.append_nil _).trans hplace)
    have hheld := (held_of_writeAll hleadsRight hright (hsame write (by rw [IsBelow, hpieces]; rfl) hwrite)).1
    rw [hpieces, List.append_nil] at hheld
    exact .inl (hheld.trans hfile.symm)
  · have hpieces := hbelow hplace
    have hheld := (held_of_writeAll hleadsRight hright (hsame write (by rw [IsBelow, hpieces]; rfl) hwrite)).1
    rw [hpieces, ← List.cons_append, ← List.append_assoc] at hheld
    exact .inl ((Tree.directory_above hempty hheld).trans hdirectory.symm)
  · exact .inr hspared

private theorem bareAt?_eq_of_writeAll (hleads : leftStart.files.Leads leftStart.output.root leftTop)
    (hleft : leftStart.writeAll left = .ok leftEnd) (hleadsRight : rightStart.files.Leads rightStart.output.root rightTop)
    (hright : rightStart.writeAll right = .ok rightEnd)
    (hsame : ∀ write : Write, IsBelow name write.1 → (write ∈ left ↔ write ∈ right))
    (hstart : ∀ names, leftStart.files.root.bareAt? (leftTop ++ name :: names) =
      rightStart.files.root.bareAt? (rightTop ++ name :: names)) (names : List String) :
    leftEnd.files.root.bareAt? (leftTop ++ name :: names) = rightEnd.files.root.bareAt? (rightTop ++ name :: names) := by
  rcases covers_of_writeAll hleads hleft hleadsRight hright (fun write hbelow => (hsame write hbelow).mp) names with
    hsettled | ⟨-, hkept⟩
  · exact hsettled.symm
  · rcases covers_of_writeAll hleadsRight hright hleads hleft (fun write hbelow => (hsame write hbelow).mpr) names with
      hsettled | ⟨-, hkeptRight⟩
    · exact hsettled
    · rw [hkept, hkeptRight, hstart]

end Disk

/-! ### The documents of a site -/

namespace Task

variable {limit : Nat} {context other : Context} {sources : List SourcePage} {tree otherTree : PageTree} {task : Task}

def document (limit : Nat) (context : Context) (tree : PageTree) : Task → SiteDocument
  | index => context.indexDocument limit
  | entry declared => declared.document limit context.registry
  | page source => Stage.freshDocument limit source
  | navigation => (Stage.treePath, tree.view.toJson)

theorem mem_journal_iff (tasks : List Task) {write : Write} :
    write ∈ (Duty.total (tasks.map (duty limit context tree))).journal ↔
      ∃ task ∈ tasks, write = (task.document limit context tree).write := by
  induction tasks with
  | nil => simp [Duty.total, Duty.none]
  | cons task tasks ih =>
    have hfirst : (task.duty limit context tree).journal = [(task.document limit context tree).write] := by
      cases task <;> rfl
    show write ∈ (task.duty limit context tree).journal ++ (Duty.total (tasks.map (duty limit context tree))).journal ↔ _
    rw [List.mem_append, hfirst, ih, List.mem_singleton, List.exists_mem_cons_iff]

private theorem isBelow_reference (declared : Entry) : IsBelow "data" declared.path := by
  rw [IsBelow, Entry.path, pieces_documentPath]
  rfl

private theorem isBelow_page {source : SourcePage} (h : source.IsFound) : IsBelow "pages" source.documentPath := by
  rw [IsBelow, h.documentPath_eq, pieces_pagePath]
  rfl

end Task

private theorem IsBelow.unique {name other path : String} (h : IsBelow name path)
    (hother : IsBelow other path) : name = other :=
  Option.some.inj (h.symm.trans hother)

section

variable {limit : Nat} {context other : Context} {sources others : List SourcePage} {tree otherTree : PageTree} {write : Write}

theorem Context.mem_duty_iff :
    write ∈ (context.duty limit sources tree).journal ↔
      ∃ task ∈ Task.all context.registry sources, write = (task.document limit context tree).write := by
  rw [context.duty_alike.journal.mem_iff, Task.mem_journal_iff]

private theorem Context.mem_duty_cases :
    write ∈ (context.duty limit sources tree).journal ↔
      write = (context.indexDocument limit).write ∨
        (∃ declared ∈ context.registry.entries, write = (declared.document limit context.registry).write) ∨
          (∃ source ∈ sources, write = (Stage.freshDocument limit source).write) ∨
            write = SiteDocument.write (Stage.treePath, tree.view.toJson) := by
  rw [Context.mem_duty_iff]
  constructor
  · rintro ⟨task, htask, rfl⟩
    simp only [Task.all, List.mem_cons, List.mem_append, List.mem_map, List.not_mem_nil, or_false] at htask
    rcases htask with rfl | ⟨declared, hdeclared, rfl⟩ | ⟨source, hsource, rfl⟩ | rfl
    · exact .inl rfl
    · exact .inr (.inl ⟨declared, hdeclared, rfl⟩)
    · exact .inr (.inr (.inl ⟨source, hsource, rfl⟩))
    · exact .inr (.inr (.inr rfl))
  · rintro (rfl | ⟨declared, hdeclared, rfl⟩ | ⟨source, hsource, rfl⟩ | rfl)
    · exact ⟨.index, List.mem_cons_self, rfl⟩
    · exact ⟨.entry declared, by simp [Task.all, hdeclared], rfl⟩
    · exact ⟨.page source, by simp [Task.all, hsource], rfl⟩
    · exact ⟨.navigation, by simp [Task.all], rfl⟩

/-- What is written below `data` is the index and the documents of the entries. -/
theorem Context.mem_duty_data_iff (hsources : ∀ source ∈ sources, source.IsFound) (hbelow : IsBelow "data" write.1) :
    write ∈ (context.duty limit sources tree).journal ↔
      write = (context.indexDocument limit).write ∨
        ∃ declared ∈ context.registry.entries, write = (declared.document limit context.registry).write := by
  rw [Context.mem_duty_cases]
  refine ⟨?_, fun h => h.imp_right .inl⟩
  rintro (hindex | hentry | ⟨source, hsource, rfl⟩ | rfl)
  · exact .inl hindex
  · exact .inr hentry
  · exact absurd (hbelow.unique (Task.isBelow_page (hsources source hsource))) (by decide)
  · exact absurd (hbelow.unique (show IsBelow "pages" Stage.treePath from rfl)) (by decide)

private theorem Context.mem_duty_pages_iff (hbelow : IsBelow "pages" write.1) (htree : write.1 ≠ Stage.treePath) :
    write ∈ (context.duty limit sources tree).journal ↔
      ∃ source ∈ sources, write = (Stage.freshDocument limit source).write := by
  rw [Context.mem_duty_cases]
  refine ⟨?_, fun h => .inr (.inr (.inl h))⟩
  rintro (rfl | ⟨declared, -, rfl⟩ | hpage | rfl)
  · exact absurd (hbelow.unique (show IsBelow "data" "data/index.json" from rfl)) (by decide)
  · exact absurd (hbelow.unique (Task.isBelow_reference declared)) (by decide)
  · exact hpage
  · exact absurd rfl htree

private theorem Context.tree_mem_duty :
    SiteDocument.write (Stage.treePath, tree.view.toJson) ∈ (context.duty limit sources tree).journal :=
  Context.mem_duty_cases.mpr (.inr (.inr (.inr rfl)))

end

/-! ### Runs -/

/-- A run of all stages that succeeds, into a directory in which nothing has been claimed. The sources are
the pages that are found when the reference is written. -/
structure StandardRun (limit : Nat) (top : List String) (context : Context) (sources : List SourcePage)
    (start final : Workshop) : Prop where
  registered : Registry.build context.schema = .ok context.registry
  named : start.disk.files.root.IsNamed
  renderer : start.renderer.IsFaithful limit
  leads : start.disk.files.Leads start.disk.output.root top
  unclaimed : start.disk.output.written = []
  found : ∀ report middle, (Stage.runAll context Stage.reference).Yields start report middle →
    context.foundPages middle.disk.files = sources
  yields : ∃ report, (Stage.runAll context Stage.standard).Yields start report final

namespace StandardRun

variable {limit : Nat} {top : List String} {context : Context} {sources : List SourcePage} {start final : Workshop}

private theorem isFound (h : StandardRun limit top context sources start final) :
    ∀ source ∈ sources, source.IsFound := by
  obtain ⟨report, hyields⟩ := h.yields
  have hstandard : Stage.standard = Stage.reference ++ [Stage.pages] := rfl
  rw [hstandard, Stage.runAll, List.foldlM_append] at hyields
  obtain ⟨before, middle, hreference, -⟩ := Build.yields_bind_iff.mp hyields
  have hmiddle : middle.disk.files.root.IsNamed := (Stage.follows_reference.completes hreference).isNamed h.named
  intro source hsource
  rw [← h.found before middle hreference] at hsource
  exact Context.isFound_of_foundPages hmiddle hsource

private theorem exists_tree (h : StandardRun limit top context sources start final) :
    ∃ tree, PageTree.merge context.title sources context.registry = .ok tree ∧
      start.disk.writeAll (context.duty limit sources tree).journal = .ok final.disk := by
  obtain ⟨report, hyields⟩ := h.yields
  rw [Build.Yields, Stage.runAll_standard_eq h.found] at hyields
  obtain ⟨tree, htree⟩ := Stage.exists_tree_of_yields hyields
  exact ⟨tree, htree, ((Stage.fulfils_standardOn htree).of_yields h.renderer hyields).2.1⟩

end StandardRun

/-- A site shows a tree that is made of these parts. -/
structure Workshop.ShowsParts (workshop : Workshop) (pages reference : TreeView) : Prop where
  parts : AreParts pages reference
  document : workshop.disk.files.read (workshop.disk.output.location Stage.treePath) =
    .ok (Disk.jsonBytes (pages.hang reference).toJson)

section

variable {limit : Nat} {leftTop rightTop : List String} {leftContext rightContext : Context}
  {leftSources rightSources : List SourcePage} {leftStart leftEnd rightStart rightEnd : Workshop}

/-- Of two runs with one title and one limit, those of one schema have the same reference, whatever the
pages, and those that find the same pages have the same pages, whatever the schemas. -/
theorem StandardRun.parts_independent (hleft : StandardRun limit leftTop leftContext leftSources leftStart leftEnd)
    (hright : StandardRun limit rightTop rightContext rightSources rightStart rightEnd)
    (htitle : leftContext.title = rightContext.title) :
    ∃ leftPages leftReference rightPages rightReference,
      leftEnd.ShowsParts leftPages leftReference ∧ rightEnd.ShowsParts rightPages rightReference ∧
      (leftContext.schema = rightContext.schema →
        leftReference = rightReference ∧ (∀ path, IsBelow "data" path → leftEnd.AgreeAt rightEnd path) ∧
        ((∀ names, leftStart.disk.files.root.bareAt? (leftTop ++ "data" :: names) =
            rightStart.disk.files.root.bareAt? (rightTop ++ "data" :: names)) →
          ∀ names, leftEnd.disk.files.root.bareAt? (leftTop ++ "data" :: names) =
            rightEnd.disk.files.root.bareAt? (rightTop ++ "data" :: names))) ∧
      (leftSources = rightSources →
        leftPages = rightPages ∧ ∀ path, IsBelow "pages" path → path ≠ Stage.treePath → leftEnd.AgreeAt rightEnd path) := by
  obtain ⟨leftTree, hleftTree, hleftWritten⟩ := hleft.exists_tree
  obtain ⟨rightTree, hrightTree, hrightWritten⟩ := hright.exists_tree
  obtain ⟨leftPages, hleftPages, hleftView, hleftParts⟩ := PageTree.view_of_merge
    (fun source hsource => (hleft.isFound source hsource).toIsNamed) (wellNamed_of_build hleft.registered) hleftTree
  obtain ⟨rightPages, hrightPages, hrightView, hrightParts⟩ := PageTree.view_of_merge
    (fun source hsource => (hright.isFound source hsource).toIsNamed) (wellNamed_of_build hright.registered) hrightTree
  have hleftRead := Disk.read_of_writeAll hleftWritten Context.tree_mem_duty
  have hrightRead := Disk.read_of_writeAll hrightWritten Context.tree_mem_duty
  rw [SiteDocument.write, hleftView] at hleftRead
  rw [SiteDocument.write, hrightView] at hrightRead
  refine ⟨_, _, _, _, ⟨hleftParts, hleftRead⟩, ⟨hrightParts, hrightRead⟩, fun hschema => ?_, ?_⟩
  · have hregistry : leftContext.registry = rightContext.registry := by
      have hbuild := hright.registered
      rw [← hschema, hleft.registered] at hbuild
      exact Except.ok.inj hbuild
    have hindex : leftContext.indexDocument limit = rightContext.indexDocument limit := by
      rw [Context.indexDocument, Context.indexDocument, hregistry, hschema, htitle]
    have hsame (write : Write) (hbelow : IsBelow "data" write.1) :
        write ∈ (leftContext.duty limit leftSources leftTree).journal ↔
          write ∈ (rightContext.duty limit rightSources rightTree).journal := by
      rw [Context.mem_duty_data_iff hleft.isFound hbelow, Context.mem_duty_data_iff hright.isFound hbelow, hindex, hregistry]
    refine ⟨by rw [hregistry], fun path hbelow => ?_, ?_⟩
    · exact Disk.agreeAt_of_writeAll hleftWritten hrightWritten hleft.unclaimed hright.unclaimed
        fun write hwrite => hsame write (hwrite ▸ hbelow)
    · exact Disk.bareAt?_eq_of_writeAll hleft.leads hleftWritten hright.leads hrightWritten hsame
  · rintro rfl
    have hpages : leftPages = rightPages := by
      rw [← htitle, hleftPages] at hrightPages
      exact Except.ok.inj hrightPages
    refine ⟨by rw [hpages], fun path hbelow htree => ?_⟩
    refine Disk.agreeAt_of_writeAll hleftWritten hrightWritten hleft.unclaimed hright.unclaimed fun write hwrite => ?_
    subst hwrite
    rw [Context.mem_duty_pages_iff hbelow htree, Context.mem_duty_pages_iff hbelow htree]

end

/-! ### Runs with a name in common -/

namespace Sample

/-- A directory with a page of a name that a declaration has, in a folder of the name that the reference has. -/
def namesakeFiles : FileSystem where
  root := .directory [
    ("o", .directory []),
    ("p", .directory [("reference", .directory [("M.md", .file "# M\n".toUTF8)])])]

def namesakeWorkshop : Workshop where
  disk := ⟨namesakeFiles, { root := "o" }⟩
  renderer := { limit := 100 }

def namesakePage : SourcePage := ⟨"reference/M", ["reference", "M"], false, ⟨none, "# M\n", [⟨"M", "m", 1⟩]⟩⟩

def pagedContext (schema : Schema) : Context where
  schema
  registry := (.ofEntries schema.entries)
  title := "Docs"
  pagesDirectory := some "p"

private theorem standardRun {schema : Schema} {sources : List SourcePage} {files : FileSystem}
    (hregistered : Registry.build schema = .ok (.ofEntries schema.entries)) (hnamed : files.root.IsNamed)
    (hleads : files.Leads "o" ["o"])
    (hfound : (pagedContext schema).foundPages
      (Stage.runAll (pagedContext schema) Stage.reference ⟨⟨files, { root := "o" }⟩, { limit := 100 }⟩).2.disk.files = sources)
    (hruns : (Stage.runAll (pagedContext schema) Stage.standard ⟨⟨files, { root := "o" }⟩, { limit := 100 }⟩).1.toOption.isSome) :
    ∃ final, StandardRun 100 ["o"] (pagedContext schema) sources ⟨⟨files, { root := "o" }⟩, { limit := 100 }⟩ final := by
  obtain ⟨report, final, hyields⟩ := exists_of_isSome hruns
  refine ⟨final, hregistered, hnamed, Markdown.Renderer.isFaithful_new 100, hleads, rfl, fun before middle hreference => ?_,
    report, hyields⟩
  rw [hreference] at hfound
  exact hfound

private theorem isNamed_labelledFiles : labelledFiles.root.IsNamed := by
  have hname (name : String) (h : name ≠ "" ∧ '/' ∉ name.toList) : IsEntryName name := ⟨h.1, h.2⟩
  exact ⟨hname _ (by decide), trivial, hname _ (by decide),
    ⟨hname _ (by decide), trivial, hname _ (by decide), trivial, trivial⟩, trivial⟩

private theorem isNamed_namesakeFiles : namesakeFiles.root.IsNamed := by
  have hname (name : String) (h : name ≠ "" ∧ '/' ∉ name.toList) : IsEntryName name := ⟨h.1, h.2⟩
  exact ⟨hname _ (by decide), trivial, hname _ (by decide),
    ⟨hname _ (by decide), ⟨hname _ (by decide), trivial, trivial⟩, trivial⟩, trivial⟩

private theorem schema_registered : Registry.build schema = .ok (.ofEntries schema.entries) := rfl

private theorem bareSchema_registered :
    Registry.build { output := "o" } = .ok (.ofEntries (Schema.entries { output := "o" })) := rfl

end Sample

/-- Two runs of one schema with pages of other names, and a run of no declarations with the pages of the
first. -/
theorem StandardRun.parts_independent_namesake :
    ∃ labelled namesake bare,
      (Stage.runAll (Sample.pagedContext Sample.schema) Stage.standard Sample.labelledWorkshop).2 = labelled ∧
      (Stage.runAll (Sample.pagedContext Sample.schema) Stage.standard Sample.namesakeWorkshop).2 = namesake ∧
      (Stage.runAll (Sample.pagedContext { output := "o" }) Stage.standard Sample.labelledWorkshop).2 = bare ∧
      (∀ path, IsBelow "data" path → labelled.AgreeAt namesake path) ∧
      ∀ path, IsBelow "pages" path → path ≠ Stage.treePath → labelled.AgreeAt bare path := by
  obtain ⟨labelled, hlabelled⟩ := Sample.standardRun Sample.schema_registered Sample.isNamed_labelledFiles ⟨rfl, rfl⟩
    (show _ = [Sample.labelledPage, Sample.refusedPage] by decide +kernel) (by decide +kernel)
  obtain ⟨namesake, hnamesake⟩ := Sample.standardRun Sample.schema_registered Sample.isNamed_namesakeFiles ⟨rfl, rfl⟩
    (show _ = [Sample.namesakePage] by decide +kernel) (by decide +kernel)
  obtain ⟨bare, hbare⟩ := Sample.standardRun Sample.bareSchema_registered Sample.isNamed_labelledFiles ⟨rfl, rfl⟩
    (show _ = [Sample.labelledPage, Sample.refusedPage] by decide +kernel) (by decide +kernel)
  have hend {context : Context} {sources : List SourcePage} {start final : Workshop}
      (h : StandardRun 100 ["o"] context sources start final) : (Stage.runAll context Stage.standard start).2 = final := by
    obtain ⟨report, hyields⟩ := h.yields
    rw [hyields]
  obtain ⟨_, _, _, _, -, -, hschema, -⟩ := StandardRun.parts_independent hlabelled hnamesake rfl
  obtain ⟨_, _, _, _, -, -, -, hpages⟩ := StandardRun.parts_independent hlabelled hbare rfl
  exact ⟨labelled, namesake, bare, hend hlabelled, hend hnamesake, hend hbare, (hschema rfl).2.1, (hpages rfl).2⟩

end SchemaDocs
