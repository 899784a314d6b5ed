import SchemaDocs.Proofs.Markdown.Identities
import SchemaDocs.Proofs.Page.Names
import SchemaDocs.Proofs.Reference.Faithful
import SchemaDocs.Proofs.Site.Completeness

/-!
# Links of tables of contents

The document of a page shows what the page's text is rendered as, whatever was rendered before, and the
table of contents that was made when the page was read. The two are made apart. A text that is refused is
rendered as nothing but keeps its table of contents, and a footnote may take the id of a heading; all
other links of a table of contents lead to one element of the document.
-/

namespace SchemaDocs

open Markdown (Renderer Resolves refusal? definedLabels)

/-- A step of a build leaves a faithful renderer faithful. -/
abbrev Build.LeavesFaithful {α : Type} (limit : Nat) (step : Build α) : Prop :=
  step.Keeps fun workshop => workshop.renderer.IsFaithful limit

variable {context : Context} {limit : Nat}

private theorem Build.eq_of_render {α : Type} {rendering : StateM Renderer α} {start final : Workshop} {value : α}
    (hrendering : IsDetermined limit rendering) (hrenderer : start.renderer.IsFaithful limit)
    (h : (Build.render rendering).Yields start value final) :
    value = (rendering { limit }).1 ∧ final.disk = start.disk := by
  obtain ⟨hvalue, hfinal⟩ := Prod.mk.inj h
  refine ⟨?_, by rw [← hfinal]⟩
  rw [← Except.ok.inj hvalue]
  exact hrendering.eq_new hrenderer

private theorem Build.leavesFaithful_render {α : Type} (rendering : StateM Renderer α)
    (h : IsDetermined limit rendering) :
    (Build.render rendering).LeavesFaithful limit := by
  obtain ⟨value, hvalue⟩ := h
  exact fun start hstart => (hvalue start.renderer hstart).2

private theorem Build.leavesFaithful_writeJson (path : String) (value : Json.Value) :
    (writeJson path value).LeavesFaithful limit :=
  fun _ h => h

namespace Stage

open Build (Keeps LeavesFaithful leavesFaithful_render leavesFaithful_writeJson)

theorem isDetermined_pageDocument (source : SourcePage) : IsDetermined limit (pageDocument source) :=
  (IsDetermined.render _).bind fun _ => .pure _

section

-- what renderings and the files that they are written to keep, the stages keep
variable {P : Workshop → Prop} {schedule : Kind → Schedule}
  (hrender : ∀ {α : Type} (rendering : StateM Renderer α), IsDetermined limit rendering → (Build.render rendering).Keeps P)
  (hwrite : ∀ path value, (Build.writeJson path value).Keeps P)
include hrender hwrite

private theorem keeps_writePage (source : SourcePage) : (writePage source).Keeps P :=
  (hrender _ (isDetermined_pageDocument source)).bind fun _ => hwrite _ _

private theorem keeps_ofKind (name : String) (kind : Kind) (schedule : Schedule) :
    ((ofKind name kind schedule).run context).Keeps P := by
  have hentry (entry : Entry) : (writeEntry context entry).Keeps P :=
    (hrender _ (.entryDocument _ entry)).bind fun _ => hwrite _ _
  exact (Keeps.race hentry _ _).bind fun _ => .pure _

private theorem keeps_pages : (pages.run context).Keeps P := by
  refine Keeps.bind (fun _ h => h) fun sources => ?_
  split
  · exact fun _ h => h
  · exact (Keeps.forM (keeps_writePage hrender hwrite) _).bind fun _ => (hwrite _ _).bind fun _ => .pure _

private theorem keeps_of_mem_scheduled {stage : Stage} (h : stage ∈ scheduled schedule) :
    (stage.run context).Keeps P := by
  simp only [scheduled, List.mem_cons, List.not_mem_nil, or_false] at h
  rcases h with rfl | rfl | rfl | rfl | rfl | rfl
  · exact (hrender _ (.indexView _ _ _)).bind fun _ => (hwrite _ _).bind fun _ => .pure _
  · exact keeps_ofKind hrender hwrite _ _ _
  · exact keeps_ofKind hrender hwrite _ _ _
  · exact keeps_ofKind hrender hwrite _ _ _
  · exact keeps_ofKind hrender hwrite _ _ _
  · exact keeps_pages hrender hwrite

theorem keeps_runAll {stages : List Stage} (hstages : stages ⊆ scheduled schedule) :
    (runAll context stages).Keeps P := by
  have hfrom (given : Report) : Keeps P (stages.foldlM (fun report stage => do return report.add (← stage.run context)) given) := by
    induction stages generalizing given with
    | nil => exact .pure given
    | cons stage stages ih =>
      obtain ⟨hstage, hstages⟩ := List.cons_subset.mp hstages
      rw [List.foldlM_cons]
      exact ((keeps_of_mem_scheduled hrender hwrite hstage).bind fun _ => .pure _).bind fun _ => ih hstages _
  exact hfrom {}

end

private theorem leavesFaithful_writePage (source : SourcePage) : (writePage source).LeavesFaithful limit :=
  keeps_writePage leavesFaithful_render leavesFaithful_writeJson source

private theorem leavesFaithful_runAll {stages : List Stage} {schedule : Kind → Schedule}
    (hstages : stages ⊆ scheduled schedule) :
    (runAll context stages).LeavesFaithful limit :=
  keeps_runAll leavesFaithful_render leavesFaithful_writeJson hstages

/-! ### Documents of pages -/

variable {start middle final : Workshop} {report : Report}

/-- The document of a page, made with a new renderer. -/
def freshDocument (limit : Nat) (source : SourcePage) : SiteDocument :=
  (source.documentPath, (pageDocument source { limit }).1)

private theorem writeAll_of_writePage {source : SourcePage} (hrenderer : start.renderer.IsFaithful limit)
    (h : (writePage source).Yields start () final) :
    start.disk.writeAll [(freshDocument limit source).write] = .ok final.disk := by
  obtain ⟨document, middle, hdocument, hwrite⟩ := Build.yields_bind_iff.mp h
  obtain ⟨rfl, hdisk⟩ := Build.eq_of_render (isDetermined_pageDocument source) hrenderer hdocument
  rw [← hdisk]
  exact Build.writeAll_of_yields hwrite

private theorem exists_members (limit : Nat) (source : SourcePage) :
    ∃ members, (freshDocument limit source).2 = .object members ∧
      members.lookup "content" = some (.string (Markdown.Rendered.ofText limit source.page.content).html) ∧
      members.lookup "toc" = some (.array (source.page.toc.map tocJson)) := by
  refine ⟨_, rfl, ?_, ?_⟩
  · cases source.page.description <;> rfl
  · cases source.page.description <;> rfl

theorem exists_document_of_pages (hrenderer : start.renderer.IsFaithful limit)
    (h : (pages.run context).Yields start report final) {source : SourcePage}
    (hsource : source ∈ context.foundPages start.disk.files) :
    ∃ members, final.disk.files.read (final.disk.output.location source.documentPath) =
        .ok (Disk.jsonBytes (.object members)) ∧
      members.lookup "content" = some (.string (Markdown.Rendered.ofText limit source.page.content).html) ∧
      members.lookup "toc" = some (.array (source.page.toc.map tocJson)) := by
  obtain ⟨-, tree, middle, -, hpages, htree⟩ := yields_pages h
  -- the renderer stays faithful from page to page, so that each document is the one made with a new renderer
  have hstep (source : SourcePage) (_ : source ∈ context.foundPages start.disk.files) (start final : Workshop)
      (hstart : start.renderer.IsFaithful limit) (hpage : (writePage source).Yields start () final) :
      final.renderer.IsFaithful limit ∧
        ∃ document, document = freshDocument limit source ∧ start.disk.writeAll [document.write] = .ok final.disk := by
    have hfinal := leavesFaithful_writePage source start hstart
    rw [hpage] at hfinal
    exact ⟨hfinal, _, rfl, writeAll_of_writePage hstart hpage⟩
  obtain ⟨documents, hdocuments, hwritten⟩ := Build.writeAll_of_forM_keeping hstep hrenderer hpages
  obtain ⟨document, hdocument, hfresh⟩ := (exists_of_mem_forall₂ hdocuments).2 source hsource
  obtain ⟨members, hmembers, hcontent, htoc⟩ := exists_members limit source
  have hall := Disk.holdsAll_of_writeAll (Disk.writeAll_append_eq_ok_iff.mpr ⟨middle.disk, hwritten, htree⟩)
  have hread := hall.read _ (List.mem_append_left _ (List.mem_map_of_mem hdocument))
  rw [hfresh, SiteDocument.write, hmembers] at hread
  rw [OutputDirectory.location_of_root hall.root]
  exact ⟨members, hread, hcontent, htoc⟩

private theorem toc_of_foundPages {files : FileSystem} {source : SourcePage} (h : source ∈ context.foundPages files) :
    source.page.toc = Markdown.headings (Markdown.events source.page.content) := by
  obtain ⟨directory, hfound⟩ := context.exists_discover_of_foundPages h
  obtain ⟨_, candidate, -, -, hcandidate⟩ := Discovery.exists_candidate_of_mem_discover hfound
  obtain ⟨page, hpage, rfl⟩ := Option.map_eq_some_iff.mp hcandidate
  obtain ⟨text, -, hparsed⟩ := Option.bind_eq_some_iff.mp hpage
  exact Markdown.toc_of_parse (eq_ok_of_toOption hparsed)

/-- The document of each page that the stage of the pages writes, alone or behind other stages, holds a
content and the page's table of contents. A link of the table leads to one element of the content and no
other exactly if the text of the page is accepted, and defines no footnote whose label is the id. -/
theorem contents_resolve_iff {stages : List Stage} {before : Report} (hstages : stages ⊆ standard)
    (hrenderer : start.renderer = { limit }) (hbefore : (runAll context stages).Yields start before middle)
    (h : (pages.run context).Yields middle report final) :
    ∀ source ∈ context.foundPages middle.disk.files, ∃ members content,
      final.disk.files.read (final.disk.output.location source.documentPath) = .ok (Disk.jsonBytes (.object members)) ∧
      members.lookup "content" = some (.string content) ∧
      members.lookup "toc" = some (.array (source.page.toc.map tocJson)) ∧
      ∀ entry ∈ source.page.toc, Resolves content entry.id ↔
        refusal? limit source.page.content = none ∧
          entry.id ∉ definedLabels (Markdown.events source.page.content) := by
  intro source hsource
  have hnew : start.renderer.IsFaithful limit := hrenderer ▸ Renderer.isFaithful_new limit
  have hfaithful : middle.renderer.IsFaithful limit := by
    have hleaves : (runAll context stages).LeavesFaithful limit := leavesFaithful_runAll hstages
    have hmiddle := hleaves start hnew
    rwa [hbefore] at hmiddle
  obtain ⟨members, hread, hcontent, htoc⟩ := exists_document_of_pages hfaithful h hsource
  refine ⟨members, _, hread, hcontent, htoc, fun entry hentry => ?_⟩
  rw [toc_of_foundPages hsource] at hentry
  exact Markdown.resolves_ofText_iff hentry

end Stage

namespace Sample

/-- A page with a footnote whose label is the id of a heading, and a page that is refused for a control
character. -/
def labelledFiles : FileSystem where
  root := .directory [
    ("o", .directory []),
    ("p", .directory [("a.md", .file "# A\n\n# B\n\n[^b]: c\n".toUTF8), ("b.md", .file "# C\n\n\x07\n".toUTF8)])]

def labelledWorkshop : Workshop where
  disk := ⟨labelledFiles, { root := "o" }⟩
  renderer := { limit := 100 }

def labelledContext : Context where
  schema := { output := "o" }
  registry := {}
  title := "Docs"
  pagesDirectory := some "p"

def labelledPage : SourcePage := ⟨"a", ["a"], false, ⟨none, "# A\n\n# B\n\n[^b]: c\n", [⟨"A", "a", 1⟩, ⟨"B", "b", 1⟩]⟩⟩

def refusedPage : SourcePage := ⟨"b", ["b"], false, ⟨none, "# C\n\n\x07\n", [⟨"C", "c", 1⟩]⟩⟩

private theorem labelledFiles_pages : labelledContext.foundPages labelledFiles = [labelledPage, refusedPage] := by
  decide +kernel

private theorem labelledWorkshop_runs : (Stage.pages.run labelledContext labelledWorkshop).1.toOption.isSome := by
  decide +kernel

end Sample

theorem Stage.contents_resolve_iff_labelled :
    ∃ report final, (pages.run Sample.labelledContext).Yields Sample.labelledWorkshop report final ∧
      ∃ members content,
        final.disk.files.read (final.disk.output.location "pages/a.json") = .ok (Disk.jsonBytes (.object members)) ∧
        members.lookup "content" = some (.string content) ∧ Resolves content "a" ∧ ¬ Resolves content "b" := by
  obtain ⟨report, final, hpages⟩ := Sample.exists_of_isSome Sample.labelledWorkshop_runs
  have hsource : Sample.labelledPage ∈ Sample.labelledContext.foundPages Sample.labelledWorkshop.disk.files := by
    rw [Sample.labelledWorkshop, Sample.labelledFiles_pages]
    exact List.mem_cons_self
  have hbefore : (runAll Sample.labelledContext []).Yields Sample.labelledWorkshop {} Sample.labelledWorkshop := rfl
  obtain ⟨members, content, hread, hcontent, -, hlinks⟩ :=
    contents_resolve_iff (List.nil_subset _) rfl hbefore hpages Sample.labelledPage hsource
  have hlabels : definedLabels (Markdown.events Sample.labelledPage.page.content) = ["b"] := by
    decide +kernel
  rw [hlabels] at hlinks
  refine ⟨report, final, hpages, members, content, hread, hcontent, ?_, fun hresolves => ?_⟩
  · exact (hlinks ⟨"A", "a", 1⟩ (by decide)).mpr ⟨by decide, by decide⟩
  · exact ((hlinks ⟨"B", "b", 1⟩ (by decide)).mp hresolves).2 (by decide)

/-- Two documents whose tables of contents do not resolve: the id of one link is that of a heading and of
a footnote, and that of another one is nowhere. -/
theorem Stage.contents_unresolved :
    ∃ report final, (pages.run Sample.labelledContext).Yields Sample.labelledWorkshop report final ∧
      (∃ members content,
        final.disk.files.read (final.disk.output.location "pages/a.json") = .ok (Disk.jsonBytes (.object members)) ∧
        members.lookup "content" = some (.string content) ∧
        members.lookup "toc" = some (.array [tocJson ⟨"A", "a", 1⟩, tocJson ⟨"B", "b", 1⟩]) ∧
        (Markdown.elementsWithId content "b").length = 2) ∧
      ∃ members content,
        final.disk.files.read (final.disk.output.location "pages/b.json") = .ok (Disk.jsonBytes (.object members)) ∧
        members.lookup "content" = some (.string content) ∧
        members.lookup "toc" = some (.array [tocJson ⟨"C", "c", 1⟩]) ∧
        (Markdown.elementsWithId content "c").length = 0 := by
  obtain ⟨report, final, hpages⟩ := Sample.exists_of_isSome Sample.labelledWorkshop_runs
  have hrenderer : Sample.labelledWorkshop.renderer.IsFaithful 100 := Renderer.isFaithful_new 100
  have hfound : Sample.labelledContext.foundPages Sample.labelledWorkshop.disk.files =
      [Sample.labelledPage, Sample.refusedPage] := Sample.labelledFiles_pages
  obtain ⟨labelled, hlabelled, hlabelledContent, hlabelledToc⟩ := exists_document_of_pages hrenderer hpages
    (hfound ▸ List.mem_cons_self : Sample.labelledPage ∈ _)
  obtain ⟨refused, hrefused, hrefusedContent, hrefusedToc⟩ := exists_document_of_pages hrenderer hpages
    (hfound ▸ List.mem_cons_of_mem _ List.mem_cons_self : Sample.refusedPage ∈ _)
  refine ⟨report, final, hpages, ⟨labelled, _, hlabelled, hlabelledContent, hlabelledToc, ?_⟩,
    refused, _, hrefused, hrefusedContent, hrefusedToc, ?_⟩
  · decide +kernel
  · decide +kernel

end SchemaDocs
