import SchemaDocs.Proofs.Site.Races

/-!
# What the stages write

A build that succeeds leaves a ledger: the index, the documents of the declarations, those of the
pages, the navigation tree and the resources, each part in the order in which it is written.
`Ledger.Records` says what the parts are made from; nothing else is written.
-/

namespace SchemaDocs

open Json (Value)

variable {context : Context} {start final : Workshop} {report : Report}

/-- The document of an entry. -/
structure IsEntryDocument (registry : Registry) (entry : Entry) (document : SiteDocument) : Prop where
  path : document.1 = entry.path
  rendered : IsRendered (entryDocument registry entry) document.2

/-- The document of a page. -/
structure IsPageDocument (source : SourcePage) (document : SiteDocument) : Prop where
  path : document.1 = source.documentPath
  rendered : IsRendered (Stage.pageDocument source) document.2

/-- The file of a resource. -/
structure IsResource (provider : Provider) (pair : String × String) (write : Write) : Prop where
  path : write.1 = pair.2
  loaded : ∃ files, provider.load files pair.1 = .ok write.2

def Context.foundPages (context : Context) (files : FileSystem) : List SourcePage :=
  (context.pagesDirectory.map (Discovery.discover files)).getD []

theorem Context.exists_discover_of_foundPages {files : FileSystem} {source : SourcePage}
    (h : source ∈ context.foundPages files) : ∃ directory, source ∈ Discovery.discover files directory := by
  rw [foundPages] at h
  cases hdirectory : context.pagesDirectory with
  | none =>
    rw [hdirectory] at h
    cases h
  | some directory =>
    rw [hdirectory] at h
    exact ⟨directory, h⟩

namespace Stage

theorem writes_index (h : (index.run context).Yields start report final) :
    report = { documents := 1 } ∧ ∃ view, IsRendered (indexView context.registry context.schema.name context.title) view ∧
      start.disk.writeAll [SiteDocument.write ("data/index.json", view.toJson)] = .ok final.disk := by
  obtain ⟨view, middle, hview, h⟩ := Build.yields_bind_iff.mp h
  obtain ⟨_, _, hwrite, h⟩ := Build.yields_bind_iff.mp h
  obtain ⟨rfl, rfl⟩ := Build.yields_pure_iff.mp h
  obtain ⟨hrendered, hdisk⟩ := Build.isRendered_of_yields hview
  rw [← hdisk]
  exact ⟨rfl, view, hrendered, Build.writeAll_of_yields hwrite⟩

private theorem writes_ofKind {name : String} {kind : Kind} {schedule : Schedule}
    (h : ((ofKind name kind schedule).run context).Yields start report final) :
    report = { documents := (context.registry.declaring kind).length } ∧
      ∃ documents, List.Forall₂ (IsEntryDocument context.registry)
          (inOrder schedule.picks (context.registry.declaring kind)) documents ∧
        start.disk.writeAll (documents.map SiteDocument.write) = .ok final.disk := by
  obtain ⟨_, middle, hwrites, h⟩ := Build.yields_bind_iff.mp h
  obtain ⟨rfl, rfl⟩ := Build.yields_pure_iff.mp h
  refine ⟨rfl, Build.writeAll_of_forM ?_ (Build.yields_race_iff.mp hwrites)⟩
  intro entry _ start final hentry
  obtain ⟨value, hvalue, hwrite⟩ := Build.writeJson_of_yields hentry
  exact ⟨(entry.path, value), ⟨rfl, hvalue⟩, hwrite⟩

/-- The documents of the pages that are found are written first, then that of their tree. -/
theorem yields_pages (h : (pages.run context).Yields start report final) :
    report = { documents := 1, pages := (context.foundPages start.disk.files).length } ∧
      ∃ tree middle, PageTree.merge context.title (context.foundPages start.disk.files) context.registry = .ok tree ∧
        ((context.foundPages start.disk.files).forM writePage).Yields start () middle ∧
        middle.disk.writeAll [SiteDocument.write (treePath, tree.view.toJson)] = .ok final.disk := by
  obtain ⟨sources, middle, hsources, h⟩ := Build.yields_bind_iff.mp h
  obtain ⟨hfound, rfl⟩ := Prod.mk.inj hsources
  obtain rfl : context.foundPages start.disk.files = sources := Except.ok.inj hfound
  split at h
  · exact absurd h Build.not_yields_throw
  · rename_i tree htree
    obtain ⟨_, middle, hpages, h⟩ := Build.yields_bind_iff.mp h
    obtain ⟨_, _, hwrite, h⟩ := Build.yields_bind_iff.mp h
    obtain ⟨rfl, rfl⟩ := Build.yields_pure_iff.mp h
    exact ⟨rfl, tree, middle, htree, hpages, Build.writeAll_of_yields hwrite⟩

private theorem writes_pages (h : (pages.run context).Yields start report final) :
    report = { documents := 1, pages := (context.foundPages start.disk.files).length } ∧
      ∃ tree documents, PageTree.merge context.title (context.foundPages start.disk.files) context.registry = .ok tree ∧
        List.Forall₂ IsPageDocument (context.foundPages start.disk.files) documents ∧
        start.disk.writeAll ((documents ++ [(treePath, tree.view.toJson)]).map SiteDocument.write) = .ok final.disk := by
  obtain ⟨hreport, tree, middle, htree, hpages, hwrite⟩ := yields_pages h
  have hstep (source : SourcePage) (_ : source ∈ context.foundPages start.disk.files) (start final : Workshop)
      (hpage : (writePage source).Yields start () final) :
      ∃ document, IsPageDocument source document ∧
        start.disk.writeAll [SiteDocument.write document] = .ok final.disk := by
    obtain ⟨value, hvalue, hdisk⟩ := Build.writeJson_of_yields hpage
    exact ⟨(source.documentPath, value), ⟨rfl, hvalue⟩, hdisk⟩
  obtain ⟨documents, hdocuments, hdisk⟩ := Build.writeAll_of_forM hstep hpages
  refine ⟨hreport, tree, documents, htree, hdocuments, ?_⟩
  rw [List.map_append]
  exact Disk.writeAll_append_eq_ok_iff.mpr ⟨middle.disk, hdisk, hwrite⟩

end Stage

private theorem writes_copies {provider : Provider} {pairs : List (String × String)}
    (h : (pairs.forM (copyResource provider)).Yields start () final) :
    ∃ resources, List.Forall₂ (IsResource provider) pairs resources ∧ start.disk.writeAll resources = .ok final.disk := by
  have hstep (pair : String × String) (_ : pair ∈ pairs) (start final : Workshop)
      (hcopy : (copyResource provider pair).Yields start () final) :
      ∃ write, IsResource provider pair write ∧ start.disk.writeAll [id write] = .ok final.disk := by
    rw [Build.Yields, copyResource] at hcopy
    split at hcopy
    · cases (Prod.mk.inj hcopy).1
    · rename_i content hload
      exact ⟨(pair.2, content), ⟨rfl, _, hload⟩, Build.writeAll_of_yields hcopy⟩
  obtain ⟨resources, hresources, hdisk⟩ := Build.writeAll_of_forM hstep h
  rw [List.map_id] at hdisk
  exact ⟨resources, hresources, hdisk⟩

theorem writes_resources {provider : Provider} {manifest : Manifest} {assets : Nat}
    (h : (copyResources provider manifest).Yields start assets final) :
    assets = manifest.size ∧ ∃ resources, List.Forall₂ (IsResource provider) manifest.pairs resources ∧
      start.disk.writeAll resources = .ok final.disk := by
  obtain ⟨_, middle, hcopies, h⟩ := Build.yields_bind_iff.mp h
  obtain ⟨rfl, rfl⟩ := Build.yields_pure_iff.mp h
  exact ⟨rfl, writes_copies hcopies⟩

/-! ### The ledger of a site -/

/-- What the stages have made. -/
structure Ledger where
  index : IndexView
  reference : List SiteDocument
  sources : List SourcePage
  tree : PageTree
  pages : List SiteDocument

namespace Ledger

/-- The reference comes first. -/
def referenceDocuments (ledger : Ledger) : List SiteDocument :=
  ("data/index.json", ledger.index.toJson) :: ledger.reference

def pageDocuments (ledger : Ledger) : List SiteDocument :=
  ledger.pages ++ [(Stage.treePath, ledger.tree.view.toJson)]

/-- All documents in the order in which they are written. -/
def documents (ledger : Ledger) : List SiteDocument := ledger.referenceDocuments ++ ledger.pageDocuments

end Ledger

/-- The entries of a registry by their kinds, in the order of the stages. -/
def Registry.byStages (registry : Registry) : List Entry :=
  registry.declaring .enum ++ (registry.declaring .message ++ (registry.declaring .service ++ registry.declaring .proto))

/-- The entries of a registry by their kinds, each kind in the order in which its documents are written. -/
def Registry.scheduled (registry : Registry) (schedule : Kind → Schedule) : List Entry :=
  inOrder (schedule .enum).picks (registry.declaring .enum) ++ (inOrder (schedule .message).picks (registry.declaring .message) ++
    (inOrder (schedule .service).picks (registry.declaring .service) ++ inOrder (schedule .proto).picks (registry.declaring .proto)))

/-- A ledger is that of the stages between two states of the disk, with the documents of the declarations in
some order. -/
structure Ledger.RecordsIn (ledger : Ledger) (context : Context) (entries : List Entry) (start final : Disk) : Prop where
  index : IsRendered (indexView context.registry context.schema.name context.title) ledger.index
  reference : List.Forall₂ (IsEntryDocument context.registry) entries ledger.reference
  sources : ∃ disk, start.writeAll (ledger.referenceDocuments.map SiteDocument.write) = .ok disk ∧
    ledger.sources = context.foundPages disk.files
  tree : PageTree.merge context.title ledger.sources context.registry = .ok ledger.tree
  pages : List.Forall₂ IsPageDocument ledger.sources ledger.pages
  writes : start.writeAll (ledger.documents.map SiteDocument.write) = .ok final

/-- The documents are written in the order of the stages. -/
abbrev Ledger.Records (ledger : Ledger) (context : Context) (start final : Disk) : Prop :=
  ledger.RecordsIn context context.registry.byStages start final

theorem Registry.byStages_perm (registry : Registry) : registry.byStages.Perm registry.entries := by
  have hstages : registry.byStages =
      [Kind.enum, .message, .service, .proto].flatMap fun kind => registry.entries.filter (·.declaration.kind = kind) := by
    simp [byStages, declaring]
  rw [hstages]
  refine perm_flatMap_filter (by decide) fun entry _ => ?_
  cases entry.declaration.kind <;> decide

theorem Registry.scheduled_perm (registry : Registry) (schedule : Kind → Schedule) :
    (registry.scheduled schedule).Perm registry.entries :=
  ((inOrder_perm _ _).append ((inOrder_perm _ _).append ((inOrder_perm _ _).append (inOrder_perm _ _)))).trans
    registry.byStages_perm

namespace Stage

theorem yields_runAll_cons {stage : Stage} {stages : List Stage} {given : Report}
    (h : Build.Yields ((stage :: stages).foldlM (fun report stage => do return report.add (← stage.run context)) given)
      start report final) :
    ∃ part middle, (stage.run context).Yields start part middle ∧
      Build.Yields (stages.foldlM (fun report stage => do return report.add (← stage.run context)) (given.add part))
        middle report final := by
  rw [List.foldlM_cons] at h
  obtain ⟨next, middle, hstage, h⟩ := Build.yields_bind_iff.mp h
  obtain ⟨part, between, hstage, hnext⟩ := Build.yields_bind_iff.mp hstage
  obtain ⟨rfl, rfl⟩ := Build.yields_pure_iff.mp hnext
  exact ⟨part, middle, hstage, h⟩

/-- The stages that write the reference, with a schedule for each kind. -/
def scheduledReference (schedule : Kind → Schedule) : List Stage :=
  [index, enums (schedule .enum), messages (schedule .message), services (schedule .service), protos (schedule .proto)]

def reference : List Stage := scheduledReference fun _ => {}

theorem runAll_scheduled (context : Context) (schedule : Kind → Schedule) :
    runAll context (scheduled schedule) =
      runAll context (scheduledReference schedule) >>= fun report =>
        (pages.run context >>= fun part => pure (report.add part)) := by
  have hscheduled : scheduled schedule = scheduledReference schedule ++ [pages] := rfl
  rw [hscheduled, runAll, List.foldlM_append]
  simp only [List.foldlM_cons, List.foldlM_nil, bind_pure]
  rfl

/-- The stages of the reference write the index and a document for each entry. -/
theorem writes_reference {schedule : Kind → Schedule}
    (h : (runAll context (scheduledReference schedule)).Yields start report final) :
    report = { documents := context.registry.entries.length + 1 } ∧ ∃ view documents,
      IsRendered (indexView context.registry context.schema.name context.title) view ∧
      List.Forall₂ (IsEntryDocument context.registry) (context.registry.scheduled schedule) documents ∧
      start.disk.writeAll ((("data/index.json", view.toJson) :: documents).map SiteDocument.write) = .ok final.disk := by
  obtain ⟨_, indexed, hindex, h⟩ := yields_runAll_cons h
  obtain ⟨_, enumsDone, henums, h⟩ := yields_runAll_cons h
  obtain ⟨_, messagesDone, hmessages, h⟩ := yields_runAll_cons h
  obtain ⟨_, servicesDone, hservices, h⟩ := yields_runAll_cons h
  obtain ⟨_, protosDone, hprotos, h⟩ := yields_runAll_cons h
  obtain ⟨hreport, rfl⟩ := Build.yields_pure_iff.mp h
  obtain ⟨rfl, view, hview, hindexed⟩ := writes_index hindex
  obtain ⟨rfl, enumDocuments, henums, henumsDone⟩ := writes_ofKind henums
  obtain ⟨rfl, messageDocuments, hmessages, hmessagesDone⟩ := writes_ofKind hmessages
  obtain ⟨rfl, serviceDocuments, hservices, hservicesDone⟩ := writes_ofKind hservices
  obtain ⟨rfl, protoDocuments, hprotos, hprotosDone⟩ := writes_ofKind hprotos
  refine ⟨?_, view, enumDocuments ++ (messageDocuments ++ (serviceDocuments ++ protoDocuments)), hview,
    List.rel_append henums (List.rel_append hmessages (List.rel_append hservices hprotos)), ?_⟩
  · have hlength := context.registry.byStages_perm.length_eq
    simp only [Registry.byStages, List.length_append] at hlength
    rw [hreport, ← hlength]
    simp only [Report.add, Report.mk.injEq, and_true]
    omega
  · simp only [List.map_cons, List.map_append]
    exact Disk.writeAll_append_eq_ok_iff.mpr ⟨_, hindexed, Disk.writeAll_append_eq_ok_iff.mpr ⟨_, henumsDone,
      Disk.writeAll_append_eq_ok_iff.mpr ⟨_, hmessagesDone, Disk.writeAll_append_eq_ok_iff.mpr ⟨_, hservicesDone,
        hprotosDone⟩⟩⟩⟩

/-- The stages of every site write the documents of one ledger and nothing else. -/
theorem records_scheduled {schedule : Kind → Schedule}
    (h : (runAll context (scheduled schedule)).Yields start report final) :
    ∃ ledger : Ledger, ledger.RecordsIn context (context.registry.scheduled schedule) start.disk final.disk ∧
      report.documents = context.registry.entries.length + 2 ∧ report.pages = ledger.sources.length := by
  rw [runAll_scheduled] at h
  obtain ⟨_, middle, hreference, h⟩ := Build.yields_bind_iff.mp h
  obtain ⟨_, _, hpages, h⟩ := Build.yields_bind_iff.mp h
  obtain ⟨rfl, rfl⟩ := Build.yields_pure_iff.mp h
  obtain ⟨rfl, index, reference, hindex, hdocuments, hreference⟩ := writes_reference hreference
  obtain ⟨rfl, tree, pages, htree, hpages, hwritten⟩ := writes_pages hpages
  refine ⟨{ index, reference, sources := context.foundPages middle.disk.files, tree, pages },
    ⟨hindex, hdocuments, ⟨_, hreference, rfl⟩, htree, hpages, ?_⟩, rfl, Nat.zero_add _⟩
  rw [Ledger.documents, List.map_append]
  exact Disk.writeAll_append_eq_ok_iff.mpr ⟨_, hreference, hwritten⟩

theorem records_runAll (h : (runAll context standard).Yields start report final) :
    ∃ ledger : Ledger, ledger.Records context start.disk final.disk ∧
      report.documents = context.registry.entries.length + 2 ∧ report.pages = ledger.sources.length := records_scheduled h

end Stage

end SchemaDocs
