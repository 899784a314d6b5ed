import SchemaDocs.Proofs.Navigation.Merging
import SchemaDocs.Proofs.Navigation.View
import SchemaDocs.Proofs.Page.Names
import SchemaDocs.Proofs.Reference.Documents
import SchemaDocs.Proofs.Reference.Types
import SchemaDocs.Proofs.Site.Completeness

/-!
# References between documents

Every reference in a document of a site leads to a document of the same site, and that document is
the one of the entry or page that the reference names.
-/

namespace SchemaDocs

open Json

variable {found : List (String × Value)}

/-! ### The navigation tree -/

/-- An object shows an entry of the navigation tree. -/
structure ShowsEntry (members : List (String × Value)) (entry : NavEntry) : Prop where
  ref : members.lookup "ref" = entry.document.map .string
  id : members.lookup "id" = some (.string entry.id)
  title : members.lookup "title" = some (.string entry.title)
  kind : members.lookup "kind" = some (.string entry.kind.tag)
  origin : members.lookup "origin" = some (.string entry.origin.tag)

namespace TreeView

mutual

private theorem showsEntry_of_refers :
    (view : TreeView) → view.toJson.Refers found → ∃ entry ∈ view.entries, entry.document ≠ none ∧ ShowsEntry found entry
  | .node entry children => by
    intro h
    rw [toJson, refers_object_iff] at h
    rcases h with ⟨href, rfl⟩ | h
    · refine ⟨entry, by rw [entries]; exact List.mem_cons_self, ?_, ?_⟩
      · intro hdocument
        simp [hdocument, List.lookup_cons] at href
      · cases hdocument : entry.document <;> constructor <;> simp [hdocument, List.lookup_cons]
    · have hchildren : ∃ value ∈ listToJson children, value.Refers found := by
        cases hdocument : entry.document <;> simpa [hdocument] using h
      obtain ⟨value, hvalue, hfound⟩ := hchildren
      obtain ⟨shown, hshown, hrest⟩ := showsEntry_of_refers_list children value hvalue hfound
      rw [entries]
      exact ⟨shown, List.mem_cons_of_mem _ hshown, hrest⟩

theorem showsEntry_of_refers_list :
    (views : List TreeView) → ∀ value ∈ listToJson views, value.Refers found →
      ∃ entry ∈ listEntries views, entry.document ≠ none ∧ ShowsEntry found entry
  | [] => by
    intro value hvalue
    cases hvalue
  | view :: views => by
    intro value hvalue hfound
    rw [listToJson, List.mem_cons] at hvalue
    rw [listEntries]
    rcases hvalue with rfl | hvalue
    · obtain ⟨entry, hentry, hrest⟩ := showsEntry_of_refers view hfound
      exact ⟨entry, List.mem_append_left _ hentry, hrest⟩
    · obtain ⟨entry, hentry, hrest⟩ := showsEntry_of_refers_list views value hvalue hfound
      exact ⟨entry, List.mem_append_right _ hentry, hrest⟩

end

end TreeView

private theorem PageTree.mem_entries_view {tree : PageTree} {entry : NavEntry} (h : entry ∈ tree.view.entries) :
    ∃ index, entry = (tree.node index).toNavEntry := by
  rw [view, entries_viewBelow] at h
  obtain ⟨index, -, hindex⟩ := List.mem_map.mp h
  exact ⟨index, hindex.symm⟩

/-! ### Pages -/

private theorem isInPlace_of_discover {files : FileSystem} {directory : String} {source : SourcePage}
    (h : source ∈ Discovery.discover files directory) : source.IsInPlace := by
  obtain ⟨_, candidate, -, -, hcandidate⟩ := Discovery.exists_candidate_of_mem_discover h
  obtain ⟨page, -, rfl⟩ := Option.map_eq_some_iff.mp hcandidate
  intro hindex
  show candidate.id = _
  rw [Discovery.Candidate.id, if_pos hindex]
  rfl

private theorem Context.isInPlace_of_foundPages {context : Context} {files : FileSystem} {source : SourcePage}
    (h : source ∈ context.foundPages files) : source.IsInPlace := by
  obtain ⟨directory, hfound⟩ := exists_discover_of_foundPages h
  exact isInPlace_of_discover hfound

private theorem document_of_page {source : SourcePage} {document : Value}
    (h : IsRendered (Stage.pageDocument source) document) :
    (∃ members, document = .object members ∧ members.lookup "id" = some (.string source.id)) ∧
      ∀ found, ¬ document.Refers found := by
  obtain ⟨content, -, h⟩ := exists_of_isRendered_bind h
  rw [isRendered_pure_iff] at h
  rw [h]
  refine ⟨⟨_, rfl, by simp⟩, fun found => ?_⟩
  rw [refers_object_iff_of_ne]
  · simp [Stage.tocJson, refers_object_iff_of_ne]
  · simp [textMember, or_imp, forall_and]

/-! ### Documents and what they refer to -/

/-- An object refers to the document of a page. -/
structure RefersToPage (members : List (String × Value)) (source : SourcePage) : Prop where
  ref : members.lookup "ref" = some (.string source.documentPath)
  origin : members.lookup "origin" = some (.string Origin.page.tag)
  id : members.lookup "id" = some (.string source.id)

/-- A node of the navigation refers to the document of an entry. -/
structure RefersToLeaf (members : List (String × Value)) (entry : Entry) : Prop where
  ref : members.lookup "ref" = some (.string entry.path)
  origin : members.lookup "origin" = some (.string Origin.reference.tag)
  title : members.lookup "title" = some (.string entry.qualifiedName)
  id : members.lookup "id" = some (.string ("reference/" ++ entry.kind.tag ++ "/" ++ entry.qualifiedName))

/-- A field is shown under its name with the type that it has in the schema. -/
structure FieldView.IsTyped (schema : Schema) (registry : Registry) (field : Field) (shown : FieldView) : Prop where
  name : shown.name = field.name
  resolves : registry.resolve? field.typeName ≠ none
  type : IsTypeView schema field.typeName shown.type

/-- A method is shown under its name with the messages that it takes and gives. -/
structure MethodView.IsTyped (schema : Schema) (registry : Registry) (method : Method) (shown : MethodView) : Prop where
  name : shown.name = method.name
  resolvesInput : registry.resolve? method.inputType ≠ none
  input : IsTypeView schema method.inputType shown.input
  inputTag : shown.input.tag = "message"
  resolvesOutput : registry.resolve? method.outputType ≠ none
  output : IsTypeView schema method.outputType shown.output
  outputTag : shown.output.tag = "message"

/-- The references in the documents of a ledger lead to the documents that they name. -/
structure Ledger.IsLinked (ledger : Ledger) (schema : Schema) (registry : Registry) (final : Disk) : Prop where
  /-- Every document is written, and its file holds it. -/
  written : ∀ document ∈ ledger.documents, document.1 ∈ final.output.written ∧
    final.files.read (final.output.location document.1) = .ok (Disk.jsonBytes document.2)
  /-- A path has one document. -/
  unique : ∀ left ∈ ledger.documents, ∀ right ∈ ledger.documents, left.1 = right.1 → left = right
  reference : ∀ document ∈ ledger.referenceDocuments ++ ledger.pages, ∀ found, document.2.Refers found →
    ∃ target shown, schema.Declares target ∧ RefersTo found target ∧
      (target.path, Value.object shown) ∈ ledger.documents ∧ Names shown target
  navigation : ∀ found, ledger.tree.view.toJson.Refers found →
    (∃ source ∈ ledger.sources, ∃ shown, RefersToPage found source ∧
        (source.documentPath, Value.object shown) ∈ ledger.documents ∧ shown.lookup "id" = some (.string source.id)) ∨
      ∃ target shown, schema.Declares target ∧ RefersToLeaf found target ∧
        (target.path, Value.object shown) ∈ ledger.documents ∧ Names shown target
  fields : ∀ name file parent message, schema.Declares ⟨.message, name, file, parent, .message message⟩ →
    ∃ view : MessageView, (documentPath .message name, view.toJson) ∈ ledger.documents ∧
      List.Forall₂ (FieldView.IsTyped schema registry) message.fields view.fields
  methods : ∀ name file parent service, schema.Declares ⟨.service, name, file, parent, .service service⟩ →
    ∃ view : ServiceView, (documentPath .service name, view.toJson) ∈ ledger.documents ∧
      List.Forall₂ (MethodView.IsTyped schema registry) service.methods view.methods

namespace Ledger

variable {ledger : Ledger} {context : Context} {start final : Disk}

private theorem mem_documents_of_reference {document : SiteDocument} (h : document ∈ ledger.reference) :
    document ∈ ledger.documents :=
  List.mem_append_left _ (List.mem_cons_of_mem _ h)

private theorem mem_documents_of_pages {document : SiteDocument} (h : document ∈ ledger.pages) :
    document ∈ ledger.documents :=
  List.mem_append_right _ (List.mem_append_left _ h)

namespace Records

private theorem exists_document (h : ledger.Records context start final) {entry : Entry}
    (hentry : entry ∈ context.registry.entries) :
    ∃ document, (entry.path, document) ∈ ledger.documents ∧
      IsRendered (entryDocument context.registry entry) document := by
  rw [← context.registry.byStages_perm.mem_iff] at hentry
  obtain ⟨⟨path, document⟩, hdocument, hpath, hrendered⟩ := (exists_of_mem_forall₂ h.reference).2 entry hentry
  obtain rfl : path = entry.path := hpath
  exact ⟨document, mem_documents_of_reference hdocument, hrendered⟩

private theorem exists_names (h : ledger.Records context start final)
    (hregistry : Registry.build context.schema = .ok context.registry) {entry : Entry}
    (hentry : entry ∈ context.registry.entries) :
    ∃ shown, (entry.path, Value.object shown) ∈ ledger.documents ∧ Names shown entry := by
  obtain ⟨document, hdocument, hrendered⟩ := h.exists_document hentry
  obtain ⟨members, rfl, hnames⟩ := (isSound_entryDocument (Registry.isConsistent_of_build hregistry)
    (Registry.kind_eq_of_build hregistry hentry) hrendered).names
  exact ⟨members, hdocument, hnames⟩

private theorem refersTo_of_reference (h : ledger.Records context start final)
    (hregistry : Registry.build context.schema = .ok context.registry) {document : SiteDocument}
    (hdocument : document ∈ ledger.referenceDocuments ++ ledger.pages) (hfound : document.2.Refers found) :
    ∃ target ∈ context.registry.entries, RefersTo found target := by
  rcases List.mem_append.mp hdocument with hdocument | hdocument
  · rcases List.mem_cons.mp hdocument with rfl | hdocument
    · exact refersTo_of_index h.index hfound
    · obtain ⟨entry, hmem, hentry⟩ := (exists_of_mem_forall₂ h.reference).1 document hdocument
      rw [context.registry.byStages_perm.mem_iff] at hmem
      exact (isSound_entryDocument (Registry.isConsistent_of_build hregistry) (Registry.kind_eq_of_build hregistry hmem)
        hentry.rendered).refersTo found hfound
  · obtain ⟨source, -, hpage⟩ := (exists_of_mem_forall₂ h.pages).1 document hdocument
    exact absurd hfound ((document_of_page hpage.rendered).2 found)

private theorem merged (h : ledger.Records context start final) :
    ledger.tree.Merged ledger.sources context.registry := by
  obtain ⟨disk, -, hsources⟩ := h.sources
  refine PageTree.merged_of_merge (fun source hsource => ?_) h.tree
  rw [hsources] at hsource
  exact Context.isInPlace_of_foundPages hsource

private theorem refersTo_of_navigation (h : ledger.Records context start final)
    (hfound : ledger.tree.view.toJson.Refers found) :
    (∃ source ∈ ledger.sources, RefersToPage found source) ∨
      ∃ target ∈ context.registry.entries, RefersToLeaf found target := by
  obtain ⟨entry, hentry, hdocument, hshows⟩ := TreeView.showsEntry_of_refers _ hfound
  obtain ⟨path, hpath⟩ := Option.ne_none_iff_exists'.mp hdocument
  have hshown : entry.Shows ledger.sources context.registry := by
    obtain ⟨index, hindex⟩ := PageTree.mem_entries_view hentry
    rw [hindex]
    exact h.merged.shows index
  have href := hshows.ref
  rw [hpath] at href
  rcases hshown path hpath with ⟨horigin, hpage⟩ | ⟨horigin, hleaf⟩
  · obtain ⟨source, hsource, hid, hdocument⟩ := hpage
    refine .inl ⟨source, hsource, ?_, ?_, ?_⟩
    · rw [href, hdocument]
      rfl
    · rw [hshows.origin, horigin]
    · rw [hshows.id, hid]
  · obtain ⟨target, htarget, htitle, hid, hdocument⟩ := hleaf
    refine .inr ⟨target, htarget, ?_, ?_, ?_, ?_⟩
    · rw [href, hdocument]
      rfl
    · rw [hshows.origin, horigin]
    · rw [hshows.title, htitle]
    · rw [hshows.id, hid]

private theorem exists_page (h : ledger.Records context start final) {source : SourcePage}
    (hsource : source ∈ ledger.sources) :
    ∃ shown, (source.documentPath, Value.object shown) ∈ ledger.documents ∧
      shown.lookup "id" = some (.string source.id) := by
  obtain ⟨⟨path, document⟩, hdocument, hpath, hrendered⟩ := (exists_of_mem_forall₂ h.pages).2 source hsource
  obtain rfl : path = source.documentPath := hpath
  obtain ⟨⟨members, rfl, hid⟩, -⟩ := document_of_page hrendered
  exact ⟨members, mem_documents_of_pages hdocument, hid⟩

private theorem isWritten (h : ledger.Records context start final) {document : SiteDocument}
    (hdocument : document ∈ ledger.documents) :
    document.1 ∈ final.output.written ∧
      final.files.read (final.output.location document.1) = .ok (Disk.jsonBytes document.2) := by
  have hall := Disk.holdsAll_of_writeAll h.writes
  have hwrite := List.mem_map_of_mem (f := SiteDocument.write) hdocument
  have hread := hall.read _ hwrite
  rw [OutputDirectory.location_of_root hall.root, hall.written.mem_iff, List.mem_append]
  rw [SiteDocument.write] at hread
  exact ⟨.inl (List.mem_map_of_mem (f := Prod.fst) hwrite), hread⟩

theorem eq_of_path_eq (h : ledger.Records context start final) {left right : SiteDocument}
    (hleft : left ∈ ledger.documents) (hright : right ∈ ledger.documents) (hpath : left.1 = right.1) : left = right := by
  have hnodup : (ledger.documents.map Prod.fst).Nodup := by
    have hpaths := (Disk.holdsAll_of_writeAll h.writes).nodup
    rw [List.map_map] at hpaths
    exact hpaths
  exact List.inj_on_of_nodup_map hnodup hleft hright hpath

private theorem exists_messageView (h : ledger.Records context start final)
    (hregistry : Registry.build context.schema = .ok context.registry) {name file : String} {parent : Option String}
    {message : Message} (hmessage : context.schema.Declares ⟨.message, name, file, parent, .message message⟩) :
    ∃ view : MessageView, (documentPath .message name, view.toJson) ∈ ledger.documents ∧
      List.Forall₂ (FieldView.IsTyped context.schema context.registry) message.fields view.fields := by
  have hentry := Schema.mem_entries_iff.mpr hmessage
  rw [← Registry.entries_of_build hregistry] at hentry
  obtain ⟨document, hdocument, hrendered⟩ := h.exists_document hentry
  obtain ⟨view, hview, rfl⟩ := exists_of_isRendered_map hrendered
  have hschema := (Registry.build_eq_ok_iff.mp hregistry).1
  have htypes (field : Field) (hfield : field ∈ message.fields) :=
    isTypeView_typeView hregistry (hschema.fieldTypes name file parent message hmessage field hfield)
  refine ⟨view, hdocument, ?_⟩
  refine ((List.forall₂_and_left _ _).mpr ⟨htypes, (isSound_message rfl hview).2⟩).imp ?_
  rintro field shown ⟨⟨hresolves, htype⟩, hshows⟩
  rw [← hshows.type] at htype
  exact ⟨hshows.name, hresolves, htype⟩

private theorem exists_serviceView (h : ledger.Records context start final)
    (hregistry : Registry.build context.schema = .ok context.registry) {name file : String} {parent : Option String}
    {service : Service} (hservice : context.schema.Declares ⟨.service, name, file, parent, .service service⟩) :
    ∃ view : ServiceView, (documentPath .service name, view.toJson) ∈ ledger.documents ∧
      List.Forall₂ (MethodView.IsTyped context.schema context.registry) service.methods view.methods := by
  have hentry := Schema.mem_entries_iff.mpr hservice
  rw [← Registry.entries_of_build hregistry] at hentry
  obtain ⟨document, hdocument, hrendered⟩ := h.exists_document hentry
  obtain ⟨view, hview, rfl⟩ := exists_of_isRendered_map hrendered
  have hschema := (Registry.build_eq_ok_iff.mp hregistry).1
  have htypes (method : Method) (hmethod : method ∈ service.methods) :=
    hschema.methodTypes name file parent service hservice method hmethod
  refine ⟨view, hdocument, ?_⟩
  refine ((List.forall₂_and_left _ _).mpr ⟨htypes, (isSound_service rfl hview).2⟩).imp ?_
  rintro method shown ⟨⟨hinput, houtput⟩, hshows⟩
  obtain ⟨hinputResolves, hinputView, hinputTag⟩ := isTypeView_typeView_of_messageType hregistry hinput
  obtain ⟨houtputResolves, houtputView, houtputTag⟩ := isTypeView_typeView_of_messageType hregistry houtput
  rw [← hshows.input] at hinputView hinputTag
  rw [← hshows.output] at houtputView houtputTag
  exact ⟨hshows.name, hinputResolves, hinputView, hinputTag, houtputResolves, houtputView, houtputTag⟩

private theorem isLinked (h : ledger.Records context start final)
    (hregistry : Registry.build context.schema = .ok context.registry) :
    ledger.IsLinked context.schema context.registry final := by
  have hdeclared {target : Entry} (htarget : target ∈ context.registry.entries) : context.schema.Declares target := by
    rw [Registry.entries_of_build hregistry] at htarget
    exact Schema.mem_entries_iff.mp htarget
  refine ⟨fun _ => h.isWritten, fun _ hleft _ hright => h.eq_of_path_eq hleft hright, fun document hdocument found hfound => ?_,
    fun found hfound => ?_, fun _ _ _ _ => h.exists_messageView hregistry, fun _ _ _ _ => h.exists_serviceView hregistry⟩
  · obtain ⟨target, htarget, hrefers⟩ := h.refersTo_of_reference hregistry hdocument hfound
    obtain ⟨shown, hshown, hnames⟩ := h.exists_names hregistry htarget
    exact ⟨target, shown, hdeclared htarget, hrefers, hshown, hnames⟩
  · rcases h.refersTo_of_navigation hfound with ⟨source, hsource, hrefers⟩ | ⟨target, htarget, hrefers⟩
    · obtain ⟨shown, hshown, hid⟩ := h.exists_page hsource
      exact .inl ⟨source, hsource, shown, hrefers, hshown, hid⟩
    · obtain ⟨shown, hshown, hnames⟩ := h.exists_names hregistry htarget
      exact .inr ⟨target, shown, hdeclared htarget, hrefers, hshown, hnames⟩

end Records

end Ledger

/-- The stages write documents in which every reference leads to the document that it names. -/
theorem Stage.runAll_linked {context : Context} {start final : Workshop} {report : Report}
    (hregistry : Registry.build context.schema = .ok context.registry)
    (h : Stage.runAll context Stage.standard start = (.ok report, final)) :
    ∃ ledger : Ledger, ledger.Records context start.disk final.disk ∧
      ledger.IsLinked context.schema context.registry final.disk := by
  obtain ⟨ledger, hrecords, -, -⟩ := Stage.records_runAll h
  exact ⟨ledger, hrecords, hrecords.isLinked hregistry⟩

namespace Sample

def workshop : Workshop where
  disk := ⟨files, { root := "o" }⟩

private theorem runs : ((Registry.build schema).toOption.map fun registry =>
    (Stage.runAll (settings.context schema registry) Stage.standard workshop).1.toOption.isSome) = some true := by
  decide +kernel

private theorem exists_run : ∃ registry report final, Registry.build schema = .ok registry ∧
    Stage.runAll (settings.context schema registry) Stage.standard workshop = (.ok report, final) := by
  obtain ⟨registry, hregistry, hsome⟩ := Option.map_eq_some_iff.mp runs
  obtain ⟨report, final, hrun⟩ := exists_of_isSome hsome
  exact ⟨registry, report, final, eq_ok_of_toOption hregistry, hrun⟩

end Sample

theorem Stage.runAll_linked_sample :
    ∃ registry report final, Registry.build Sample.schema = .ok registry ∧
      Stage.runAll (Sample.settings.context Sample.schema registry) Stage.standard Sample.workshop = (.ok report, final) ∧
        ∃ ledger : Ledger, ledger.Records (Sample.settings.context Sample.schema registry) Sample.workshop.disk final.disk ∧
          ledger.IsLinked Sample.schema registry final.disk := by
  obtain ⟨registry, report, final, hregistry, hrun⟩ := Sample.exists_run
  exact ⟨registry, report, final, hregistry, hrun, Stage.runAll_linked hregistry hrun⟩

end SchemaDocs
