import SchemaDocs.Proofs.Site.Completeness
import SchemaDocs.Proofs.Site.Paths

/-!
# Which documents want the same path

Whatever the pages are, a path is wanted twice only for two page files of one identity. So the stages
of a site, which start with nothing claimed, end with a duplicate only where they find such files.
-/

namespace SchemaDocs

variable {context : Context} {start middle final : Disk} {plan : List String} {path : String}
  {sources : List SourcePage}

/-! ### Names stay names -/

namespace Disk

theorem Completes.isNamed (h : start.Completes plan final) (hfiles : start.files.root.IsNamed) :
    final.files.root.IsNamed := by
  obtain ⟨journal, -, hjournal⟩ := h
  exact FileSystem.isKept_isNamed.writeAll hfiles hjournal

/-! ### Claims -/

theorem Completes.written_perm (h : start.Completes plan final) :
    final.output.written.Perm (plan ++ start.output.written) := by
  obtain ⟨journal, rfl, hjournal⟩ := h
  exact (holdsAll_of_writeAll hjournal).written

theorem Halts.exists_earlier (h : start.Halts plan (.duplicate path) final) :
    ∃ front rest, plan = front ++ path :: rest ∧ path ∈ front ++ start.output.written := by
  obtain ⟨hplan, hwritten, hhalt⟩ := h
  rename_i journal middle other content rest
  have hends := middle.ends_writeBytes other content
  rw [hhalt] at hends
  cases hends with
  | duplicate _ hclaimed => exact ⟨_, rest, hplan, (holdsAll_of_writeAll hwritten).written.mem_iff.mp hclaimed⟩

end Disk

/-! ### Duplicates -/

theorem Context.isFound_of_foundPages {files : FileSystem} (hfiles : files.root.IsNamed) {source : SourcePage}
    (h : source ∈ context.foundPages files) : source.IsFound := by
  obtain ⟨directory, hfound⟩ := exists_discover_of_foundPages h
  exact Discovery.isFound_of_mem_discover hfiles hfound

namespace PathsApart

variable {registry : Registry}

private theorem nodup_referencePaths (h : PathsApart registry sources) : registry.referencePaths.Nodup := by
  have hperm := registry.byStages_perm.map Entry.path
  refine List.nodup_cons.mpr ⟨fun hindex => ?_, hperm.nodup_iff.mpr h.reference_distinct⟩
  obtain ⟨entry, hentry, hpath⟩ := List.mem_map.mp (hperm.mem_iff.mp hindex)
  exact h.reference_ne_index entry hentry hpath

theorem isOutputPath_of_referencePaths (h : PathsApart registry sources) (hpath : path ∈ registry.referencePaths) :
    isOutputPath path := by
  rcases List.mem_cons.mp hpath with rfl | hpath
  · decide
  · obtain ⟨entry, hentry, rfl⟩ := List.mem_map.mp hpath
    exact h.reference_accepted entry (registry.byStages_perm.mem_iff.mp hentry)

theorem isOutputPath_of_pagePaths (h : PathsApart registry sources) (hpath : path ∈ pagePaths sources) :
    isOutputPath path := by
  rcases List.mem_append.mp hpath with hpage | htree
  · obtain ⟨source, hsource, rfl⟩ := List.mem_map.mp hpage
    exact h.page_accepted source hsource
  · obtain rfl := List.mem_singleton.mp htree
    decide

theorem not_mem_referencePaths (h : PathsApart registry sources) (hpath : path ∈ pagePaths sources) :
    path ∉ registry.referencePaths := by
  have hentries : path ∉ registry.entries.map Entry.path ∧ path ≠ "data/index.json" := by
    rcases List.mem_append.mp hpath with hpage | htree
    · obtain ⟨source, hsource, rfl⟩ := List.mem_map.mp hpage
      refine ⟨fun hentry => ?_, fun hindex => h.page_not_data source hsource ?_⟩
      · obtain ⟨entry, hentry, hsame⟩ := List.mem_map.mp hentry
        exact h.reference_ne_page entry hentry source hsource hsame
      · rw [hindex]
        decide
    · obtain rfl := List.mem_singleton.mp htree
      refine ⟨fun hentry => ?_, by decide⟩
      obtain ⟨entry, hentry, hsame⟩ := List.mem_map.mp hentry
      exact h.reference_ne_tree entry hentry hsame
  rw [Registry.referencePaths, List.mem_cons, not_or, (registry.byStages_perm.map Entry.path).mem_iff]
  exact hentries.symm

/-- A path that stands twice in the plan of the pages is that of two of them. -/
theorem exists_twins (h : PathsApart registry sources) {front rest : List String}
    (hplan : pagePaths sources = front ++ path :: rest) (hfront : path ∈ front) :
    ∃ left right, [left, right].Sublist sources ∧ left.documentPath = path ∧ right.documentPath = path := by
  rw [pagePaths] at hplan
  rcases rest.eq_nil_or_concat with rfl | ⟨rest, last, rfl⟩
  · obtain ⟨rfl, htree⟩ := List.append_inj' hplan rfl
    obtain ⟨source, hsource, hpath⟩ := List.mem_map.mp hfront
    exact absurd (hpath.trans (List.cons.inj htree).1.symm) (h.page_ne_tree source hsource)
  · rw [List.concat_eq_append, ← List.cons_append, ← List.append_assoc] at hplan
    obtain ⟨before, after, rfl, rfl, hafter⟩ := List.map_eq_append_iff.mp (List.append_inj' hplan rfl).1
    obtain ⟨right, others, rfl, hright, -⟩ := List.map_eq_cons_iff.mp hafter
    obtain ⟨left, hleft, hpath⟩ := List.mem_map.mp hfront
    refine ⟨left, right, ?_, hpath, hright⟩
    exact (List.singleton_sublist.mpr hleft).append (List.singleton_sublist.mpr List.mem_cons_self)

end PathsApart

namespace Stage

/-- The namespaces of a site never collide: the paths of its documents are accepted and apart,
whatever the schema and the pages are, and a path that is wanted twice is wanted for two page files
of one identity. -/
theorem namespaces_apart {start final : Workshop} (hregistry : Registry.build context.schema = .ok context.registry)
    (hfiles : start.disk.files.root.IsNamed) :
    (∀ directory, PathsApart context.registry (Discovery.discover start.disk.files directory)) ∧
      ∀ path, path ∉ start.disk.output.written →
        (runAll context standard).Fails start (.output (.duplicate path)) final →
        ∃ middle left right, start.disk.Completes context.registry.referencePaths middle ∧
          [left, right].Sublist (context.foundPages middle.files) ∧ left.id = right.id ∧ left.isIndex = right.isIndex ∧
          left.documentPath = path ∧ right.documentPath = path := by
  have hnamed := wellNamed_of_build hregistry
  refine ⟨fun directory => pathsApart hnamed fun _ => Discovery.isFound_of_mem_discover hfiles, fun path hnew h => ?_⟩
  generalize herror : BuildError.output (.duplicate path) = error at h
  cases hasFailed_of_runAll h with
  | reference hhalts =>
    obtain rfl := BuildError.output.inj herror
    obtain ⟨front, rest, hplan, hearlier⟩ := hhalts.exists_earlier
    have hnodup := (pathsApart hnamed (List.forall_mem_nil SourcePage.IsFound)).nodup_referencePaths
    rw [hplan] at hnodup
    have hfront := (List.mem_append.mp hearlier).resolve_right hnew
    exact absurd rfl ((List.nodup_append.mp hnodup).2.2 path hfront path List.mem_cons_self)
  | navigation => cases herror
  | pages hreference hhalts =>
    rename_i middle _
    obtain rfl := BuildError.output.inj herror
    have hsources : ∀ source ∈ context.foundPages middle.files, source.IsFound := fun _ =>
      Context.isFound_of_foundPages (hreference.isNamed hfiles)
    have hapart := pathsApart hnamed hsources
    obtain ⟨front, rest, hplan, hearlier⟩ := hhalts.exists_earlier
    have hpath : path ∈ pagePaths (context.foundPages middle.files) := by
      rw [hplan]
      exact List.mem_append_right _ List.mem_cons_self
    have hfront : path ∈ front := by
      refine (List.mem_append.mp hearlier).resolve_right fun hclaimed => ?_
      rcases List.mem_append.mp (hreference.written_perm.mem_iff.mp hclaimed) with hclaimed | hclaimed
      · exact hapart.not_mem_referencePaths hpath hclaimed
      · exact hnew hclaimed
    obtain ⟨left, right, hpair, hleft, hright⟩ := hapart.exists_twins hplan hfront
    obtain ⟨hid, hindex⟩ := hapart.page_same left (hpair.subset List.mem_cons_self) right
      (hpair.subset (List.mem_cons_of_mem _ List.mem_cons_self)) (hleft.trans hright.symm)
    exact ⟨middle, left, right, hreference, hpair, hid, hindex, hleft, hright⟩

end Stage

namespace Sample

/-- Two files of one page, which is not in the navigation, so that nothing but their document is wanted
twice. -/
def twinFiles : FileSystem where
  root := .directory [
    ("p", .directory [
      ("a.markdown", .file "---\nnav: false\n---\n".toUTF8), ("a.md", .file "---\nnav: false\n---\n".toUTF8)])]

def twinWorkshop : Workshop where
  disk := ⟨twinFiles, { root := "o" }⟩

private theorem twinFiles_named : twinFiles.root.IsNamed := by
  have hname (name : String) (h : name ≠ "" ∧ '/' ∉ name.toList) : IsEntryName name := ⟨h.1, h.2⟩
  exact ⟨hname _ (by decide), ⟨hname _ (by decide), trivial, hname _ (by decide), trivial, trivial⟩, trivial⟩

/-- Whether something ends for a cause. -/
def hasCause {α : Type} (cause : OutputError) : Except BuildError α → Bool
  | .error (.output other) => cause = other
  | _ => false

theorem exists_of_hasCause {α σ : Type} {cause : OutputError} {outcome : Except BuildError α × σ}
    (h : hasCause cause outcome.1) : ∃ final, outcome = (.error (.output cause), final) := by
  obtain ⟨result, final⟩ := outcome
  unfold hasCause at h
  split at h
  · rename_i hresult
    obtain rfl : result = _ := hresult
    rw [of_decide_eq_true h]
    exact ⟨final, rfl⟩
  · cases h

private theorem twins_collide :
    ((Registry.build schema).toOption.map fun registry => hasCause (.duplicate "pages/a.json")
    (Stage.runAll (settings.context schema registry) Stage.standard twinWorkshop).1) = some true := by
  decide +kernel

end Sample

theorem Stage.namespaces_apart_twins :
    ∃ registry final, Registry.build Sample.schema = .ok registry ∧
      (runAll (Sample.settings.context Sample.schema registry) standard).Fails Sample.twinWorkshop
        (.output (.duplicate "pages/a.json")) final ∧
      PathsApart registry (Discovery.discover Sample.twinFiles "p") ∧
      ∃ middle left right, Sample.twinWorkshop.disk.Completes registry.referencePaths middle ∧
        [left, right].Sublist ((Sample.settings.context Sample.schema registry).foundPages middle.files) ∧
        left.id = right.id ∧ left.isIndex = right.isIndex ∧ left.documentPath = "pages/a.json" ∧
        right.documentPath = "pages/a.json" := by
  obtain ⟨registry, hregistry, hcollide⟩ := Option.map_eq_some_iff.mp Sample.twins_collide
  obtain ⟨final, hfails⟩ := Sample.exists_of_hasCause hcollide
  let context := Sample.settings.context Sample.schema registry
  have hbuilt : Registry.build context.schema = .ok context.registry := eq_ok_of_toOption hregistry
  have hnamed : Sample.twinWorkshop.disk.files.root.IsNamed := Sample.twinFiles_named
  obtain ⟨hapart, htwins⟩ := namespaces_apart hbuilt hnamed
  exact ⟨registry, final, hbuilt, hfails, hapart "p", htwins _ List.not_mem_nil hfails⟩

end SchemaDocs
