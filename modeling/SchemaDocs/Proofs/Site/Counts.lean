import SchemaDocs.Proofs.Schema.Indices
import SchemaDocs.Proofs.Site.Separation

/-!
# How many texts a build renders

The stages of a site ask one renderer for the same comments again and again: an index shows the summaries of all
declarations, each document those of what it links to, and the document of a declaration its own comment and
those of its parts. Together they ask for all comments of the schema and for the pages, and for nothing else, so
that the renderer has rendered each of these texts once, whatever the order of the stages.
-/

namespace SchemaDocs

open Markdown (Renderer)

/-! ### The comments of a schema -/

def EnumType.comments (type : EnumType) : List String :=
  type.comment.toList ++ type.constants.flatMap (·.comment.toList)

def Service.comments (service : Service) : List String :=
  service.comment.toList ++ service.methods.flatMap (·.comment.toList)

mutual

/-- The comments of a message, of its fields and of what is nested in it. -/
def Message.comments : Message → List String
  | ⟨_, comment, fields, messages, enums, _⟩ =>
    comment.toList ++ fields.flatMap (·.comment.toList) ++
      (Message.listComments messages ++ enums.flatMap EnumType.comments)

def Message.listComments : List Message → List String
  | [] => []
  | message :: messages => message.comments ++ Message.listComments messages

end

def ProtoFile.comments (file : ProtoFile) : List String :=
  file.comment.toList ++
    (Message.listComments file.messages ++ file.enums.flatMap EnumType.comments ++ file.services.flatMap Service.comments)

/-- All comments in a schema. -/
def Schema.comments (schema : Schema) : List String := schema.files.flatMap ProtoFile.comments

/-- The comments of a declaration and of its parts, without the declarations in it. -/
def Declaration.comments : Declaration → List String
  | .file holder => holder.comment.toList
  | .message holder => holder.comment.toList ++ holder.fields.flatMap (·.comment.toList)
  | .enum holder => holder.comments
  | .service holder => holder.comments

namespace Message

theorem comments_eq (message : Message) :
    message.comments = message.comment.toList ++ message.fields.flatMap (·.comment.toList) ++
      (listComments message.messages ++ message.enums.flatMap EnumType.comments) := by
  cases message
  rw [comments]

theorem listComments_eq (messages : List Message) : listComments messages = messages.flatMap comments := by
  induction messages with
  | nil => rw [listComments, List.flatMap_nil]
  | cons message messages ih => rw [listComments, ih, List.flatMap_cons]

private theorem comments_of_entries (message : Message) : ∀ (file : String) (parent : Option String) (scope : String),
    (message.entries file parent scope).flatMap (·.declaration.comments) = message.comments := by
  induction message using nestedInduction with
  | step message ih =>
    intro file parent scope
    have hmessages (parent : Option String) (scope : String) :
        (message.messages.flatMap (entries file parent scope)).flatMap (·.declaration.comments) =
          message.messages.flatMap comments := by
      rw [List.flatMap_assoc]
      exact List.flatMap_congr fun nested hnested => ih nested hnested file parent scope
    rw [entries_eq, comments_eq, listEntries_eq, listComments_eq, List.flatMap_cons, List.flatMap_append, hmessages,
      List.flatMap_map]
    rfl

private theorem comments_of_listEntries (messages : List Message) (file : String) (parent : Option String)
    (scope : String) :
    (listEntries file parent scope messages).flatMap (·.declaration.comments) = listComments messages := by
  rw [listEntries_eq, listComments_eq, List.flatMap_assoc]
  exact List.flatMap_congr fun message _ => message.comments_of_entries file parent scope

end Message

private theorem Schema.comments_of_entries (schema : Schema) :
    schema.entries.flatMap (·.declaration.comments) = schema.comments := by
  rw [entries, comments, List.flatMap_assoc]
  refine List.flatMap_congr fun file _ => ?_
  rw [ProtoFile.entries, ProtoFile.comments, List.flatMap_cons, List.flatMap_append, List.flatMap_append,
    Message.comments_of_listEntries, List.flatMap_map, List.flatMap_map]
  rfl

/-! ### What the reference asks for -/

section

variable {registry : Registry} {entry : Entry} {text : String}

private theorem Entry.mem_comments_of_comment (h : text ∈ entry.comment.toList) :
    text ∈ entry.declaration.comments := by
  obtain ⟨kind, name, file, parent, declaration⟩ := entry
  cases declaration with
  | file file => exact h
  | _ => exact List.mem_append_left _ h

private theorem Registry.mem_comments_of_linkTexts {names : List String} (h : text ∈ registry.linkTexts names) :
    ∃ entry ∈ registry.entries, text ∈ entry.declaration.comments := by
  obtain ⟨entry, hentry, htext⟩ := List.mem_flatMap.mp h
  obtain ⟨name, -, hget⟩ := List.mem_filterMap.mp hentry
  exact ⟨entry, Registry.mem_of_get? hget, Entry.mem_comments_of_comment htext⟩

private theorem Entry.mem_texts_of_comments (h : text ∈ entry.declaration.comments) : text ∈ entry.texts registry := by
  obtain ⟨kind, name, file, parent, declaration⟩ := entry
  cases declaration with
  | file file => exact List.mem_append_left _ h
  | message message =>
    rw [Declaration.comments, List.mem_append] at h
    simp only [texts, List.mem_append]
    tauto
  | enum type => exact List.mem_append_right _ h
  | service service => exact h

private theorem Entry.mem_comments_of_texts (hentry : entry ∈ registry.entries) (h : text ∈ entry.texts registry) :
    ∃ other ∈ registry.entries, text ∈ other.declaration.comments := by
  by_cases hown : text ∈ entry.declaration.comments
  · exact ⟨entry, hentry, hown⟩
  · have hlinks : ∃ names, text ∈ registry.linkTexts names := by
      obtain ⟨kind, name, file, parent, declaration⟩ := entry
      cases declaration with
      | file file =>
        rw [Declaration.comments] at hown
        simp only [texts, List.mem_append] at h
        tauto
      | message message =>
        rw [Declaration.comments, List.mem_append] at hown
        simp only [texts, List.mem_append] at h
        tauto
      | enum type =>
        rw [Declaration.comments, EnumType.comments, List.mem_append] at hown
        simp only [texts, List.mem_append] at h
        tauto
      | service service => exact absurd h hown
    obtain ⟨names, hlinks⟩ := hlinks
    exact Registry.mem_comments_of_linkTexts hlinks

end

/-! ### What a build asks for -/

theorem Duty.mem_texts_total {duties : List Duty} {text : String} :
    text ∈ (total duties).texts ↔ ∃ duty ∈ duties, text ∈ duty.texts := by
  induction duties with
  | nil => simp [total, none]
  | cons duty duties ih =>
    show text ∈ duty.texts ++ (total duties).texts ↔ _
    rw [List.mem_append, ih, List.exists_mem_cons_iff]

section

variable {limit : Nat} {context : Context} {sources : List SourcePage} {tree : PageTree} {start final : Workshop}
  {report : Report} {order : List Stage}

/-- The documents of a site ask for the comments of the schema and for the pages, and for nothing else. -/
theorem Task.mem_texts_iff (hentries : context.registry.entries = context.schema.entries) {text : String} :
    text ∈ (Duty.total ((all context.registry sources).map (duty limit context tree))).texts ↔
      text ∈ context.schema.comments ++ sources.map (·.page.content) := by
  rw [Duty.mem_texts_total, List.mem_append, ← Schema.comments_of_entries, ← hentries, List.mem_flatMap]
  constructor
  · rintro ⟨_, hduty, htext⟩
    obtain ⟨task, htask, rfl⟩ := List.mem_map.mp hduty
    cases task with
    | index =>
      obtain ⟨entry, hentry, htext⟩ := List.mem_flatMap.mp htext
      exact .inl ⟨entry, hentry, Entry.mem_comments_of_comment htext⟩
    | entry entry =>
      refine .inl (Entry.mem_comments_of_texts ?_ htext)
      simpa [all] using htask
    | page source =>
      refine .inr (List.mem_map.mpr ⟨source, ?_, (List.mem_singleton.mp htext).symm⟩)
      simpa [all] using htask
    | navigation => cases htext
  · rintro (⟨entry, hentry, htext⟩ | htext)
    · have htask : .entry entry ∈ all context.registry sources := by simpa [all] using hentry
      exact ⟨_, List.mem_map_of_mem htask, Entry.mem_texts_of_comments htext⟩
    · obtain ⟨source, hsource, rfl⟩ := List.mem_map.mp htext
      have htask : .page source ∈ all context.registry sources := by simpa [all] using hsource
      exact ⟨_, List.mem_map_of_mem htask, List.mem_singleton_self _⟩

/-- A renderer that begins with nothing has rendered each of the texts once. -/
theorem IsSchedule.counts (hregistry : Registry.build context.schema = .ok context.registry)
    (htree : PageTree.merge context.title sources context.registry = .ok tree) {schedule : Build Report}
    (hschedule : IsSchedule context sources tree schedule) (hrenderer : start.renderer = { limit })
    (h : schedule.Yields start report final) :
    final.renderer.renders = (context.schema.comments ++ sources.map (·.page.content)).toFinset.card ∧
      final.renderer.cached = (context.schema.comments ++ sources.map (·.page.content)).toFinset.card := by
  have hfaithful : start.renderer.IsFaithful limit := hrenderer ▸ Renderer.isFaithful_new limit
  obtain ⟨duty, hduty, halike⟩ := hschedule.exists_duty htree
  obtain ⟨-, -, hfinal⟩ := hduty.of_yields hfaithful h
  have htexts : duty.texts.toFinset = (context.schema.comments ++ sources.map (·.page.content)).toFinset := by
    ext text
    rw [List.mem_toFinset, List.mem_toFinset, halike.texts.mem_iff,
      Task.mem_texts_iff (Registry.entries_of_build hregistry)]
  obtain ⟨hcached, hrenders⟩ := Renderer.counts_asked start.renderer duty.texts
  rw [hfinal, hcached, hrenders, htexts, hrenderer]
  simp [Renderer.kept, Renderer.cached]

/-- When all stages have succeeded with one new renderer, in whatever order, the renderer has rendered each text
among the comments of the schema and the contents of the pages once, those that it refuses included, and has
kept it. -/
theorem Stage.renders_each_once (hregistry : Registry.build context.schema = .ok context.registry)
    (horder : order.Perm standard) (hrenderer : start.renderer = { limit })
    (h : (runAll context order).Yields start report final) :
    ∃ before after earlier middle, order = before ++ pages :: after ∧
      (runAll context before).Yields start earlier middle ∧
      final.renderer.renders = (context.schema.comments ++
        (context.foundPages middle.disk.files).map (·.page.content)).toFinset.card ∧
      final.renderer.cached = final.renderer.renders := by
  have hpages : pages ∈ order := horder.mem_iff.mpr (by simp [standard, scheduled])
  obtain ⟨before, after, rfl⟩ := List.append_of_mem hpages
  have hothers : (before ++ after).Perm reference :=
    (List.perm_middle.symm.trans (horder.trans (List.perm_append_singleton pages reference))).cons_inv
  obtain ⟨earlier, middle, hbefore⟩ : ∃ earlier middle, (runAll context before).Yields start earlier middle := by
    rw [runAll, List.foldlM_append] at h
    obtain ⟨earlier, middle, hbefore, -⟩ := Build.yields_bind_iff.mp h
    exact ⟨earlier, middle, hbefore⟩
  have hfound : ∀ report ended, (runAll context before).Yields start report ended →
      context.foundPages ended.disk.files = context.foundPages middle.disk.files := by
    intro report ended hended
    rw [(Prod.mk.inj (hended.symm.trans hbefore)).2]
  rw [Build.Yields, runAll_pages_eq before after hfound] at h
  obtain ⟨tree, htree⟩ := exists_tree_of_yields_pagesOn before after h
  have hschedule : IsSchedule context (context.foundPages middle.disk.files) tree
      (runAll context (before ++ pagesOn (context.foundPages middle.disk.files) :: after)) :=
    .stages (List.perm_middle.trans ((hothers.cons _).trans (List.perm_append_singleton _ _).symm))
  obtain ⟨hrenders, hcached⟩ := hschedule.counts hregistry htree hrenderer h
  exact ⟨before, after, earlier, middle, rfl, hbefore, hrenders, hcached.trans hrenders.symm⟩

end

namespace Sample

/-- A comment that occurs twice, and one that is a page as well and is refused. -/
def repeatedSchema : Schema where
  output := "o"
  files := [{
    name := "a"
    comment := some "C."
    messages := [{
      name := "M"
      comment := some "# C\n\n\x07\n"
      fields := [{ name := "f", typeName := "bool", tag := 1, comment := some "C." }] }] }]

private theorem repeatedSchema_registered :
    Registry.build repeatedSchema = .ok (.ofEntries repeatedSchema.entries) := rfl

private theorem repeatedSchema_runs :
    (Stage.runAll (pagedContext repeatedSchema) Stage.standard.reverse labelledWorkshop).1.toOption.isSome := by
  decide +kernel

end Sample

theorem Stage.renders_each_once_reverse :
    ∃ report final before after earlier middle,
      (runAll (Sample.pagedContext Sample.repeatedSchema) standard.reverse).Yields Sample.labelledWorkshop report final ∧
      standard.reverse = before ++ pages :: after ∧
      (runAll (Sample.pagedContext Sample.repeatedSchema) before).Yields Sample.labelledWorkshop earlier middle ∧
      final.renderer.renders = (Sample.repeatedSchema.comments ++
        ((Sample.pagedContext Sample.repeatedSchema).foundPages middle.disk.files).map (·.page.content)).toFinset.card ∧
      final.renderer.cached = final.renderer.renders := by
  obtain ⟨report, final, h⟩ := Sample.exists_of_isSome Sample.repeatedSchema_runs
  have hregistered : Registry.build (Sample.pagedContext Sample.repeatedSchema).schema =
      .ok (Sample.pagedContext Sample.repeatedSchema).registry := Sample.repeatedSchema_registered
  have hrenderer : Sample.labelledWorkshop.renderer = { limit := 100 } := rfl
  obtain ⟨before, after, earlier, middle, hrest⟩ :=
    renders_each_once hregistered (List.reverse_perm _) hrenderer h
  exact ⟨report, final, before, after, earlier, middle, h, hrest⟩

end SchemaDocs
