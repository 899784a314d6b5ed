import SchemaDocs.Proofs.Site.Completeness
import SchemaDocs.Proofs.Site.Copies
import SchemaDocs.Proofs.Site.Plans

/-!
# Copying resources

Resources are copied one behind the other, each as it is loaded then, up to the first that cannot be loaded or
written. What has been copied stays as it was loaded, and the resources behind the first failure have no part in
what happens.
-/

namespace SchemaDocs

variable {provider other : Provider} {manifest : Manifest} {files : FileSystem} {first middle last : Disk}
  {start final : Workshop} {pair : String × String} {pairs before after : List (String × String)} {journal : List Write}
  {content : ByteArray} {error : BuildError}

/-! ### What copying does -/

/-- All resources are copied: each is loaded from the files as they are when its turn comes, and what is loaded is
written to its target. -/
inductive Copies (provider : Provider) : Disk → List (String × String) → List Write → Disk → Prop where
  | nil (disk : Disk) : Copies provider disk [] [] disk
  | cons {first middle last : Disk} {pair : String × String} {pairs : List (String × String)} {content : ByteArray}
      {journal : List Write} (hload : provider.load first.files pair.1 = .ok content)
      (hwrite : first.writeBytes pair.2 content = (.ok (), middle)) (hrest : Copies provider middle pairs journal last) :
      Copies provider first (pair :: pairs) ((pair.2, content) :: journal) last

/-- A resource is not copied: it cannot be loaded, and nothing is written, or what is loaded cannot be written. -/
inductive Stops (provider : Provider) (disk : Disk) (pair : String × String) : BuildError → Disk → Prop where
  | load {cause : ResourceError} (hload : provider.load disk.files pair.1 = .error cause) :
      Stops provider disk pair (.resource cause) disk
  | write {content : ByteArray} {cause : OutputError} {last : Disk} (hload : provider.load disk.files pair.1 = .ok content)
      (hwrite : disk.writeBytes pair.2 content = (.error cause, last)) : Stops provider disk pair (.output cause) last

theorem Disk.writeAll_singleton_eq_ok_iff {write : Write} :
    first.writeAll [write] = .ok last ↔ first.writeBytes write.1 write.2 = (.ok (), last) := by
  rw [writeAll_cons_eq_ok_iff]
  constructor
  · rintro ⟨middle, hmiddle, hlast⟩
    rw [hmiddle, Except.ok.inj hlast]
  · intro h
    exact ⟨last, h, rfl⟩

theorem fails_copyResource_iff :
    (copyResource provider pair).Fails start error final ↔
      Stops provider start.disk pair error final.disk ∧ final.renderer = start.renderer := by
  rw [Build.Fails, copyResource]
  constructor
  · intro h
    split at h
    · rename_i cause hload
      obtain ⟨herror, rfl⟩ := Prod.mk.inj h
      rw [← Except.error.inj herror]
      exact ⟨.load hload, rfl⟩
    · rename_i content hload
      obtain ⟨cause, rfl, hwrite⟩ := Build.fails_writeBytes h
      exact ⟨.write hload hwrite, by rw [← (Prod.mk.inj h).2]⟩
  · rintro ⟨hstops, hrenderer⟩
    obtain ⟨disk, renderer⟩ := final
    obtain rfl : renderer = start.renderer := hrenderer
    cases hstops with
    | load hload => rw [hload]
    | write hload hwrite =>
      rw [hload]
      simp only [Build.writeBytes, hwrite]
      rfl

theorem yields_copies_iff :
    (pairs.forM (copyResource provider)).Yields start () final ↔
      (∃ journal, Copies provider start.disk pairs journal final.disk) ∧ final.renderer = start.renderer := by
  induction pairs generalizing start with
  | nil =>
    refine Build.yields_pure_iff.trans ⟨?_, ?_⟩
    · rintro ⟨-, rfl⟩
      exact ⟨⟨[], .nil _⟩, rfl⟩
    · rintro ⟨⟨journal, hcopies⟩, hrenderer⟩
      obtain ⟨disk, renderer⟩ := final
      cases hcopies
      exact ⟨rfl, congrArg (Workshop.mk _) hrenderer⟩
  | cons pair pairs ih =>
    refine Build.yields_bind_iff.trans ⟨?_, ?_⟩
    · rintro ⟨_, middle, hfirst, hrest⟩
      obtain ⟨content, hload, hwritten, hrenderer⟩ := yields_copyResource_iff.mp hfirst
      have hwrite := Disk.writeAll_singleton_eq_ok_iff.mp hwritten
      obtain ⟨⟨journal, hcopies⟩, hrest⟩ := ih.mp hrest
      exact ⟨⟨_, .cons hload hwrite hcopies⟩, hrest.trans hrenderer⟩
    · rintro ⟨⟨journal, hcopies⟩, hrenderer⟩
      cases hcopies with
      | @cons _ middle _ _ _ content journal hload hwrite hrest =>
        refine ⟨(), ⟨middle, start.renderer⟩, yields_copyResource_iff.mpr ?_, ih.mpr ⟨⟨journal, hrest⟩, hrenderer⟩⟩
        exact ⟨content, hload, Disk.writeAll_singleton_eq_ok_iff.mpr hwrite, rfl⟩

theorem fails_copies_iff :
    (pairs.forM (copyResource provider)).Fails start error final ↔
      (∃ before pair after journal middle, pairs = before ++ pair :: after ∧
        Copies provider start.disk before journal middle ∧ Stops provider middle pair error final.disk) ∧
      final.renderer = start.renderer := by
  constructor
  · intro h
    obtain ⟨before, pair, after, middle, hpairs, hbefore, hpair⟩ := Build.exists_of_forM_fails h
    obtain ⟨⟨journal, hcopies⟩, hmiddle⟩ := yields_copies_iff.mp hbefore
    obtain ⟨hstops, hfinal⟩ := fails_copyResource_iff.mp hpair
    exact ⟨⟨before, pair, after, journal, middle.disk, hpairs, hcopies, hstops⟩, hfinal.trans hmiddle⟩
  · rintro ⟨⟨before, pair, after, journal, middle, rfl, hcopies, hstops⟩, hrenderer⟩
    induction before generalizing start journal with
    | nil =>
      cases hcopies
      have hpair : (copyResource provider pair).Fails start error final := fails_copyResource_iff.mpr ⟨hstops, hrenderer⟩
      exact Build.fails_bind_iff.mpr (.inl hpair)
    | cons earlier before ih =>
      cases hcopies with
      | @cons _ next _ _ _ content journal hload hwrite hrest =>
        have hfirst : (copyResource provider earlier).Yields start () ⟨next, start.renderer⟩ :=
          yields_copyResource_iff.mpr ⟨content, hload, Disk.writeAll_singleton_eq_ok_iff.mpr hwrite, rfl⟩
        exact Build.fails_bind_iff.mpr (.inr ⟨(), _, hfirst, @ih ⟨next, start.renderer⟩ hrenderer journal hrest⟩)

/-! ### What is copied -/

theorem Copies.writeAll (h : Copies provider first pairs journal last) : first.writeAll journal = .ok last := by
  induction h with
  | nil disk => rfl
  | cons hload hwrite _ ih => exact Disk.writeAll_cons_eq_ok_iff.mpr ⟨_, hwrite, ih⟩

theorem Copies.resources (h : Copies provider first pairs journal last) :
    List.Forall₂ (IsResource provider) pairs journal := by
  induction h with
  | nil disk => exact .nil
  | cons hload hwrite _ ih => exact .cons ⟨rfl, _, hload⟩ ih

/-- The targets of resources hold what has been loaded for them. They are all that is claimed, and no other file is
altered. -/
structure AreHeld (provider : Provider) (first last : Disk) (pairs : List (String × String)) (journal : List Write) :
    Prop where
  resources : List.Forall₂ (IsResource provider) pairs journal
  read : ∀ write ∈ journal, last.files.read (first.output.location write.1) = .ok write.2
  alters : first.files.Alters last.files (journal.map fun write => first.output.place first.files write.1)

private theorem Copies.areHeld (h : Copies provider first pairs journal last) :
    AreHeld provider first last pairs journal where
  resources := h.resources
  read := (Disk.holdsAll_of_writeAll h.writeAll).read
  alters := Disk.alters_of_writeAll h.writeAll

private theorem Copies.written (h : Copies provider first pairs journal last) :
    last.output.written.Perm (pairs.map Prod.snd ++ first.output.written) := by
  have hpaths : journal.map Prod.fst = pairs.map Prod.snd :=
    (map_eq_map_of_forall₂ (fun _ _ hwrite => hwrite.path.symm) h.resources).symm
  rw [← hpaths]
  exact (Disk.holdsAll_of_writeAll h.writeAll).written

private theorem Stops.alters (h : Stops provider middle pair error last) :
    middle.files.Alters last.files [] ∧
      ∀ claimed ∈ last.output.written, claimed ∈ middle.output.written ∨ claimed = pair.2 := by
  cases h with
  | load hload => exact ⟨.refl _, fun _ => .inl⟩
  | write hload hwrite =>
    obtain ⟨halters, -, hclaimed⟩ := Disk.alters_of_writeBytes_error hwrite
    exact ⟨halters, hclaimed⟩

private theorem AreHeld.stop (h : AreHeld provider first middle pairs journal)
    (hstops : Stops provider middle pair error last) :
    AreHeld provider first last pairs journal where
  resources := h.resources
  read write hwrite := hstops.alters.1.read (h.read write hwrite) fun _ _ => List.not_mem_nil
  alters := by
    have halters := h.alters.trans hstops.alters.1
    rwa [List.append_nil] at halters

/-! ### What has no part in it -/

theorem Copies.congr (hsame : ∀ earlier ∈ pairs, ∀ files, other.load files earlier.1 = provider.load files earlier.1)
    (h : Copies provider first pairs journal last) : Copies other first pairs journal last := by
  induction h with
  | nil disk => exact .nil disk
  | cons hload hwrite _ ih =>
    obtain ⟨hfirst, hsame⟩ := List.forall_mem_cons.mp hsame
    exact .cons ((hfirst _).trans hload) hwrite (ih hsame)

theorem Stops.congr (hsame : ∀ files, other.load files pair.1 = provider.load files pair.1)
    (h : Stops provider middle pair error last) : Stops other middle pair error last := by
  cases h with
  | load hload => exact .load ((hsame _).trans hload)
  | write hload hwrite => exact .write ((hsame _).trans hload) hwrite

/-- Copying ends at a resource, behind those before it. Whatever other resources a manifest lists behind it, and
whatever a provider has for them, the end is the same. -/
structure EndsAt (provider : Provider) (start : Workshop) (before : List (String × String)) (pair : String × String)
    (journal : List Write) (error : BuildError) (final : Workshop) : Prop where
  stops : ∃ middle, Copies provider start.disk before journal middle ∧ Stops provider middle pair error final.disk
  held : AreHeld provider start.disk final.disk before journal
  claimed : ∀ path ∈ final.disk.output.written,
    path ∈ start.disk.output.written ∨ path ∈ (before ++ [pair]).map Prod.snd
  unaffected : ∀ (other : Provider) (manifest : Manifest) (after : List (String × String)),
    manifest.pairs = before ++ pair :: after →
    (∀ earlier ∈ before ++ [pair], ∀ files, other.load files earlier.1 = provider.load files earlier.1) →
    copyResources other manifest start = (.error error, final)

theorem copyResources_eq_ok_iff {count : Nat} :
    copyResources provider manifest start = (.ok count, final) ↔
      count = manifest.size ∧ final.renderer = start.renderer ∧
        ∃ journal, Copies provider start.disk manifest.pairs journal final.disk := by
  refine Iff.trans Build.yields_bind_iff ⟨?_, ?_⟩
  · rintro ⟨_, middle, hcopies, h⟩
    obtain ⟨hcount, rfl⟩ := Build.yields_pure_iff.mp h
    obtain ⟨hjournal, hrenderer⟩ := yields_copies_iff.mp hcopies
    exact ⟨hcount, hrenderer, hjournal⟩
  · rintro ⟨hcount, hrenderer, hjournal⟩
    exact ⟨(), final, yields_copies_iff.mpr ⟨hjournal, hrenderer⟩, Build.yields_pure_iff.mpr ⟨hcount, rfl⟩⟩

theorem copyResources_eq_error_iff :
    copyResources provider manifest start = (.error error, final) ↔
      (manifest.pairs.forM (copyResource provider)).Fails start error final := by
  refine Iff.trans Build.fails_bind_iff (or_iff_left ?_)
  rintro ⟨_, _, _, hpure⟩
  exact Build.not_fails_pure hpure

private theorem exists_endsAt (h : copyResources provider manifest start = (.error error, final)) :
    ∃ before pair after journal, manifest.pairs = before ++ pair :: after ∧
      EndsAt provider start before pair journal error final := by
  obtain ⟨⟨before, pair, after, journal, middle, hpairs, hcopies, hstops⟩, hrenderer⟩ :=
    fails_copies_iff.mp (copyResources_eq_error_iff.mp h)
  refine ⟨before, pair, after, journal, hpairs, ⟨middle, hcopies, hstops⟩, hcopies.areHeld.stop hstops, ?_, ?_⟩
  · intro path hpath
    rw [List.map_append, List.mem_append]
    rcases hstops.alters.2 path hpath with hclaimed | rfl
    · exact (List.mem_append.mp (hcopies.written.mem_iff.mp hclaimed)).symm.imp_right .inl
    · exact .inr (.inr List.mem_cons_self)
  · intro other manifest after hpairs hsame
    obtain ⟨hbefore, hpair⟩ := List.forall_mem_append.mp hsame
    refine copyResources_eq_error_iff.mpr (fails_copies_iff.mpr ⟨?_, hrenderer⟩)
    exact ⟨before, pair, after, journal, middle, hpairs, hcopies.congr hbefore, hstops.congr (hpair pair List.mem_cons_self)⟩

/-! ### Placeholders -/

private theorem load_placeholders (hpair : pair ∈ manifest.pairs) (files : FileSystem) :
    (Provider.placeholders manifest).load files pair.1 = .ok ("/* " ++ pair.1 ++ " */\n").toUTF8 := by
  have hlookup := lookup_map_of_mem Prod.fst (fun source => ("/* " ++ source ++ " */\n").toUTF8) hpair
  rw [Provider.placeholders, Provider.load, hlookup]

/-- The resources of a manifest are all copied, and counted, exactly if each can be loaded and written in its turn.
Then their targets hold what has been loaded. Otherwise copying ends at the first that cannot, with those before it
as they have been loaded, and those behind it have no part in it. Placeholders can always be loaded. -/
theorem copyResources_exact (provider : Provider) (manifest : Manifest) (start : Workshop) :
    (∀ count final, copyResources provider manifest start = (.ok count, final) ↔
        count = manifest.size ∧ final.renderer = start.renderer ∧
          ∃ journal, Copies provider start.disk manifest.pairs journal final.disk) ∧
      (∀ journal last, Copies provider start.disk manifest.pairs journal last →
        AreHeld provider start.disk last manifest.pairs journal ∧
          last.output.written.Perm (manifest.pairs.map Prod.snd ++ start.disk.output.written)) ∧
      (∀ error final, copyResources provider manifest start = (.error error, final) →
        ∃ before pair after journal, manifest.pairs = before ++ pair :: after ∧
          EndsAt provider start before pair journal error final) ∧
      ∀ pair ∈ manifest.pairs, ∀ files,
        (Provider.placeholders manifest).load files pair.1 = .ok ("/* " ++ pair.1 ++ " */\n").toUTF8 :=
  ⟨fun _ _ => copyResources_eq_ok_iff, fun _ _ h => ⟨h.areHeld, h.written⟩, fun _ _ => exists_endsAt,
    fun _ => load_placeholders⟩

namespace Sample

/-- An application and its libraries, with prefixes of their own. -/
def shelf : Manifest :=
  ⟨[{ name := "app", sourceBase := "app/", files := ["a.html"] },
    { name := "libs", sourceBase := "jars/", targetBase := "libs/", files := ["b.js", "c.js"] }]⟩

def shelfProvider : Provider := .memory [("app/a.html", "a".toUTF8), ("jars/c.js", "c".toUTF8)]

def emptyWorkshop : Workshop where
  disk := ⟨{}, { root := "o" }⟩

/-- The cause of an error that is about a resource. -/
def resourceCause? {α : Type} : Except BuildError α → Option ResourceError
  | .error (.resource cause) => some cause
  | _ => none

theorem exists_of_resourceCause? {α σ : Type} {outcome : Except BuildError α × σ} {cause : ResourceError}
    (h : resourceCause? outcome.1 = some cause) : ∃ final, outcome = (.error (.resource cause), final) := by
  obtain ⟨result, final⟩ := outcome
  cases result with
  | ok value => cases h
  | error error =>
    cases error with
    | resource found => exact ⟨final, by rw [Option.some.inj h]⟩
    | schema | manifest | output | navigation => cases h

private theorem shelf_copied : (copyResources (Provider.placeholders shelf) shelf emptyWorkshop).1.toOption.isSome := by
  decide +kernel

private theorem shelf_misses :
    resourceCause? (copyResources shelfProvider shelf emptyWorkshop).1 = some (.notFound "jars/b.js") := by
  decide +kernel

end Sample

theorem copyResources_exact_shelf :
    (∃ final journal, copyResources (Provider.placeholders Sample.shelf) Sample.shelf Sample.emptyWorkshop =
          (.ok Sample.shelf.size, final) ∧
        AreHeld (Provider.placeholders Sample.shelf) Sample.emptyWorkshop.disk final.disk Sample.shelf.pairs journal) ∧
      ∃ final before pair after journal,
        copyResources Sample.shelfProvider Sample.shelf Sample.emptyWorkshop =
          (.error (.resource (.notFound "jars/b.js")), final) ∧
        Sample.shelf.pairs = before ++ pair :: after ∧
        EndsAt Sample.shelfProvider Sample.emptyWorkshop before pair journal (.resource (.notFound "jars/b.js")) final := by
  obtain ⟨hcopied, hheld, -, -⟩ := copyResources_exact (Provider.placeholders Sample.shelf) Sample.shelf Sample.emptyWorkshop
  obtain ⟨-, -, hends, -⟩ := copyResources_exact Sample.shelfProvider Sample.shelf Sample.emptyWorkshop
  constructor
  · obtain ⟨count, final, h⟩ := Sample.exists_of_isSome Sample.shelf_copied
    obtain ⟨rfl, -, journal, hcopies⟩ := (hcopied count final).mp h
    exact ⟨final, journal, h, (hheld journal final.disk hcopies).1⟩
  · obtain ⟨final, h⟩ := Sample.exists_of_resourceCause? Sample.shelf_misses
    obtain ⟨before, pair, after, journal, hpairs, hend⟩ := hends _ _ h
    exact ⟨final, before, pair, after, journal, h, hpairs, hend⟩

end SchemaDocs
