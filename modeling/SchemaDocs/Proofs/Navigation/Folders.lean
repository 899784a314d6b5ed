import SchemaDocs.Proofs.Navigation.Rehoming

/-!
# What folders show

A folder is made when the first page on its way is placed, and may be described then, much later or not
at all. What it shows in the end depends on its way and on the page that describes it alone: its name
gives it a title, which the page may replace, and there is no second page to describe it.
-/

namespace SchemaDocs

variable {title : String} {sources done rest : List SourcePage} {source : SourcePage} {way : List String}

/-- The page that describes the directory at the end of a way, if there is one. -/
def describing? (sources : List SourcePage) (way : List String) : Option SourcePage :=
  (indexPages sources).find? fun source => source.directories = way

theorem of_describing?_eq_some (h : describing? sources way = some source) :
    source ∈ indexPages sources ∧ source.directories = way :=
  ⟨List.mem_of_find?_eq_some h, by simpa using List.find?_some h⟩

theorem describing?_eq_some_iff (hnodup : ((indexPages sources).map SourcePage.directories).Nodup) :
    describing? sources way = some source ↔ source ∈ indexPages sources ∧ source.directories = way := by
  rw [describing?, find?_eq_some_iff_of_unique, decide_eq_true_eq]
  intro left hleft right hright hleftWay hrightWay
  rw [decide_eq_true_eq] at hleftWay hrightWay
  exact List.inj_on_of_nodup_map hnodup hleft hright (hleftWay.trans hrightWay.symm)

theorem describing?_eq_none_iff :
    describing? sources way = none ↔ ∀ source ∈ indexPages sources, source.directories ≠ way := by
  rw [describing?, List.find?_eq_none]
  simp only [decide_eq_true_eq, ne_eq]

private theorem describing?_append_of_isIndex (hindex : source.isIndex) :
    describing? (done ++ [source]) way =
      (describing? done way).or (if source.directories = way then some source else none) := by
  rw [describing?, indexPages, List.filter_append, List.find?_append, List.filter_cons_of_pos hindex, List.filter_nil,
    List.find?_singleton]
  simp only [decide_eq_true_eq]
  rfl

private theorem describing?_append_of_not_isIndex (hindex : ¬ source.isIndex) :
    describing? (done ++ [source]) way = describing? done way := by
  rw [describing?, indexPages, List.filter_append, List.filter_cons_of_neg hindex, List.filter_nil, List.append_nil]
  rfl

namespace PageTree

variable {tree next : PageTree} {index parent current : Nat} {isFolder : List String → Prop} {stands : List Stand}
  {entry : NavEntry} {passed directories : List String}

def plainEntry (title : String) (way : List String) : NavEntry :=
  match way.getLast? with
  | none => { kind := .root, id := "", name := "", title }
  | some directory => folderEntry way.dropLast directory

/-- What the folder at the end of a way shows once it is described. -/
def describedEntry (source : SourcePage) (way : List String) (entry : NavEntry) : NavEntry :=
  let entry := { entry with document := some source.documentPath }
  if way = [] then entry else { entry with title := source.page.title.getD entry.title, order := source.page.order }

/-- What the folder at the end of a way shows after pages are placed. -/
def folderShown (title : String) (sources : List SourcePage) (way : List String) : NavEntry :=
  match describing? sources way with
  | none => plainEntry title way
  | some source => describedEntry source way (plainEntry title way)

private theorem document_plainEntry (title : String) (way : List String) : (plainEntry title way).document = none := by
  rw [plainEntry]
  split <;> rfl

theorem document_folderShown (title : String) (sources : List SourcePage) (way : List String) :
    (folderShown title sources way).document = (describing? sources way).map SourcePage.documentPath := by
  rw [folderShown]
  cases describing? sources way with
  | none => exact document_plainEntry title way
  | some source =>
    simp only [describedEntry]
    split <;> rfl

/-- Every folder shows what its way and the pages placed so far say. -/
def ShowsFolders (title : String) (sources : List SourcePage) (tree : PageTree) : Prop :=
  ∀ way index, tree.Reaches way index → (tree.node index).toNavEntry = folderShown title sources way

theorem plainEntry_concat (title : String) (passed : List String) (directory : String) :
    plainEntry title (passed ++ [directory]) = folderEntry passed directory := by
  rw [plainEntry, List.getLast?_concat, List.dropLast_concat]

theorem ShowsFolders.new (title : String) : (PageTree.new title).ShowsFolders title [] := by
  intro way index hway
  cases hway with
  | root => rfl
  | @folder way parent index _ hparent _ => cases index <;> cases hparent

/-! ### Placing pages -/

private theorem Arranged.entries_ensureFolder (title : String) (h : tree.Arranged isFolder stands)
    (hway : tree.Reaches passed current) (hok : tree.ensureFolder current passed directories = .ok (index, next))
    {other : Nat} (hother : next.Reaches way other) :
    tree.Reaches way other ∧ (next.node other).toNavEntry = (tree.node other).toNavEntry ∨
      ¬ isFolder way ∧ way ≠ [] ∧ (next.node other).toNavEntry = plainEntry title way := by
  induction directories generalizing isFolder tree current passed with
  | nil =>
    obtain ⟨-, rfl⟩ := Prod.mk.inj (Except.ok.inj hok)
    exact .inl ⟨hother, rfl⟩
  | cons directory directories ih =>
    rcases ensureFolder_cons_cases hok with ⟨child, hchild, hkind, hok⟩ | ⟨child, grown, hadd, hok⟩
    · exact ih h (h.reaches_of_childNamed? hway hchild hkind) hok
    · obtain ⟨hgrown, hreach⟩ := h.addMissing hway hadd
      obtain ⟨-, hadds⟩ := adds_of_addChild (hway.lt_size h.linked) hadd
      rcases ih hgrown hreach hok with ⟨hkept, hentry⟩ | ⟨hnew, hne, hentry⟩
      · rcases (reaches_of_adds_iff h.linked hway hadds).mp hkept with hold | ⟨-, rfl, rfl⟩
        · exact .inl ⟨hold, hentry.trans (hadds.entry_of_lt (hold.lt_size h.linked))⟩
        · refine .inr ⟨fun hfolder => ?_, List.append_ne_nil_of_right_ne_nil _ (List.cons_ne_nil _ _), ?_⟩
          -- a folder at the end of this way would have been found
          · obtain ⟨there, hthere⟩ := (h.folders _).mpr (.inr hfolder)
            obtain ⟨upper, hupper, hparent, hkind, hname⟩ := hthere.exists_parent
            obtain rfl := hupper.unique h.linked h.differ hway
            have hvacant := collision?_eq_none_iff.mp hadds.vacant there ((h.linked.mem_children_iff _ _).mpr hparent)
            exact hvacant (h.origin_eq (lt_size_of_parent hparent)) hname
          · rw [hentry, hadds.entries, if_pos rfl]
            exact (plainEntry_concat title passed directory).symm
      · exact .inr ⟨fun hfolder => hnew (.inl hfolder), hne, hentry⟩

namespace ShowsFolders

private theorem ensureFolder (h : tree.ShowsFolders title done) (harranged : tree.Arranged (HasFolder done) stands)
    (hok : tree.folderOf source = .ok (index, next)) : next.ShowsFolders title done := by
  intro way other hother
  rcases harranged.entries_ensureFolder title .root hok hother with ⟨hold, hentry⟩ | ⟨hnew, hne, hentry⟩
  · exact hentry.trans (h way other hold)
  · have hnone : describing? done way = none := by
      rw [describing?_eq_none_iff]
      intro source hsource hway
      obtain ⟨hsource, hindex⟩ := List.mem_filter.mp hsource
      refine hnew ⟨hne, source, hsource, ?_, hway ▸ List.prefix_rfl⟩
      rw [SourcePage.needsFolders, hindex, Bool.true_or]
    rw [hentry, folderShown, hnone]

private theorem describe (h : tree.ShowsFolders title done) (harranged : tree.Arranged isFolder stands)
    (hway : tree.Reaches source.directories index) (hindex : source.isIndex)
    (hnone : describing? done source.directories = none) :
    (tree.describe index source).ShowsFolders title (done ++ [source]) := by
  have hlt := hway.lt_size harranged.linked
  intro way other hother
  rw [reaches_describe_iff hlt] at hother
  rw [PageTree.describe, entry_edit tree _ hlt, folderShown, describing?_append_of_isIndex hindex]
  by_cases hsame : other = index
  · subst hsame
    obtain rfl := hway.way_eq harranged.linked hother
    have hroot : other = root ↔ source.directories = [] := by
      constructor
      · rintro rfl
        exact hway.way_eq harranged.linked .root
      · intro hnil
        exact (hnil ▸ hway).unique harranged.linked harranged.differ .root
    have hplain : (tree.node other).toNavEntry = plainEntry title source.directories := by
      rw [h _ other hother, folderShown, hnone]
    rw [if_pos rfl, if_pos rfl, hnone, hplain]
    simp only [Option.none_or, describedEntry, hroot]
  · have hne : source.directories ≠ way := by
      rintro rfl
      exact hsame (hother.unique harranged.linked harranged.differ hway)
    rw [if_neg hsame, if_neg hne, Option.or_none]
    exact h way other hother

private theorem addPage (h : tree.ShowsFolders title done) (hlinked : tree.Linked) (hway : tree.Reaches way parent)
    (hadds : tree.Adds next parent source.navEntry) (hindex : ¬ source.isIndex) :
    next.ShowsFolders title (done ++ [source]) := by
  intro other index hother
  rcases (reaches_of_adds_iff hlinked hway hadds).mp hother with hold | ⟨hkind, -, -⟩
  · rw [hadds.entry_of_lt (hold.lt_size hlinked), h other index hold, folderShown, folderShown,
      describing?_append_of_not_isIndex hindex]
  · cases hkind

private theorem place (h : tree.ShowsFolders title done) (harranged : tree.Arranged (HasFolder done) stands)
    (hnone : source.isIndex → describing? done source.directories = none) (hok : tree.place source = .ok next) :
    next.ShowsFolders title (done ++ [source]) := by
  rcases place_cases hok with ⟨hindex, index, grown, hfolder, rfl⟩ | ⟨hindex, -, parent, index, grown, hfolder, hadd⟩ |
    ⟨hindex, -, rfl⟩
  · obtain ⟨hgrown, hway⟩ := harranged.ensureFolder .root hfolder
    exact (h.ensureFolder harranged hfolder).describe hgrown hway hindex (hnone hindex)
  · obtain ⟨hgrown, hway⟩ := harranged.ensureFolder .root hfolder
    have hadds := (adds_of_addChild (hway.lt_size hgrown.linked) hadd).2
    exact (h.ensureFolder harranged hfolder).addPage hgrown.linked hway hadds hindex
  · intro way index hway
    rw [h way index hway, folderShown, folderShown, describing?_append_of_not_isIndex hindex]

/-- Once all pages are placed, each folder shows the page that describes it. -/
theorem placeAll {described : List String} (h : tree.ShowsFolders title done)
    (harranged : tree.Arranged (HasFolder done) (directoryLayout done))
    (hnodup : ((indexPages (done ++ rest)).map SourcePage.directories).Nodup)
    (hok : tree.placeAll described rest = .ok next) : next.ShowsFolders title (done ++ rest) := by
  induction rest generalizing tree done described with
  | nil =>
    obtain rfl := Except.ok.inj hok
    rw [List.append_nil]
    exact h
  | cons source rest ih =>
    obtain ⟨-, placed, hplaced, hok⟩ := placeAll_cons_eq_ok_iff.mp hok
    have hnone (hindex : source.isIndex) : describing? done source.directories = none := by
      rw [describing?_eq_none_iff]
      intro other hother
      rw [indexPages, List.filter_append, List.map_append, List.nodup_append, List.filter_cons_of_pos hindex,
        List.map_cons] at hnodup
      exact hnodup.2.2 _ (List.mem_map_of_mem hother) _ List.mem_cons_self
    rw [List.append_cons] at hnodup ⊢
    exact ih (h.place harranged hnone hplaced) (harranged.place hplaced) hnodup hok

end ShowsFolders

/-! ### Taking pages home -/

private theorem Linked.moveTo (h : tree.Linked) (hindex : index < tree.size) (hparent : parent < tree.size)
    (hok : tree.moveTo index parent = .ok next) :
    next.Linked ∧ ∀ other, (next.node other).toNavEntry = (tree.node other).toNavEntry := by
  obtain ⟨hroot, hbelow, ⟨-, rfl⟩ | ⟨hdiffers, hmoves⟩⟩ :=
    moves_of_moveTo hindex hparent (fun _ => h.parent_lt) hok
  · exact ⟨h, fun _ => rfl⟩
  · refine ⟨hmoves.linked h hroot hparent (fun habove => ?_) hdiffers, hmoves.entries⟩
    rw [(h.isAncestor_iff hparent).mpr habove] at hbelow
    cases hbelow

/-- A page that is taken home shows what it showed, and so does everything else. -/
theorem Linked.rehome (h : tree.Linked) {source : SourcePage} (hok : tree.rehome source = .ok next) :
    next.Linked ∧ ∀ other, (next.node other).toNavEntry = (tree.node other).toNavEntry := by
  rw [PageTree.rehome] at hok
  split at hok
  · obtain rfl := Except.ok.inj hok
    exact ⟨h, fun _ => rfl⟩
  · split at hok
    · rename_i folder index hfolder hindex
      refine h.moveTo ((of_find?_eq_some hindex).1) ?_ hok
      obtain ⟨declared, -, hdeclared⟩ := Option.bind_eq_some_iff.mp hfolder
      rw [declaredFolder?] at hdeclared
      split at hdeclared
      · obtain rfl := Option.some.inj hdeclared
        exact h.nonempty
      · exact (of_find?_eq_some (Option.filter_eq_some_iff.mp hdeclared).1).1
    · obtain rfl := Except.ok.inj hok
      exact ⟨h, fun _ => rfl⟩

/-- Whatever is taken home, nothing shows anything else than before. -/
theorem Linked.rehomeAll (h : tree.Linked) (hok : sources.foldlM PageTree.rehome tree = .ok next) :
    next.Linked ∧ ∀ index, (next.node index).toNavEntry = (tree.node index).toNavEntry := by
  refine foldlM_keeps (motive := fun state =>
    state.Linked ∧ ∀ index, (state.node index).toNavEntry = (tree.node index).toNavEntry) ?_ ⟨h, fun _ => rfl⟩ hok
  intro state later source _ ⟨hlinked, hentries⟩ hrehome
  obtain ⟨hlater, hlaterEntries⟩ := hlinked.rehome hrehome
  exact ⟨hlater, fun index => (hlaterEntries index).trans (hentries index)⟩

/-- Folders that show what they showed lie where they lay. -/
theorem ShowsFolders.of_entries (h : tree.ShowsFolders title sources) (htree : tree.Arranged (HasFolder sources) stands)
    {others : List Stand} (hnext : next.Arranged (HasFolder sources) others)
    (hsources : ∀ source ∈ sources, source.IsNamed)
    (hentries : ∀ index, (next.node index).toNavEntry = (tree.node index).toNavEntry) :
    next.ShowsFolders title sources := by
  intro way index hway
  by_cases hroot : index = root
  · subst hroot
    obtain rfl := hway.way_eq hnext.linked .root
    exact (hentries root).trans (h [] root .root)
  · obtain ⟨other, hother⟩ := htree.reached index (by
      rw [← hentries]
      cases hway with
      | root => exact absurd rfl hroot
      | folder _ _ hkind => exact hkind)
    -- the identity of a folder is its way
    have hid : String.intercalate "/" way = String.intercalate "/" other := by
      rw [← hnext.ids way index hway, ← htree.ids other index hother, hentries]
    obtain rfl := way_unique
      (names_of_mem_folderWays hsources (mem_folderWays_iff.mpr ((hnext.folders way).mp ⟨index, hway⟩)))
      (names_of_mem_folderWays hsources (mem_folderWays_iff.mpr ((htree.folders other).mp ⟨index, hother⟩))) hid
    exact (hentries index).trans (h way index hother)

end PageTree

end SchemaDocs
