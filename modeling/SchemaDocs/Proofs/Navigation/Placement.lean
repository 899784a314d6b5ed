import SchemaDocs.Proofs.Navigation.Arrangement

/-!
# Placing pages by their directories

Placing the pages in turn keeps the tree arranged by their directories. A page cannot be placed only
if it describes a directory that is described already, or if it or one of its folders would share
the name of a sibling.
-/

namespace SchemaDocs

namespace PageTree

variable {tree next : PageTree} {index current : Nat} {isFolder : List String → Prop} {stands : List Stand}
  {passed directories : List String} {source : SourcePage} {done rest : List SourcePage}

def folderEntry (passed : List String) (directory : String) : NavEntry where
  kind := .folder
  id := String.intercalate "/" (passed ++ [directory])
  name := directory
  title := folderTitle directory

/-! ### What a step does -/

theorem ensureFolder_cons_cases {directory : String}
    (hok : tree.ensureFolder current passed (directory :: directories) = .ok (index, next)) :
    (∃ child, tree.childNamed? current .page directory = some child ∧ (tree.node child).kind = .folder ∧
        tree.ensureFolder child (passed ++ [directory]) directories = .ok (index, next)) ∨
      ∃ child grown, tree.addChild current (folderEntry passed directory) = .ok (child, grown) ∧
        grown.ensureFolder child (passed ++ [directory]) directories = .ok (index, next) := by
  rw [PageTree.ensureFolder] at hok
  split at hok
  · rename_i child hchild
    split at hok
    · exact .inl ⟨child, hchild, ‹_›, hok⟩
    · cases hok
  · obtain ⟨⟨child, grown⟩, hadd, hok⟩ := bind_eq_ok_iff.mp hok
    exact .inr ⟨child, grown, hadd, hok⟩

theorem place_cases (hok : tree.place source = .ok next) :
    (source.isIndex ∧ ∃ index grown, tree.folderOf source = .ok (index, grown) ∧ next = grown.describe index source) ∨
      (¬ source.isIndex ∧ source.page.inNav ∧ ∃ parent index grown, tree.folderOf source = .ok (parent, grown) ∧
        grown.addChild parent source.navEntry = .ok (index, next)) ∨
      (¬ source.isIndex ∧ ¬ source.page.inNav ∧ next = tree) := by
  rw [PageTree.place] at hok
  split at hok
  · rename_i hindex
    obtain ⟨⟨index, grown⟩, hfolder, hok⟩ := bind_eq_ok_iff.mp hok
    exact .inl ⟨hindex, index, grown, hfolder, (Except.ok.inj hok).symm⟩
  · rename_i hindex
    split at hok
    · rename_i hnav
      obtain ⟨⟨parent, grown⟩, hfolder, hok⟩ := bind_eq_ok_iff.mp hok
      obtain ⟨⟨index, added⟩, hadd, hok⟩ := bind_eq_ok_iff.mp hok
      obtain rfl := Except.ok.inj hok
      exact .inr (.inl ⟨hindex, hnav, parent, index, grown, hfolder, hadd⟩)
    · rename_i hnav
      exact .inr (.inr ⟨hindex, hnav, (Except.ok.inj hok).symm⟩)

theorem placeAll_cons_eq_ok_iff {described : List String} :
    tree.placeAll described (source :: rest) = .ok next ↔
      ¬ (source.isIndex && described.contains source.id) ∧ ∃ placed, tree.place source = .ok placed ∧
        placed.placeAll (if source.isIndex then source.id :: described else described) rest = .ok next := by
  rw [PageTree.placeAll]
  split
  · rename_i hagain
    constructor
    · intro hok
      obtain ⟨_, hthrow, -⟩ := bind_eq_ok_iff.mp hok
      cases hthrow
    · exact fun h => absurd hagain h.1
  · rename_i hnew
    exact bind_eq_ok_iff.trans (and_iff_right hnew).symm

namespace Arranged

theorem addMissing {directory : String} (h : tree.Arranged isFolder stands) (hway : tree.Reaches passed current)
    (hadd : tree.addChild current (folderEntry passed directory) = .ok (index, next)) :
    next.Arranged (fun way => isFolder way ∨ way = passed ++ [directory]) stands ∧
      next.Reaches (passed ++ [directory]) index := by
  obtain ⟨rfl, hadds⟩ := adds_of_addChild (hway.lt_size h.linked) hadd
  exact h.addFolder hway hadds rfl rfl

theorem reaches_of_childNamed? {directory : String} (h : tree.Arranged isFolder stands)
    (hway : tree.Reaches passed current)
    (hchild : tree.childNamed? current .page directory = some index) (hkind : (tree.node index).kind = .folder) :
    tree.Reaches (passed ++ [directory]) index := by
  rcases h.childNamed?_cases hway hchild with ⟨-, hreach⟩ | ⟨hpage, -⟩
  · exact hreach
  · rw [hkind] at hpage
    cases hpage

/-- The folders of a way are found or made. -/
theorem ensureFolder (h : tree.Arranged isFolder stands) (hway : tree.Reaches passed current)
    (hok : tree.ensureFolder current passed directories = .ok (index, next)) :
    next.Arranged (WithFolders isFolder passed directories) stands ∧ next.Reaches (passed ++ directories) index := by
  induction directories generalizing isFolder tree current passed with
  | nil =>
    obtain ⟨rfl, rfl⟩ := Prod.mk.inj (Except.ok.inj hok)
    rw [List.append_nil]
    exact ⟨h.congr fun way => withFolders_nil.symm, hway⟩
  | cons directory directories ih =>
    rw [List.append_cons]
    rcases ensureFolder_cons_cases hok with ⟨child, hchild, hkind, hok⟩ | ⟨child, grown, hadd, hok⟩
    · have hreach := h.reaches_of_childNamed? hway hchild hkind
      have hfolder : isFolder (passed ++ [directory]) := by
        refine h.isFolder_of_reaches hreach fun hroot => ?_
        subst hroot
        exact List.append_ne_nil_of_right_ne_nil _ (List.cons_ne_nil _ _) (hreach.way_eq h.linked .root)
      have hsame : tree.Arranged (fun way => isFolder way ∨ way = passed ++ [directory]) stands :=
        h.congr fun way => ⟨.inl, fun hor => hor.elim id fun heq => heq ▸ hfolder⟩
      obtain ⟨harranged, hend⟩ := ih hsame hreach hok
      exact ⟨harranged.congr fun way => withFolders_cons.symm, hend⟩
    · obtain ⟨hgrown, hreach⟩ := h.addMissing hway hadd
      obtain ⟨harranged, hend⟩ := ih hgrown hreach hok
      exact ⟨harranged.congr fun way => withFolders_cons.symm, hend⟩

private theorem exists_ensureFolder (h : tree.Arranged isFolder stands) (hway : tree.Reaches passed current)
    (hapart : Apart (WithFolders isFolder passed directories) stands) :
    ∃ result, tree.ensureFolder current passed directories = .ok result := by
  induction directories generalizing isFolder tree current passed with
  | nil => exact ⟨_, rfl⟩
  | cons directory directories ih =>
    have hvacant (stand : Stand) (hstand : stand ∈ stands) : stand.place ≠ passed ++ [directory] := by
      intro hplace
      refine hapart.folders stand hstand (withFolders_cons.mpr (.inl (.inr hplace)))
    rw [PageTree.ensureFolder]
    cases hchild : tree.childNamed? current .page directory with
    | some child =>
      rcases h.childNamed?_cases hway hchild with ⟨hkind, hreach⟩ | ⟨-, stand, hstand, -, hplace⟩
      · simp only [hkind, if_true]
        refine ih h hreach ⟨hapart.pages, fun stand hstand hfolder => hapart.folders stand hstand ?_⟩
        rw [withFolders_cons]
        exact hfolder.imp_left .inl
      · exact absurd hplace (hvacant stand hstand)
    | none =>
      have hmissing : tree.collision? current (folderEntry passed directory).origin directory = none :=
        Option.map_eq_none_iff.mpr hchild
      obtain ⟨⟨child, grown⟩, hadd⟩ := exists_addChild hmissing
      obtain ⟨hgrown, hreach⟩ := h.addMissing hway hadd
      have hfold : Apart (WithFolders (fun way => isFolder way ∨ way = passed ++ [directory]) (passed ++ [directory])
          directories) stands :=
        ⟨hapart.pages, fun stand hstand hfolder => hapart.folders stand hstand (withFolders_cons.mpr hfolder)⟩
      obtain ⟨result, hresult⟩ := ih hgrown hreach hfold
      exact ⟨result, bind_eq_ok_iff.mpr ⟨_, hadd, hresult⟩⟩

end Arranged

/-! ### One page -/

namespace Arranged

/-- Placing a page keeps the tree arranged by directories. -/
theorem place (h : tree.Arranged (HasFolder done) (directoryLayout done)) (hok : tree.place source = .ok next) :
    next.Arranged (HasFolder (done ++ [source])) (directoryLayout (done ++ [source])) := by
  rw [directoryLayout_append]
  rcases place_cases hok with ⟨hindex, index, grown, hfolder, rfl⟩ | ⟨hindex, hnav, parent, index, grown, hfolder, hadd⟩ |
    ⟨hindex, hnav, rfl⟩
  · obtain ⟨hgrown, hway⟩ := h.ensureFolder .root hfolder
    rw [directoryLayout_of_not_isListed (by simp [SourcePage.isListed, hindex]), List.append_nil]
    exact (hgrown.describe hway source).congr fun way =>
      (hasFolder_append_of_needsFolders (by rw [SourcePage.needsFolders, hindex, Bool.true_or])).symm
  · obtain ⟨hgrown, hway⟩ := h.ensureFolder .root hfolder
    have hadds := (adds_of_addChild (hway.lt_size hgrown.linked) hadd).2
    have hstand : grown.Reaches (Stand.mk source source.directories).way parent := hway
    rw [directoryLayout_of_isListed (by simp [SourcePage.isListed, hindex, hnav])]
    exact (hgrown.addPage hstand hadds).congr fun way =>
      (hasFolder_append_of_needsFolders (by rw [SourcePage.needsFolders, hnav, Bool.or_true])).symm
  · rw [directoryLayout_of_not_isListed (by simp [SourcePage.isListed, hnav]), List.append_nil]
    exact h.congr fun way =>
      (hasFolder_append_of_not_needsFolders (by simp [SourcePage.needsFolders, hindex, hnav])).symm

private theorem exists_place (h : tree.Arranged (HasFolder done) (directoryLayout done))
    (hapart : Apart (HasFolder (done ++ [source])) (directoryLayout (done ++ [source]))) :
    ∃ next, tree.place source = .ok next := by
  rw [directoryLayout_append] at hapart
  have hfolders (hneeds : source.needsFolders) :
      Apart (WithFolders (HasFolder done) [] source.directories) (directoryLayout done) :=
    hapart.of_subset fun way => (hasFolder_append_of_needsFolders hneeds).mpr
  rw [PageTree.place]
  split
  · rename_i hindex
    have hneeds : source.needsFolders := by rw [SourcePage.needsFolders, hindex, Bool.true_or]
    obtain ⟨⟨index, grown⟩, hfolder⟩ := h.exists_ensureFolder .root (hfolders hneeds)
    exact ⟨_, bind_eq_ok_iff.mpr ⟨_, hfolder, rfl⟩⟩
  · rename_i hindex
    split
    · rename_i hnav
      have hneeds : source.needsFolders := by rw [SourcePage.needsFolders, hnav, Bool.or_true]
      rw [directoryLayout_of_isListed (by simp [SourcePage.isListed, hindex, hnav])] at hapart
      obtain ⟨⟨parent, grown⟩, hfolder⟩ := h.exists_ensureFolder .root (hfolders hneeds)
      obtain ⟨hgrown, hway⟩ := h.ensureFolder .root hfolder
      rw [List.nil_append] at hway
      have hvacant : grown.collision? parent source.navEntry.origin source.navEntry.name = none := by
        by_contra hcollision
        rcases hgrown.collision?_cases hway hcollision with hfolder | ⟨stand, hstand, hplace⟩
        · refine hapart.folders ⟨source, source.directories⟩ (by simp) ?_
          exact (hasFolder_append_of_needsFolders hneeds).mpr hfolder
        · have hpages := hapart.pages
          rw [List.map_append, List.nodup_append] at hpages
          exact hpages.2.2 _ (List.mem_map_of_mem hstand) _ (List.mem_singleton_self _) hplace
      obtain ⟨⟨index, added⟩, hadd⟩ := exists_addChild hvacant
      exact ⟨added, bind_eq_ok_iff.mpr ⟨_, hfolder, bind_eq_ok_iff.mpr ⟨_, hadd, rfl⟩⟩⟩
    · exact ⟨tree, rfl⟩

end Arranged

/-! ### All pages -/

theorem arranged_new (title : String) : (new title).Arranged (HasFolder []) (directoryLayout []) := by
  refine (Arranged.new title).congr fun way => ?_
  constructor
  · intro hfalse
    exact hfalse.elim
  · intro ⟨_, source, hsource, _⟩
    exact List.not_mem_nil hsource

private theorem Arranged.placeAll {described : List String} (h : tree.Arranged (HasFolder done) (directoryLayout done))
    (hok : tree.placeAll described rest = .ok next) :
    next.Arranged (HasFolder (done ++ rest)) (directoryLayout (done ++ rest)) ∧
      ((indexPages rest).map SourcePage.id).Nodup ∧ ∀ id ∈ described, id ∉ (indexPages rest).map SourcePage.id := by
  induction rest generalizing tree done described with
  | nil =>
    obtain rfl := Except.ok.inj hok
    rw [List.append_nil]
    exact ⟨h, List.nodup_nil, fun _ _ => List.not_mem_nil⟩
  | cons source rest ih =>
    rw [List.append_cons]
    obtain ⟨hnew, placed, hplaced, hok⟩ := placeAll_cons_eq_ok_iff.mp hok
    obtain ⟨hfinal, hnodup, hdescribed⟩ := ih (h.place hplaced) hok
    refine ⟨hfinal, ?_⟩
    by_cases hindex : source.isIndex
    · rw [if_pos hindex] at hdescribed
      rw [hindex, Bool.true_and, List.contains_iff_mem] at hnew
      rw [indexPages, List.filter_cons_of_pos hindex, List.map_cons, List.nodup_cons]
      refine ⟨⟨hdescribed _ List.mem_cons_self, hnodup⟩, fun id hid hmem => ?_⟩
      rcases List.mem_cons.mp hmem with rfl | hmem
      · exact hnew hid
      · exact hdescribed id (List.mem_cons_of_mem _ hid) hmem
    · rw [if_neg hindex] at hdescribed
      rw [indexPages, List.filter_cons_of_neg hindex]
      exact ⟨hnodup, hdescribed⟩

/-- Pages can be placed where their layout is sound and each directory is described once. -/
theorem Arranged.exists_placeAll {described : List String} (h : tree.Arranged (HasFolder done) (directoryLayout done))
    (hapart : Apart (HasFolder (done ++ rest)) (directoryLayout (done ++ rest)))
    (hnodup : ((indexPages rest).map SourcePage.id).Nodup)
    (hdescribed : ∀ id ∈ described, id ∉ (indexPages rest).map SourcePage.id) :
    ∃ next, tree.placeAll described rest = .ok next := by
  induction rest generalizing tree done described with
  | nil => exact ⟨tree, rfl⟩
  | cons source rest ih =>
    rw [List.append_cons] at hapart
    have hfirst : Apart (HasFolder (done ++ [source])) (directoryLayout (done ++ [source])) := by
      rw [directoryLayout_append] at hapart
      exact hapart.of_subset fun way hway => hway.mono (List.subset_append_left _ _)
    obtain ⟨placed, hplaced⟩ := h.exists_place hfirst
    have hnew : ¬ (source.isIndex && described.contains source.id) := by
      rw [Bool.and_eq_true, List.contains_iff_mem]
      intro ⟨hindex, hmem⟩
      refine hdescribed _ hmem (List.mem_map_of_mem ?_)
      exact List.mem_filter.mpr ⟨List.mem_cons_self, hindex⟩
    have hrest : ((indexPages rest).map SourcePage.id).Nodup ∧
        ∀ id ∈ if source.isIndex then source.id :: described else described,
          id ∉ (indexPages rest).map SourcePage.id := by
      by_cases hindex : source.isIndex
      · rw [indexPages, List.filter_cons_of_pos hindex, List.map_cons, List.nodup_cons] at hnodup
        rw [indexPages, List.filter_cons_of_pos hindex, List.map_cons] at hdescribed
        rw [if_pos hindex]
        refine ⟨hnodup.2, fun id hid => ?_⟩
        rcases List.mem_cons.mp hid with rfl | hid
        · exact hnodup.1
        · exact fun hmem => hdescribed id hid (List.mem_cons_of_mem _ hmem)
      · rw [indexPages, List.filter_cons_of_neg hindex] at hnodup hdescribed
        rw [if_neg hindex]
        exact ⟨hnodup, hdescribed⟩
    obtain ⟨next, hnext⟩ := ih (h.place hplaced) hapart hrest.1 hrest.2
    exact ⟨next, placeAll_cons_eq_ok_iff.mpr ⟨hnew, placed, hplaced, hnext⟩⟩

/-- Pages that are all placed are arranged by their directories, and each directory is described once. -/
theorem arranged_of_placeAll {title : String} {sources : List SourcePage}
    (hok : (new title).placeAll [] sources = .ok tree) :
    tree.Arranged (HasFolder sources) (directoryLayout sources) ∧ ((indexPages sources).map SourcePage.id).Nodup := by
  obtain ⟨harranged, hindex, -⟩ := (arranged_new title).placeAll hok
  rw [List.nil_append] at harranged
  exact ⟨harranged, hindex⟩

end PageTree

end SchemaDocs
