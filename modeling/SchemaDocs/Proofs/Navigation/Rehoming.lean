import SchemaDocs.Proofs.Navigation.Placement

/-!
# Moving pages to the folders that they declare

Once all pages are placed, nodes are told apart by origin and identity, and moving pages does not
change that. So a page and the folder that it declares are found by their identities, and each move
leads from one layout to the next. A move is refused exactly if the layout that it leads to is not
sound.
-/

namespace SchemaDocs.PageTree

variable {tree next : PageTree} {index : Nat} {isFolder : List String → Prop} {stands before after : List Stand}
  {source : SourcePage} {sources rest moved : List SourcePage} {way : List String}

/-- All nodes but the root are told apart by origin and identity. -/
def IdsDiffer (tree : PageTree) : Prop :=
  ∀ left < tree.size, ∀ right < tree.size, left ≠ root → right ≠ root →
    (tree.node left).origin = (tree.node right).origin → (tree.node left).id = (tree.node right).id → left = right

theorem IdsDiffer.of_entries (h : tree.IdsDiffer) (hsize : next.size = tree.size)
    (hentries : ∀ index, (next.node index).toNavEntry = (tree.node index).toNavEntry) : next.IdsDiffer := by
  intro left hleft right hright hleftRoot hrightRoot horigin hid
  rw [hentries, hentries] at horigin hid
  exact h left (hsize ▸ hleft) right (hsize ▸ hright) hleftRoot hrightRoot horigin hid

/-- Where pages stand in their directories, the identity of a node is the path that leads to it. -/
theorem Arranged.idsDiffer (h : tree.Arranged (HasFolder sources) (directoryLayout sources))
    (hsources : ∀ source ∈ sources, source.IsNamed) : tree.IdsDiffer := by
  have hpath {index : Nat} (hindex : index < tree.size) (hroot : index ≠ root) :
      ∃ way parent, tree.Reaches way parent ∧ (tree.node index).parent = some parent ∧
        (tree.node index).id = String.intercalate "/" (way ++ [(tree.node index).name]) ∧
        ∀ name ∈ way ++ [(tree.node index).name], IsEntryName name := by
    obtain ⟨way, parent, hway, hparent, ⟨hkind, hfolder⟩ | ⟨-, stand, hstand, hholds, hstandWay⟩⟩ :=
      h.exists_way hindex hroot
    · exact ⟨way, parent, hway, hparent, h.ids _ _ (.folder hway hparent hkind), hfolder.names hsources⟩
    · obtain ⟨source, hsource, rfl⟩ := List.mem_map.mp hstand
      obtain ⟨hsource, hlisted⟩ := List.mem_filter.mp hsource
      have hnamed := hsources source hsource
      have hwhole : way ++ [(tree.node index).name] = source.segments := by
        rw [← hstandWay, hholds.entry, hnamed.segments_eq]
        rfl
      refine ⟨way, parent, hway, hparent, ?_, hwhole ▸ hnamed.names⟩
      rw [hwhole, hnamed.segments_eq, ← hnamed.id_of_isListed hlisted, hholds.entry]
      rfl
  intro left hleft right hright hleftRoot hrightRoot _ hid
  obtain ⟨leftWay, leftParent, hleftWay, hleftParent, hleftId, hleftNames⟩ := hpath hleft hleftRoot
  obtain ⟨rightWay, rightParent, hrightWay, hrightParent, hrightId, hrightNames⟩ := hpath hright hrightRoot
  have hsame := way_unique hleftNames hrightNames (hleftId.symm.trans (hid.trans hrightId))
  obtain ⟨rfl, hname⟩ := List.append_inj' hsame rfl
  exact h.eq_of_place hleftWay hleftParent hrightWay hrightParent (List.cons.inj hname).1

/-! ### Finding nodes -/

private theorem find?_of_idsDiffer (hids : tree.IdsDiffer) (hroot : (tree.node root).kind = .root)
    (hindex : index < tree.size) (hne : index ≠ root) (hkind : (tree.node index).kind ≠ .root) :
    tree.find? (tree.node index).origin (tree.node index).id = some index := by
  have hnode {other : Nat} (hother : other < tree.nodes.size) : tree.nodes[other] = tree.node other := by
    rw [node_eq, Array.getElem?_eq_getElem hother, Option.getD_some]
  rw [find?, Array.findIdx?_eq_some_iff_getElem]
  refine ⟨hindex, ?_, fun other hother => ?_⟩
  · simp [hnode hindex, hkind]
  · have hsize : other < tree.nodes.size := Nat.lt_trans hother hindex
    simp only [hnode hsize, Bool.and_eq_true, decide_eq_true_eq, not_and, and_imp]
    intro horigin hid hother'
    by_cases hotherRoot : other = root
    · exact hother' (hotherRoot ▸ hroot)
    · exact absurd (hids other hsize index hindex hotherRoot hne horigin hid) (Nat.ne_of_lt hother)

theorem of_find?_eq_some {origin : Origin} {id : String} (h : tree.find? origin id = some index) :
    index < tree.size ∧ (tree.node index).origin = origin ∧ (tree.node index).id = id := by
  rw [find?, Array.findIdx?_eq_some_iff_getElem] at h
  obtain ⟨hindex, hfound, -⟩ := h
  have hnode : tree.nodes[index] = tree.node index := by
    rw [node_eq, Array.getElem?_eq_getElem hindex, Option.getD_some]
  rw [hnode, Bool.and_eq_true, Bool.and_eq_true, decide_eq_true_eq, decide_eq_true_eq] at hfound
  exact ⟨hindex, hfound.1.1, hfound.1.2⟩

namespace Arranged

private theorem find?_of_reaches (h : tree.Arranged isFolder stands) (hids : tree.IdsDiffer)
    (hway : tree.Reaches way index)
    (hroot : index ≠ root) : tree.find? .page (String.intercalate "/" way) = some index := by
  have hindex := hway.lt_size h.linked
  rw [← h.ids way index hway, ← h.origin_eq hindex]
  refine find?_of_idsDiffer hids h.root_kind hindex hroot ?_
  rcases h.kinds index hindex hroot with hkind | hkind <;> rw [hkind] <;> decide

private theorem declaredFolder? (h : tree.Arranged (HasFolder sources) stands) (hids : tree.IdsDiffer)
    (hsources : ∀ source ∈ sources, source.IsNamed) (source : SourcePage) :
    (∀ way, source.declaredWay? sources = some way →
      ∃ folder, source.page.declaredParent.bind tree.declaredFolder? = some folder ∧ tree.Reaches way folder) ∧
      (source.declaredWay? sources = none → source.page.declaredParent.bind tree.declaredFolder? = none) := by
  constructor
  · intro way hway
    obtain ⟨declared, hdeclared, hfolder, hpath⟩ := (SourcePage.declaredWay?_eq_some_iff hsources).mp hway
    obtain ⟨folder, hreach⟩ := (h.folders way).mpr hfolder
    refine ⟨folder, ?_, hreach⟩
    rw [hdeclared, Option.bind_some, PageTree.declaredFolder?, ← hpath]
    by_cases hroot : folder = root
    · subst hroot
      obtain rfl := hreach.way_eq h.linked .root
      rfl
    · have hfolder := h.isFolder_of_reaches hreach hroot
      have hne : ¬ (String.intercalate "/" way).isEmpty := by
        rw [String.isEmpty_iff]
        exact fun hempty => hfolder.1 (way_eq_nil (hfolder.names hsources) hempty)
      rw [if_neg hne, h.find?_of_reaches hids hreach hroot, Option.filter_some, if_pos]
      cases hreach with
      | root => exact absurd rfl hroot
      | folder _ _ hkind => rw [decide_eq_true_eq, hkind]
  · intro hnone
    cases hdeclared : source.page.declaredParent with
    | none => rfl
    | some declared =>
      rw [Option.bind_some, PageTree.declaredFolder?]
      have hmissing (way : List String) (hfolder : way = [] ∨ HasFolder sources way) :
          String.intercalate "/" way ≠ trimSlashes declared := by
        intro hpath
        have hsome := (SourcePage.declaredWay?_eq_some_iff hsources).mpr ⟨declared, hdeclared, hfolder, hpath⟩
        rw [hnone] at hsome
        cases hsome
      have hne : ¬ (trimSlashes declared).isEmpty := by
        rw [String.isEmpty_iff]
        exact fun hempty => hmissing [] (.inl rfl) hempty.symm
      rw [if_neg hne, Option.filter_eq_none_iff]
      intro index hindex hkind
      obtain ⟨-, -, hid⟩ := of_find?_eq_some hindex
      obtain ⟨way, hway⟩ := h.reached index (of_decide_eq_true hkind)
      exact hmissing way ((h.folders way).mp ⟨index, hway⟩) ((h.ids way index hway).symm.trans hid)

end Arranged

/-! ### One page -/

private theorem rehome_of_not_isListed (hlisted : ¬ source.isListed) : tree.rehome source = .ok tree := by
  rw [rehome, if_pos]
  rw [SourcePage.isListed] at hlisted
  cases hindex : source.isIndex <;> simp_all

namespace Arranged

private theorem exists_find? (h : tree.Arranged isFolder (before ++ ⟨source, source.directories⟩ :: after))
    (hids : tree.IdsDiffer) :
    ∃ index, tree.Holds index ⟨source, source.directories⟩ ∧ (tree.node index).kind = .page ∧
      tree.find? .page source.id = some index := by
  obtain ⟨front, index, back, hnumbers, -, hholds, -⟩ := forall₂_append_cons h.pages
  have hmem : index ∈ tree.numbersOf .page := by
    rw [hnumbers]
    exact List.mem_append_right _ List.mem_cons_self
  obtain ⟨hindex, hkind⟩ := mem_numbersOf_iff.mp hmem
  refine ⟨index, hholds, hkind, ?_⟩
  have hid : (tree.node index).id = source.id := by
    rw [hholds.entry]
    rfl
  rw [← h.origin_eq hindex, ← hid]
  exact find?_of_idsDiffer hids h.root_kind hindex (h.ne_root_of_page hkind) (by rw [hkind]; decide)

private theorem rehome_cases (h : tree.Arranged (HasFolder sources) (before ++ ⟨source, source.directories⟩ :: after))
    (hids : tree.IdsDiffer) (hsources : ∀ source ∈ sources, source.IsNamed) (hlisted : source.isListed) :
    tree.rehome source = .ok tree ∧ source.home sources = source.directories ∨
      ∃ index folder, tree.Holds index ⟨source, source.directories⟩ ∧ (tree.node index).kind = .page ∧
        tree.Reaches (source.home sources) folder ∧ tree.rehome source = tree.moveTo index folder := by
  obtain ⟨index, hholds, hkind, hfind⟩ := h.exists_find? hids
  have hmoves : ¬ (source.isIndex || !source.page.inNav) := by
    rw [SourcePage.isListed, Bool.and_eq_true, Bool.not_eq_true'] at hlisted
    simp [hlisted]
  obtain ⟨hdeclares, hnone⟩ := h.declaredFolder? hids hsources source
  rw [PageTree.rehome, if_neg hmoves, SourcePage.home]
  cases hway : source.declaredWay? sources with
  | none =>
    rw [hnone hway]
    exact .inl ⟨rfl, rfl⟩
  | some way =>
    obtain ⟨folder, hfolder, hreach⟩ := hdeclares way hway
    rw [hfolder, hfind]
    exact .inr ⟨index, folder, hholds, hkind, hreach, rfl⟩

private theorem rehome (h : tree.Arranged (HasFolder sources) (before ++ ⟨source, source.directories⟩ :: after))
    (hids : tree.IdsDiffer) (hsources : ∀ source ∈ sources, source.IsNamed) (hlisted : source.isListed)
    (hok : tree.rehome source = .ok next) :
    next.Arranged (HasFolder sources) (before ++ ⟨source, source.home sources⟩ :: after) ∧ next.IdsDiffer := by
  rcases h.rehome_cases hids hsources hlisted with ⟨hstays, hhome⟩ | ⟨index, folder, hholds, hkind, hway, hmoves⟩
  · rw [hstays] at hok
    obtain rfl := Except.ok.inj hok
    rw [hhome]
    exact ⟨h, hids⟩
  · rw [hmoves] at hok
    obtain ⟨parent, hparent, hbelow⟩ := hholds.below
    obtain ⟨-, -, ⟨hsame, rfl⟩ | ⟨hdiffers, hmoved⟩⟩ := moves_of_moveTo (lt_size_of_parent hparent) (hway.lt_size h.linked)
      (fun _ => h.linked.parent_lt) hok
    · obtain rfl := Option.some.inj (hparent.symm.trans hsame)
      rw [← hbelow.way_eq h.linked hway]
      exact ⟨h, hids⟩
    · exact ⟨h.of_moves hholds hkind hway hdiffers hmoved, hids.of_entries hmoved.size hmoved.entries⟩

private theorem exists_rehome (h : tree.Arranged (HasFolder sources) (before ++ ⟨source, source.directories⟩ :: after))
    (hids : tree.IdsDiffer) (hsources : ∀ source ∈ sources, source.IsNamed) (hlisted : source.isListed)
    (hapart : Apart (HasFolder sources) (before ++ ⟨source, source.home sources⟩ :: after)) :
    ∃ next, tree.rehome source = .ok next := by
  rcases h.rehome_cases hids hsources hlisted with ⟨hstays, -⟩ | ⟨index, folder, hholds, hkind, hway, hmoves⟩
  · exact ⟨tree, hstays⟩
  · obtain ⟨parent, hparent, hbelow⟩ := hholds.below
    have hallowed : ¬ (index = root || tree.isAncestor index folder) := by
      rw [Bool.or_eq_true, decide_eq_true_eq, h.linked.isAncestor_iff (hway.lt_size h.linked), not_or]
      exact ⟨h.ne_root_of_page hkind, h.not_atOrAbove_of_page hkind hway⟩
    rw [hmoves, moveTo_eq, if_neg hallowed]
    split
    · exact ⟨tree, rfl⟩
    · rename_i hdiffers
      have hname : (tree.node index).name = source.name := by
        rw [hholds.entry]
        rfl
      have hvacant : tree.collision? folder (tree.node index).origin (tree.node index).name = none := by
        by_contra hcollision
        rw [hname] at hcollision
        rcases h.collision?_cases hway hcollision with hfolder | ⟨stand, hstand, hplace⟩
        · exact hapart.folders ⟨source, source.home sources⟩ (by simp) hfolder
        · have hpages := hapart.pages
          rw [List.map_append, List.map_cons, List.nodup_middle, List.nodup_cons, ← List.map_append] at hpages
          rw [List.mem_append, List.mem_cons, or_left_comm, ← List.mem_append] at hstand
          rcases hstand with rfl | hstand
          -- the page itself stands in its directories, which do not lead to this folder
          · obtain ⟨hways, -⟩ := List.append_inj' hplace rfl
            have hsame : parent = folder := hbelow.unique h.linked h.differ (hways ▸ hway)
            exact hdiffers (hsame ▸ hparent)
          · have hsame : stand.place = (Stand.mk source (source.home sources)).place := hplace
            exact hpages.1 (hsame ▸ List.mem_map_of_mem hstand)
      rw [hvacant]
      exact ⟨_, rfl⟩

end Arranged

/-! ### All pages -/

private theorem listedPages_cons_of_isListed (hlisted : source.isListed) :
    listedPages (source :: rest) = source :: listedPages rest := List.filter_cons_of_pos hlisted

private theorem listedPages_cons_of_not_isListed (hlisted : ¬ source.isListed) :
    listedPages (source :: rest) = listedPages rest := List.filter_cons_of_neg hlisted

theorem standing_append_singleton (sources moved waiting : List SourcePage) (source : SourcePage) :
    standing sources (moved ++ [source]) waiting =
      (moved.map fun source => ⟨source, source.home sources⟩) ++ ⟨source, source.home sources⟩ ::
        waiting.map fun source => ⟨source, source.directories⟩ := by
  simp [standing]

/-- Pages that are taken home in turn lead from layout to layout, each of which is sound. -/
theorem Arranged.rehomeAll (hsources : ∀ source ∈ sources, source.IsNamed)
    (h : tree.Arranged (HasFolder sources) (standing sources moved (listedPages rest))) (hids : tree.IdsDiffer)
    (hok : rest.foldlM PageTree.rehome tree = .ok next) :
    next.Arranged (HasFolder sources) (standing sources (moved ++ listedPages rest) []) ∧ next.IdsDiffer ∧
      ∀ more waiting, more ++ waiting = listedPages rest →
        Apart (HasFolder sources) (standing sources (moved ++ more) waiting) := by
  induction rest generalizing tree moved with
  | nil =>
    obtain rfl := Except.ok.inj hok
    rw [listedPages, List.filter_nil, List.append_nil]
    refine ⟨h, hids, fun more waiting hsplit => ?_⟩
    obtain ⟨rfl, rfl⟩ := List.append_eq_nil_iff.mp hsplit
    rw [List.append_nil]
    exact h.apart
  | cons source rest ih =>
    rw [List.foldlM_cons] at hok
    obtain ⟨grown, hgrown, hok⟩ := bind_eq_ok_iff.mp hok
    by_cases hlisted : source.isListed
    · rw [listedPages_cons_of_isListed hlisted] at h ⊢
      obtain ⟨harranged, hgrownIds⟩ := Arranged.rehome h hids hsources hlisted hgrown
      rw [← standing_append_singleton] at harranged
      obtain ⟨hfinal, hfinalIds, hall⟩ := ih harranged hgrownIds hok
      rw [List.append_cons]
      refine ⟨hfinal, hfinalIds, fun more waiting hsplit => ?_⟩
      cases more with
      | nil =>
        rw [List.append_nil, ← List.nil_append waiting, hsplit]
        exact h.apart
      | cons first more =>
        obtain ⟨rfl, hmore⟩ := List.cons.inj hsplit
        rw [List.append_cons]
        exact hall more waiting hmore
    · rw [listedPages_cons_of_not_isListed hlisted] at h ⊢
      rw [rehome_of_not_isListed hlisted] at hgrown
      obtain rfl := Except.ok.inj hgrown
      exact ih h hids hok

/-- Pages can be taken home in turn where each layout on the way is sound. -/
theorem Arranged.exists_rehomeAll (hsources : ∀ source ∈ sources, source.IsNamed)
    (h : tree.Arranged (HasFolder sources) (standing sources moved (listedPages rest))) (hids : tree.IdsDiffer)
    (hapart : ∀ more waiting, more ++ waiting = listedPages rest →
      Apart (HasFolder sources) (standing sources (moved ++ more) waiting)) :
    ∃ next, rest.foldlM PageTree.rehome tree = .ok next := by
  induction rest generalizing tree moved with
  | nil => exact ⟨tree, rfl⟩
  | cons source rest ih =>
    rw [List.foldlM_cons]
    by_cases hlisted : source.isListed
    · rw [listedPages_cons_of_isListed hlisted] at h hapart
      have hnext := hapart [source] (listedPages rest) rfl
      obtain ⟨grown, hgrown⟩ :=
        Arranged.exists_rehome h hids hsources hlisted (standing_append_singleton sources moved _ source ▸ hnext)
      obtain ⟨harranged, hgrownIds⟩ := Arranged.rehome h hids hsources hlisted hgrown
      rw [← standing_append_singleton] at harranged
      obtain ⟨next, hnext⟩ := ih harranged hgrownIds fun more waiting hsplit => by
        rw [← List.append_cons]
        exact hapart (source :: more) waiting (by rw [List.cons_append, hsplit])
      exact ⟨next, bind_eq_ok_iff.mpr ⟨grown, hgrown, hnext⟩⟩
    · rw [listedPages_cons_of_not_isListed hlisted] at h hapart
      obtain ⟨next, hnext⟩ := ih h hids hapart
      exact ⟨next, bind_eq_ok_iff.mpr ⟨tree, rehome_of_not_isListed hlisted, hnext⟩⟩

/-! ### All pages at home -/

variable {title : String} {registry : Registry} {placed : PageTree}

/-- A merged tree is made in four steps, of which only the sorting cannot be refused. -/
theorem merge_eq_ok_iff :
    merge title sources registry = .ok tree ↔
      ∃ placed rehomed merged, (new title).placeAll [] sources = .ok placed ∧
        sources.foldlM PageTree.rehome placed = .ok rehomed ∧ rehomed.addReference registry = .ok merged ∧
        tree = merged.sort := by
  constructor
  · intro hok
    obtain ⟨placed, hplaced, hok⟩ := bind_eq_ok_iff.mp hok
    obtain ⟨rehomed, hrehomed, hok⟩ := bind_eq_ok_iff.mp hok
    obtain ⟨merged, hmerged, hok⟩ := bind_eq_ok_iff.mp hok
    exact ⟨placed, rehomed, merged, hplaced, hrehomed, hmerged, (Except.ok.inj hok).symm⟩
  · rintro ⟨placed, rehomed, merged, hplaced, hrehomed, hmerged, rfl⟩
    exact bind_eq_ok_iff.mpr ⟨placed, hplaced, bind_eq_ok_iff.mpr ⟨rehomed, hrehomed,
      bind_eq_ok_iff.mpr ⟨merged, hmerged, rfl⟩⟩⟩

/-- Pages that are placed and then all taken home stand where they are to stand, and each layout on the
way was sound. -/
theorem arranged_of_rehomeAll (hsources : ∀ source ∈ sources, source.IsNamed)
    (hplaced : (new title).placeAll [] sources = .ok placed) (hok : sources.foldlM PageTree.rehome placed = .ok tree) :
    tree.Arranged (HasFolder sources) (finalLayout sources) ∧ tree.IdsDiffer ∧
      ∀ moved waiting, moved ++ waiting = listedPages sources → Apart (HasFolder sources) (standing sources moved waiting) := by
  obtain ⟨hdirectories, -⟩ := arranged_of_placeAll hplaced
  exact Arranged.rehomeAll hsources hdirectories (hdirectories.idsDiffer hsources) hok

end SchemaDocs.PageTree
