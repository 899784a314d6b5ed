import Mathlib.Data.List.Sort
import SchemaDocs.Proofs.Navigation.Collisions
import SchemaDocs.Proofs.Navigation.Folders
import SchemaDocs.Proofs.Navigation.Subtrees

/-!
# Pages in another order

The order in which pages are found decides how the nodes of a tree are numbered, which page a folder is
made for and when a page is taken home. In the end none of this is seen. Where a page stands and what a
folder shows depends on which pages there are, so two trees of the same pages have the same folders and
pages, each below the same folder; and since siblings are told apart by their identities, there is only
one order that they can be shown in.
-/

namespace SchemaDocs

variable {title : String} {sources others : List SourcePage} {source : SourcePage} {way : List String}

/-! ### What pages say in any order -/

theorem hasFolder_iff_of_perm (hperm : others.Perm sources) : HasFolder others way ↔ HasFolder sources way :=
  ⟨fun h => h.mono hperm.subset, fun h => h.mono hperm.symm.subset⟩

theorem SourcePage.isNamed_of_perm (hperm : others.Perm sources) (hsources : ∀ source ∈ sources, source.IsNamed) :
    ∀ source ∈ others, source.IsNamed :=
  fun source hsource => hsources source (hperm.mem_iff.mp hsource)

theorem SourcePage.home_of_perm (hperm : others.Perm sources) (hsources : ∀ source ∈ sources, source.IsNamed)
    (source : SourcePage) : source.home others = source.home sources := by
  have hways : source.declaredWay? others = source.declaredWay? sources := by
    refine Option.ext fun way => ?_
    rw [declaredWay?_eq_some_iff (isNamed_of_perm hperm hsources), declaredWay?_eq_some_iff hsources]
    simp only [hasFolder_iff_of_perm hperm]
  rw [home, home, hways]

theorem finalLayout_perm (hperm : others.Perm sources) (hsources : ∀ source ∈ sources, source.IsNamed) :
    (finalLayout others).Perm (finalLayout sources) := by
  simp only [finalLayout, standing, List.map_nil, List.append_nil, SourcePage.home_of_perm hperm hsources]
  exact (hperm.filter _).map _

theorem describing?_of_perm (hperm : others.Perm sources)
    (hnodup : ((indexPages sources).map SourcePage.directories).Nodup) (way : List String) : describing? others way = describing? sources way := by
  have hindex : (indexPages others).Perm (indexPages sources) := hperm.filter _
  have hothers : ((indexPages others).map SourcePage.directories).Nodup := (hindex.map _).nodup_iff.mpr hnodup
  refine Option.ext fun source => ?_
  rw [describing?_eq_some_iff hothers, describing?_eq_some_iff hnodup, hindex.mem_iff]

/-! ### Siblings in a strict order -/

private theorem NavEntry.id_eq_of_compareSiblings {a b : NavEntry} (h : compareSiblings a b = .eq) : a.id = b.id := by
  rw [compareSiblings, Ordering.then_eq_eq, Ordering.then_eq_eq] at h
  exact Std.LawfulEqCmp.eq_of_compare h.2.2

/-- A view stands before another and not behind it. -/
def TreeView.Precedes (left right : TreeView) : Prop := NavEntry.compareSiblings left.entry right.entry = .lt

namespace TreeView

instance : Std.Irrefl Precedes where
  irrefl view h := by
    have hsame : NavEntry.compareSiblings view.entry view.entry = .eq := Std.ReflCmp.compare_self
    rw [Precedes, hsame] at h
    cases h

instance : Std.Antisymm Precedes where
  antisymm left right h hback := by
    have hswap : NavEntry.compareSiblings left.entry right.entry =
        (NavEntry.compareSiblings right.entry left.entry).swap := Std.OrientedCmp.eq_swap
    rw [Precedes, hswap, hback] at h
    cases h

private theorem precedes_of_mayPrecede {left right : TreeView} (h : left.mayPrecede right)
    (hne : left.entry.id ≠ right.entry.id) : left.Precedes right := by
  rw [mayPrecede, decide_eq_true_eq] at h
  rw [Precedes]
  cases hcompare : NavEntry.compareSiblings left.entry right.entry with
  | lt => rfl
  | eq => exact absurd (NavEntry.id_eq_of_compareSiblings hcompare) hne
  | gt => exact absurd hcompare h

end TreeView

namespace PageTree

variable {tree left right pages : PageTree} {index other fuel : Nat}

/-- A tree of pages that all are home, with folders that show what describes them. -/
structure Settled (title : String) (sources : List SourcePage) (tree : PageTree) : Prop where
  named : ∀ source ∈ sources, source.IsNamed
  described : ((indexPages sources).map SourcePage.directories).Nodup
  arranged : tree.Arranged (HasFolder sources) (finalLayout sources)
  ids : tree.IdsDiffer
  shows : tree.ShowsFolders title sources

/-- The pages are seen as a settled tree is, once it is sorted. -/
theorem settled_of_arrange (hsources : ∀ source ∈ sources, source.IsNamed) (hok : arrange title sources = .ok pages) :
    ∃ rehomed : PageTree, rehomed.Settled title sources ∧ pages.view = rehomed.view.sorted := by
  obtain ⟨placed, hplaced, hok⟩ := bind_eq_ok_iff.mp hok
  obtain ⟨rehomed, hrehomed, hok⟩ := bind_eq_ok_iff.mp hok
  obtain rfl := Except.ok.inj hok
  obtain ⟨hdirectories, hindex⟩ := arranged_of_placeAll hplaced
  rw [nodup_indexPages_iff hsources] at hindex
  have hshows : placed.ShowsFolders title sources :=
    (ShowsFolders.new title).placeAll (arranged_new title) hindex hplaced
  obtain ⟨hfinal, hids, -⟩ := arranged_of_rehomeAll hsources hplaced hrehomed
  obtain ⟨-, hkept⟩ := hdirectories.linked.rehomeAll hrehomed
  exact ⟨rehomed, ⟨hsources, hindex, hfinal, hids, hshows.of_entries hdirectories hfinal hsources hkept⟩,
    view_sort rehomed⟩

/-! ### One node in two trees -/

/-- Nodes of two trees are one folder, or one page that stands in one folder. -/
inductive Matches (left right : PageTree) (index other : Nat) : Prop where
  | folder {way : List String} (hleft : left.Reaches way index) (hright : right.Reaches way other)
  | page {stand : Stand} (hleft : left.Holds index stand) (hright : right.Holds other stand)

theorem Matches.symm (h : left.Matches right index other) : right.Matches left other index := by
  cases h with
  | folder hleft hright => exact .folder hright hleft
  | page hleft hright => exact .page hright hleft

namespace Settled

private theorem entry_eq_of_matches (hleft : left.Settled title sources) (hright : right.Settled title others)
    (hperm : others.Perm sources) (h : left.Matches right index other) :
    (left.node index).toNavEntry = (right.node other).toNavEntry := by
  cases h with
  | folder hindex hother =>
    rw [hleft.shows _ _ hindex, hright.shows _ _ hother, folderShown, folderShown,
      describing?_of_perm hperm hleft.described]
  | page hindex hother => rw [hindex.entry, hother.entry]

private theorem exists_child_of_matches (hleft : left.Settled title sources) (hright : right.Settled title others)
    (hperm : others.Perm sources) (h : left.Matches right index other) {child : Nat}
    (hchild : child ∈ (left.node index).children) :
    ∃ partner ∈ (right.node other).children, left.Matches right child partner := by
  have hlinked := hleft.arranged.linked
  have hparent := (hlinked.mem_children_iff index child).mp hchild
  obtain ⟨passed, upper, hupper, hupperParent, hcases⟩ :=
    hleft.arranged.exists_way (lt_size_of_parent hparent) (hlinked.ne_root_of_child hchild)
  obtain rfl := Option.some.inj (hparent.symm.trans hupperParent)
  cases h with
  | page hindex _ =>
    have hkind := congrArg NavEntry.kind hindex.entry
    exact absurd .self (hleft.arranged.not_atOrAbove_of_page hkind hupper)
  | @folder way hindex hother =>
    obtain rfl := hindex.way_eq hlinked hupper
    have hbelow {above partner : Nat} (habove : right.Reaches way above)
        (hpartner : (right.node partner).parent = some above) : partner ∈ (right.node other).children := by
      obtain rfl := hother.unique hright.arranged.linked hright.arranged.differ habove
      exact (hright.arranged.linked.mem_children_iff _ _).mpr hpartner
    rcases hcases with ⟨hkind, hfolder⟩ | ⟨-, stand, hstand, hholds, rfl⟩
    · obtain ⟨partner, hpartner⟩ := (hright.arranged.folders _).mpr (.inr ((hasFolder_iff_of_perm hperm).mpr hfolder))
      obtain ⟨above, habove, hpartnerParent, -, -⟩ := hpartner.exists_parent
      exact ⟨partner, hbelow habove hpartnerParent, .folder (.folder hindex hparent hkind) hpartner⟩
    · obtain ⟨partner, -, hpartner⟩ := (exists_of_mem_forall₂ hright.arranged.pages).1 stand
        ((finalLayout_perm hperm hleft.named).mem_iff.mpr hstand)
      obtain ⟨above, hpartnerParent, habove⟩ := hpartner.below
      exact ⟨partner, hbelow habove hpartnerParent, .page hholds hpartner⟩

/-! ### What is seen of two trees -/

private theorem pairwise_precedes (h : tree.Settled title sources) {shown : Nat → TreeView}
    (hshown : ∀ child, (shown child).entry = (tree.node child).toNavEntry) :
    (((tree.node index).children.map shown).mergeSort TreeView.mayPrecede).Pairwise TreeView.Precedes := by
  have hlinked := h.arranged.linked
  have hdiffer : ((tree.node index).children.map shown).Pairwise fun left right => left.entry.id ≠ right.entry.id := by
    rw [List.pairwise_map]
    refine (hlinked.nodup_children index).imp_of_mem fun {left right} hleft hright hne hid => hne ?_
    rw [hshown, hshown] at hid
    refine h.ids left (hlinked.child_lt hleft) right (hlinked.child_lt hright) (hlinked.ne_root_of_child hleft)
      (hlinked.ne_root_of_child hright) ?_ hid
    rw [h.arranged.origin_eq (hlinked.child_lt hleft), h.arranged.origin_eq (hlinked.child_lt hright)]
  have hsorted := List.pairwise_mergeSort TreeView.mayPrecede_trans TreeView.mayPrecede_total
    ((tree.node index).children.map shown)
  have hsortedDiffer := ((List.mergeSort_perm _ TreeView.mayPrecede).pairwise_iff Ne.symm).mpr hdiffer
  exact (hsorted.and hsortedDiffer).imp fun hboth => TreeView.precedes_of_mayPrecede hboth.1 hboth.2

/-- Nodes that match are seen alike, with all that is below them. -/
theorem sorted_viewBelow_of_matches (hleft : left.Settled title sources) (hright : right.Settled title others)
    (hperm : others.Perm sources) (h : left.Matches right index other) :
    (left.viewBelow fuel index).sorted = (right.viewBelow fuel other).sorted := by
  induction fuel generalizing index other with
  | zero => rw [viewBelow, viewBelow, hleft.entry_eq_of_matches hright hperm h]
  | succ fuel ih =>
    rw [viewBelow, viewBelow, TreeView.sorted, TreeView.sorted, hleft.entry_eq_of_matches hright hperm h,
      TreeView.sortedEach_eq, TreeView.sortedEach_eq, List.map_map, List.map_map]
    congr 1
    -- siblings in strict order are known by which they are
    refine List.Pairwise.eq_of_mem_iff (hleft.pairwise_precedes fun child => ?_)
      (hright.pairwise_precedes fun child => ?_) fun view => ?_
    · rw [Function.comp_apply, TreeView.entry_sorted, entry_viewBelow]
    · rw [Function.comp_apply, TreeView.entry_sorted, entry_viewBelow]
    · rw [List.mem_mergeSort, List.mem_mergeSort, List.mem_map, List.mem_map]
      constructor
      · rintro ⟨child, hchild, rfl⟩
        obtain ⟨partner, hpartner, hmatches⟩ := hleft.exists_child_of_matches hright hperm h hchild
        exact ⟨partner, hpartner, (ih hmatches).symm⟩
      · rintro ⟨child, hchild, rfl⟩
        obtain ⟨partner, hpartner, hmatches⟩ := hright.exists_child_of_matches hleft hperm.symm h.symm hchild
        exact ⟨partner, hpartner, ih hmatches.symm⟩

private theorem sorted_view_of_perm (hleft : left.Settled title sources) (hright : right.Settled title others)
    (hperm : others.Perm sources) : left.view.sorted = right.view.sorted := by
  have hleftView : left.view = left.viewBelow (max left.size right.size) root :=
    hleft.arranged.linked.viewBelow_congr .root (by omega) (by omega)
  have hrightView : right.view = right.viewBelow (max left.size right.size) root :=
    hright.arranged.linked.viewBelow_congr .root (by omega) (by omega)
  rw [hleftView, hrightView]
  exact hleft.sorted_viewBelow_of_matches hright hperm (.folder .root .root)

end Settled

/-! ### Merging -/

variable {files : FileSystem} {directory : String} {schema : Schema} {registry : Registry} {merged : PageTree}

/-- Whichever order pages are merged in, what is seen of them is the same. -/
theorem view_eq_of_merge_perm (hsources : ∀ source ∈ sources, source.IsNamed) (hnamed : WellNamed registry.entries)
    (hperm : others.Perm sources) (hok : merge title sources registry = .ok tree)
    (hother : merge title others registry = .ok merged) : merged.view = tree.view := by
  have hothers := SourcePage.isNamed_of_perm hperm hsources
  obtain ⟨pages, hpages, hview, -⟩ := view_of_merge hsources hnamed hok
  obtain ⟨otherPages, hotherPages, hotherView, -⟩ := view_of_merge hothers hnamed hother
  obtain ⟨left, hleft, hleftView⟩ := settled_of_arrange hsources hpages
  obtain ⟨right, hright, hrightView⟩ := settled_of_arrange hothers hotherPages
  rw [hview, hotherView, hleftView, hrightView, hleft.sorted_view_of_perm hright hperm]

/-- The pages that are found make the same tree for readers in every order in which they can be merged. -/
theorem view_eq_of_discover_perm (hfiles : files.root.IsNamed) (hregistry : Registry.build schema = .ok registry)
    (hperm : others.Perm (Discovery.discover files directory))
    (hok : merge title (Discovery.discover files directory) registry = .ok tree)
    (hother : merge title others registry = .ok merged) : merged.view = tree.view := by
  have hsources : ∀ source ∈ Discovery.discover files directory, source.IsNamed := fun _ =>
    Discovery.isNamed_of_mem_discover hfiles
  exact view_eq_of_merge_perm hsources (wellNamed_of_build hregistry) hperm hok hother

theorem view_eq_of_discover_reverse :
    ∃ registry tree merged, Registry.build sampleSchema = .ok registry ∧
      (Discovery.discover sampleFiles "p").reverse ≠ Discovery.discover sampleFiles "p" ∧
      merge "Docs" (Discovery.discover sampleFiles "p") registry = .ok tree ∧
      merge "Docs" (Discovery.discover sampleFiles "p").reverse registry = .ok merged ∧ merged.view = tree.view := by
  have hdiffer : (Discovery.discover sampleFiles "p").reverse ≠ Discovery.discover sampleFiles "p" := by decide +kernel
  have hmerges : (merge "Docs" (Discovery.discover sampleFiles "p") (.ofEntries sampleSchema.entries)).toOption.isSome := by
    decide +kernel
  have hreverse : (merge "Docs" (Discovery.discover sampleFiles "p").reverse (.ofEntries sampleSchema.entries)).toOption.isSome := by
    decide +kernel
  obtain ⟨tree, htree⟩ := Option.isSome_iff_exists.mp hmerges
  obtain ⟨merged, hmerged⟩ := Option.isSome_iff_exists.mp hreverse
  exact ⟨_, tree, merged, sampleSchema_registered, hdiffer, eq_ok_of_toOption htree, eq_ok_of_toOption hmerged,
    view_eq_of_discover_perm sampleFiles_named sampleSchema_registered (List.reverse_perm _) (eq_ok_of_toOption htree)
      (eq_ok_of_toOption hmerged)⟩

end PageTree

end SchemaDocs
