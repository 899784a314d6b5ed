import SchemaDocs.Proofs.Navigation.Canonical

/-!
# Sorted trees

Sorting a tree puts the children of each node in order and changes nothing else. The order is that of what
siblings show, said here key by key; children that are alike keep their places, and a tree that is sorted
stays as it is. In a merged tree no two siblings are alike unless pages of one identity are. The reference is
the last child of the root, with its groups in the order of kinds and the leaves of each in that of their names.
-/

namespace SchemaDocs

namespace NavEntry

variable {a b : NavEntry}

/-! ### The order of siblings -/

/-- An entry comes before another among siblings. Pages come before the reference; among either, a declared
order comes before none and a lesser one before a greater, and where the orders are the same, the bytes of the
identities decide. -/
inductive ComesBefore (a b : NavEntry) : Prop where
  | authored (ha : a.origin = .page) (hb : b.origin = .reference)
  | declared {order : Int} (horigin : a.origin = b.origin) (ha : a.order = some order) (hb : b.order = none)
  | order {first second : Int} (horigin : a.origin = b.origin) (ha : a.order = some first) (hb : b.order = some second)
    (hlt : first < second)
  | id (horigin : a.origin = b.origin) (horder : a.order = b.order) (hid : Text.bytes a.id < Text.bytes b.id)

theorem compareOrder_eq_eq_iff {left right : Option Int} : compareOrder left right = .eq ↔ left = right := by
  cases left with
  | none => cases right <;> simp [compareOrder]
  | some left => cases right <;> simp [compareOrder]

theorem compareOrder_eq_lt_iff {left right : Option Int} :
    compareOrder left right = .lt ↔
      (∃ order, left = some order ∧ right = none) ∨
        ∃ first second, left = some first ∧ right = some second ∧ first < second := by
  cases left with
  | none => cases right <;> simp [compareOrder]
  | some left => cases right <;> simp [compareOrder, Int.compare_eq_lt]

theorem compare_rank_eq_lt_iff {left right : Origin} :
    compare left.rank right.rank = .lt ↔ left = .page ∧ right = .reference := by
  cases left <;> cases right <;> decide

theorem compare_rank_eq_eq_iff {left right : Origin} : compare left.rank right.rank = .eq ↔ left = right := by
  cases left <;> cases right <;> decide

theorem compareSiblings_eq_lt_iff : compareSiblings a b = .lt ↔ a.ComesBefore b := by
  rw [compareSiblings, Ordering.then_eq_lt, Ordering.then_eq_lt, compare_rank_eq_lt_iff, compare_rank_eq_eq_iff,
    compareOrder_eq_lt_iff, compareOrder_eq_eq_iff, compare_lt_iff_lt, ← Text.bytes_lt_iff]
  constructor
  · rintro (⟨ha, hb⟩ | ⟨horigin, (⟨order, ha, hb⟩ | ⟨first, second, ha, hb, hlt⟩) | ⟨horder, hid⟩⟩)
    · exact .authored ha hb
    · exact .declared horigin ha hb
    · exact .order horigin ha hb hlt
    · exact .id horigin horder hid
  · intro h
    cases h with
    | authored ha hb => exact .inl ⟨ha, hb⟩
    | declared horigin ha hb => exact .inr ⟨horigin, .inl (.inl ⟨_, ha, hb⟩)⟩
    | order horigin ha hb hlt => exact .inr ⟨horigin, .inl (.inr ⟨_, _, ha, hb, hlt⟩)⟩
    | id horigin horder hid => exact .inr ⟨horigin, .inr ⟨horder, hid⟩⟩

private theorem compareSiblings_swap (a b : NavEntry) :
    compareSiblings b a = (compareSiblings a b).swap := Std.OrientedCmp.eq_swap

theorem compareSiblings_eq_eq_iff :
    compareSiblings a b = .eq ↔ a.origin = b.origin ∧ a.order = b.order ∧ a.id = b.id := by
  rw [compareSiblings, Ordering.then_eq_eq, Ordering.then_eq_eq, compare_rank_eq_eq_iff, compareOrder_eq_eq_iff,
    compare_eq_iff_eq]

end NavEntry

namespace PageTree

variable {base tree merged : PageTree} {a b c index group reference : Nat} {kind : Kind} {position : Nat × Kind}
  {registry : Registry}

/-! ### Sorting any tree -/

theorem mayPrecede_trans (tree : PageTree) (a b c : Nat) :
    tree.mayPrecede a b → tree.mayPrecede b c → tree.mayPrecede a c :=
  TreeView.mayPrecede_trans (tree.viewBelow 0 a) (tree.viewBelow 0 b) (tree.viewBelow 0 c)

theorem mayPrecede_total (tree : PageTree) (a b : Nat) : tree.mayPrecede a b || tree.mayPrecede b a :=
  TreeView.mayPrecede_total (tree.viewBelow 0 a) (tree.viewBelow 0 b)

private theorem mayPrecede_iff : tree.mayPrecede a b ↔ ¬ (tree.node b).ComesBefore (tree.node a).toNavEntry := by
  rw [mayPrecede, decide_eq_true_eq, ← NavEntry.compareSiblings_eq_lt_iff, NavEntry.compareSiblings_swap (tree.node a).toNavEntry,
    Ordering.swap_eq_lt]

def areAlike (tree : PageTree) (a b : Nat) : Bool :=
  (tree.node a).origin = (tree.node b).origin && (tree.node a).order = (tree.node b).order && (tree.node a).id = (tree.node b).id

theorem areAlike_iff :
    tree.areAlike a b ↔ NavEntry.compareSiblings (tree.node a).toNavEntry (tree.node b).toNavEntry = .eq := by
  rw [NavEntry.compareSiblings_eq_eq_iff, areAlike, Bool.and_eq_true, Bool.and_eq_true, decide_eq_true_eq, decide_eq_true_eq,
    decide_eq_true_eq, and_assoc]

private theorem mayPrecede_of_areAlike (ha : tree.areAlike c a) (hb : tree.areAlike c b) : tree.mayPrecede a b := by
  rw [areAlike_iff, NavEntry.compareSiblings_eq_eq_iff] at ha hb
  obtain ⟨horigin, horder, hid⟩ := ha
  rw [horigin, horder, hid, ← NavEntry.compareSiblings_eq_eq_iff] at hb
  rw [mayPrecede, hb]
  rfl

private theorem comesBefore_or_areAlike (hnot : ¬ (tree.node b).ComesBefore (tree.node a).toNavEntry) :
    (tree.node a).ComesBefore (tree.node b).toNavEntry ∨ tree.areAlike a b := by
  have hmay := mayPrecede_iff.mpr hnot
  rw [mayPrecede, decide_eq_true_eq] at hmay
  rw [areAlike_iff, ← NavEntry.compareSiblings_eq_lt_iff]
  cases hcompare : NavEntry.compareSiblings (tree.node a).toNavEntry (tree.node b).toNavEntry with
  | lt => exact .inl rfl
  | eq => exact .inr rfl
  | gt => exact absurd hcompare hmay

/-- A tree has become another one with the children of each node in order, and nothing else has changed. -/
structure Orders (tree next : PageTree) : Prop where
  same : tree.SameNodes next
  perm : ∀ index, (next.node index).children.Perm (tree.node index).children
  ordered : ∀ index, (next.node index).children.Pairwise fun left right =>
    ¬ (tree.node right).ComesBefore (tree.node left).toNavEntry
  /-- Children that are alike keep their places among each other. -/
  stable : ∀ index child, (next.node index).children.filter (tree.areAlike child) =
    (tree.node index).children.filter (tree.areAlike child)

private theorem filter_mergeSort (tree : PageTree) (child : Nat) (items : List Nat) :
    (items.mergeSort tree.mayPrecede).filter (tree.areAlike child) = items.filter (tree.areAlike child) := by
  have hpairs : (items.filter (tree.areAlike child)).Pairwise fun a b => tree.mayPrecede a b := by
    refine List.pairwise_of_forall_mem_list fun a ha b hb => ?_
    exact mayPrecede_of_areAlike (List.mem_filter.mp ha).2 (List.mem_filter.mp hb).2
  have hsublist := List.sublist_mergeSort tree.mayPrecede_trans tree.mayPrecede_total hpairs List.filter_sublist
  have hkept := hsublist.filter (tree.areAlike child)
  rw [List.filter_filter] at hkept
  simp only [Bool.and_self] at hkept
  exact (hkept.eq_of_length ((List.mergeSort_perm items _).filter _).length_eq.symm).symm

private theorem orders_sort (tree : PageTree) : tree.Orders tree.sort where
  same := .of_sort tree
  perm index := by
    rw [node_sort]
    exact List.mergeSort_perm _ _
  ordered index := by
    rw [node_sort]
    exact (List.pairwise_mergeSort tree.mayPrecede_trans tree.mayPrecede_total _).imp mayPrecede_iff.mp
  stable index child := by
    rw [node_sort]
    exact filter_mergeSort tree child _

private theorem mayPrecede_sort (tree : PageTree) : tree.sort.mayPrecede = tree.mayPrecede := by
  funext a b
  rw [mayPrecede, mayPrecede, node_sort, node_sort]

private theorem sort_eq_self (h : ∀ index, (tree.node index).children.Pairwise fun a b => tree.mayPrecede a b) :
    tree.sort = tree := by
  have hnodes : tree.sort.nodes = tree.nodes := by
    refine Array.ext (size_sort tree) fun index hsorted hindex => ?_
    have hnode : tree.node index = tree.nodes[index] := by
      rw [node_eq, Array.getElem?_eq_getElem hindex, Option.getD_some]
    simp only [sort, Array.getElem_map]
    rw [← hnode, List.mergeSort_of_pairwise (h index)]
  exact congrArg PageTree.mk hnodes

private theorem sort_sort (tree : PageTree) : tree.sort.sort = tree.sort := by
  refine sort_eq_self fun index => ?_
  rw [node_sort, mayPrecede_sort]
  exact List.pairwise_mergeSort tree.mayPrecede_trans tree.mayPrecede_total _

/-- Where siblings have identities of their own, each comes before those behind it once they are sorted. -/
theorem pairwise_comesBefore (htree : tree.Linked) (hids : tree.IdsDiffer) (index : Nat) :
    (tree.sort.node index).children.Pairwise fun left right =>
      (tree.node left).ComesBefore (tree.node right).toNavEntry := by
  obtain ⟨-, hperm, hordered, -⟩ := orders_sort tree
  have hnodup := (hperm index).nodup_iff.mpr (htree.nodup_children index)
  refine ((hordered index).and hnodup).imp_of_mem fun {left right} hleft hright ⟨hnot, hne⟩ => ?_
  rw [(hperm index).mem_iff] at hleft hright
  refine (comesBefore_or_areAlike hnot).resolve_right fun halike => hne ?_
  obtain ⟨horigin, -, hid⟩ := NavEntry.compareSiblings_eq_eq_iff.mp (areAlike_iff.mp halike)
  exact hids left (htree.child_lt hleft) right (htree.child_lt hright) (htree.ne_root_of_child hleft)
    (htree.ne_root_of_child hright) horigin hid

/-! ### The merged tree -/

variable {title : String} {sources : List SourcePage}

private theorem exists_of_merge (hok : merge title sources registry = .ok tree) :
    ∃ pages merged : PageTree, pages.Linked ∧ (∀ index, (pages.node index).origin = .page) ∧
      pages.addReference registry = .ok merged ∧ merged.sort = tree := by
  obtain ⟨placed, rehomed, merged, hplaced, hrehomed, hmerged, rfl⟩ := merge_eq_ok_iff.mp hok
  obtain ⟨harranged, -⟩ := arranged_of_placeAll hplaced
  obtain ⟨hlinked, hentries⟩ := harranged.linked.rehomeAll hrehomed
  refine ⟨rehomed, merged, hlinked, fun index => ?_, hmerged, rfl⟩
  rw [NavEntry.origin, hentries, ← NavEntry.origin]
  rcases Nat.lt_or_ge index placed.size with hlt | hge
  · exact harranged.origin_eq hlt
  · rw [node_of_size_le hge]
    rfl

/-- Siblings of a merged tree are in order, whatever its pages are called. -/
theorem comesBefore_or_areAlike_of_merge (hok : merge title sources registry = .ok tree) (index : Nat) :
    (tree.node index).children.Pairwise fun left right =>
      (tree.node left).ComesBefore (tree.node right).toNavEntry ∨ tree.areAlike left right := by
  obtain ⟨pages, merged, -, -, -, rfl⟩ := exists_of_merge hok
  obtain ⟨hsame, -, hordered, -⟩ := orders_sort merged
  refine (hordered index).imp fun {left right} hnot => ?_
  rw [areAlike_iff, hsame.entry, hsame.entry, ← areAlike_iff]
  exact comesBefore_or_areAlike hnot

private theorem pairwise_of_merge (hsources : ∀ source ∈ sources, source.IsNamed) (hnamed : WellNamed registry.entries)
    (hok : merge title sources registry = .ok tree) (index : Nat) :
    (tree.node index).children.Pairwise fun left right => (tree.node left).ComesBefore (tree.node right).toNavEntry := by
  obtain ⟨-, -, reference, hshape⟩ := merged_cases hsources hnamed hok
  obtain ⟨pages, merged, hpages, -, hmerged, rfl⟩ := exists_of_merge hok
  have hsame := SameNodes.of_sort merged
  have hids : merged.IdsDiffer := hshape.ids.of_entries hsame.size.symm fun index => (hsame.entry index).symm
  refine (pairwise_comesBefore (hpages.addReference hmerged) hids index).imp fun {left right} hbefore => ?_
  rwa [hsame.entry, hsame.entry]

/-! ### The reference in order -/

/-- A node is the group of a kind, with the leaves of its declarations below it in the order of their names. -/
structure ShowsGroupInOrder (tree : PageTree) (registry : Registry) (group : Nat) (position : Nat × Kind) : Prop where
  entry : (tree.node group).toNavEntry = groupEntry position
  leaves : ∃ entries : List Entry, entries.Perm (registry.ofKind position.2) ∧
    (entries.Pairwise fun left right => Text.bytes left.qualifiedName < Text.bytes right.qualifiedName) ∧
    List.Forall₂ (tree.ShowsLeaf position.2) (tree.node group).children entries

/-- A node is the reference, behind all that is below the root, with the groups of the kinds that have
declarations in the order of kinds. -/
structure ShowsReferenceLast (tree : PageTree) (registry : Registry) (reference : Nat) : Prop where
  last : (tree.node root).children.getLast? = some reference
  entry : (tree.node reference).toNavEntry = referenceEntry
  groups : List.Forall₂ (tree.ShowsGroupInOrder registry) (tree.node reference).children (groupsOf registry)

private theorem bytes_lt_of_leaves {left right : Entry} (hne : left.qualifiedName ≠ right.qualifiedName)
    (hnot : ¬ (leafEntry kind right).ComesBefore (leafEntry kind left)) :
    Text.bytes left.qualifiedName < Text.bytes right.qualifiedName := by
  rcases lt_trichotomy left.qualifiedName right.qualifiedName with hlt | heq | hgt
  · exact Text.bytes_lt_bytes hlt
  · exact absurd heq hne
  · have hids : Text.bytes (leafEntry kind right).id < Text.bytes (leafEntry kind left).id := by
      rw [leafEntry, leafEntry, Text.bytes_append, Text.bytes_append]
      exact List.append_left_lt (Text.bytes_lt_bytes hgt)
    exact absurd (.id rfl rfl hids) hnot

private theorem ShowsLeaf.sort {declared : Entry} (h : tree.ShowsLeaf kind index declared) :
    tree.sort.ShowsLeaf kind index declared := by
  refine ⟨by rw [size_sort]; exact h.lt, by rw [node_sort]; exact h.entry, ?_⟩
  rw [node_sort, h.children, List.mergeSort_nil]

private theorem ShowsGroup.sort (hnamed : WellNamed registry.entries) (h : tree.ShowsGroup registry group position) :
    tree.sort.ShowsGroupInOrder registry group position := by
  obtain ⟨-, hperm, hordered, -⟩ := orders_sort tree
  obtain ⟨entries, hleaves, hentries⟩ := List.perm_comp_forall₂ (hperm group) h.leaves
  refine ⟨by rw [node_sort]; exact h.entry, entries, hentries, ?_, hleaves.imp fun _ _ hleaf => hleaf.sort⟩
  have hdistinct : entries.Pairwise fun left right => left.qualifiedName ≠ right.qualifiedName := by
    refine (hentries.pairwise_iff Ne.symm).mpr ?_
    refine (hnamed.distinct.filter _).imp_of_mem fun {left right} hleft hright hclash hname => hclash ⟨?_, hname⟩
    rw [of_decide_eq_true (List.mem_filter.mp hleft).2, of_decide_eq_true (List.mem_filter.mp hright).2]
  have hsorted : entries.Pairwise fun left right =>
      ¬ (leafEntry position.2 right).ComesBefore (leafEntry position.2 left) := by
    have hshown : (tree.sort.node group).children.map (fun leaf => (tree.node leaf).toNavEntry) =
        entries.map (leafEntry position.2) := map_eq_map_of_forall₂ (fun _ _ hleaf => hleaf.entry) hleaves
    rw [← List.pairwise_map (f := leafEntry position.2) (R := fun left right => ¬ right.ComesBefore left), ← hshown,
      List.pairwise_map]
    exact hordered group
  exact (hdistinct.and hsorted).imp fun hboth => bytes_lt_of_leaves hboth.1 hboth.2

private theorem children_sort_of_groups
    (h : List.Forall₂ (tree.ShowsGroup registry) (tree.node reference).children (groupsOf registry)) :
    (tree.sort.node reference).children = (tree.node reference).children := by
  rw [node_sort]
  refine List.mergeSort_of_pairwise ?_
  have hranks : (groupsOf registry).Pairwise fun left right => left.1 < right.1 :=
    List.Pairwise.filter _ (show rankedKinds.Pairwise fun left right => left.1 < right.1 by decide)
  have hshown : (tree.node reference).children.map (fun group => (tree.node group).toNavEntry) =
      (groupsOf registry).map groupEntry := map_eq_map_of_forall₂ (fun _ _ hgroup => hgroup.entry) h
  have hpairs : ((groupsOf registry).map groupEntry).Pairwise fun left right => left.ComesBefore right :=
    List.pairwise_map.mpr (hranks.imp fun hlt => .order rfl rfl rfl (Int.ofNat_lt.mpr hlt))
  rw [← hshown, List.pairwise_map] at hpairs
  refine hpairs.imp fun {left right} hbefore => ?_
  rw [mayPrecede, NavEntry.compareSiblings_eq_lt_iff.mpr hbefore]
  rfl

/-- Whatever pages are merged, the reference comes behind them, in order. -/
theorem showsReferenceLast_of_merge (hnamed : WellNamed registry.entries)
    (hok : merge title sources registry = .ok tree) :
    ∃ reference, tree.ShowsReferenceLast registry reference := by
  obtain ⟨pages, merged, hpages, horigins, hmerged, rfl⟩ := exists_of_merge hok
  have hshows := showsReference_of_addReference hpages hmerged
  refine ⟨pages.size, ?_, by rw [node_sort]; exact hshows.entry, ?_⟩
  · rw [node_sort, hshows.root, mergeSort_concat merged.mayPrecede_trans merged.mayPrecede_total fun page hpage => ?_,
      List.getLast?_concat]
    have horigin : (merged.node page).origin = .page := by
      rw [NavEntry.origin, hshows.keeps.entry page (hpages.child_lt hpage)]
      exact horigins page
    rw [mayPrecede, NavEntry.compareSiblings_of_origin horigin (by rw [NavEntry.origin, hshows.entry]; rfl)]
    rfl
  · rw [children_sort_of_groups hshows.groups]
    exact hshows.groups.imp fun _ _ hgroup => hgroup.sort hnamed

/-- How sorting ranks the nodes of a tree: any two of them, without circles, and one strictly before another
if it comes before it. -/
structure Ranks (tree : PageTree) : Prop where
  refl : ∀ a, tree.mayPrecede a a
  trans : ∀ a b c, tree.mayPrecede a b → tree.mayPrecede b c → tree.mayPrecede a c
  total : ∀ a b, tree.mayPrecede a b ∨ tree.mayPrecede b a
  strict : ∀ a b, (tree.node a).ComesBefore (tree.node b).toNavEntry ↔ tree.mayPrecede a b ∧ ¬ tree.mayPrecede b a

private theorem ranks (tree : PageTree) : tree.Ranks := by
  have htotal (a b : Nat) : tree.mayPrecede a b ∨ tree.mayPrecede b a := Bool.or_eq_true_iff.mp (tree.mayPrecede_total a b)
  refine ⟨fun a => (or_self_iff.mp (htotal a a)), tree.mayPrecede_trans, htotal, fun a b => ?_⟩
  have hback : ¬ tree.mayPrecede b a ↔ (tree.node a).ComesBefore (tree.node b).toNavEntry := by
    rw [mayPrecede_iff, not_not]
  rw [hback]
  exact ⟨fun h => ⟨(htotal a b).resolve_right (hback.mpr h), h⟩, And.right⟩

/-- The children of each node of a merged tree stand in order, and where the identities of the pages are made of
their names, in strict order; without that, pages of one identity may stand side by side. The reference is
behind the pages, with its groups and leaves in order. Sorting any tree does nothing but put children in that
order, those that are alike in the one that they had, and does nothing to a tree that it has sorted. -/
theorem merge_ordered :
    (∀ (title : String) (sources : List SourcePage) (schema : Schema) (registry : Registry) (tree : PageTree),
      Registry.build schema = .ok registry → merge title sources registry = .ok tree →
        (∀ index, (tree.node index).children.Pairwise fun left right =>
          (tree.node left).ComesBefore (tree.node right).toNavEntry ∨ tree.areAlike left right) ∧
        ((∀ source ∈ sources, source.IsNamed) → ∀ index, (tree.node index).children.Pairwise fun left right =>
          (tree.node left).ComesBefore (tree.node right).toNavEntry) ∧
        ∃ reference, tree.ShowsReferenceLast registry reference) ∧
      ∀ tree : PageTree, tree.Ranks ∧ tree.Orders tree.sort ∧ tree.sort.sort = tree.sort := by
  refine ⟨fun title sources schema registry tree hregistry hok => ?_, fun tree =>
    ⟨ranks tree, orders_sort tree, sort_sort tree⟩⟩
  have hnamed := wellNamed_of_build hregistry
  exact ⟨comesBefore_or_areAlike_of_merge hok, fun hsources => pairwise_of_merge hsources hnamed hok,
    showsReferenceLast_of_merge hnamed hok⟩

theorem merge_ordered_sample :
    ∃ registry tree, Registry.build sampleSchema = .ok registry ∧
      merge "Docs" (Discovery.discover sampleFiles "p") registry = .ok tree ∧
      (∀ index, (tree.node index).children.Pairwise fun left right =>
        (tree.node left).ComesBefore (tree.node right).toNavEntry) ∧
      ∃ reference, tree.ShowsReferenceLast registry reference := by
  have hmerges : (merge "Docs" (Discovery.discover sampleFiles "p") (.ofEntries sampleSchema.entries)).toOption.isSome := by
    decide +kernel
  obtain ⟨tree, htree⟩ := Option.isSome_iff_exists.mp hmerges
  have hok := eq_ok_of_toOption htree
  obtain ⟨-, hpairs, hreference⟩ := merge_ordered.1 _ _ _ _ _ sampleSchema_registered hok
  exact ⟨_, tree, sampleSchema_registered, hok, hpairs fun _ => Discovery.isNamed_of_mem_discover sampleFiles_named,
    hreference⟩

/-- Two pages of one identity, in files of different names. -/
def twinSources : List SourcePage := [⟨"a", ["x"], false, ⟨none, "", []⟩⟩, ⟨"a", ["y"], false, ⟨none, "", []⟩⟩]

/-- Both are below the root, and neither comes before the other. -/
theorem merge_twins :
    ∃ registry tree, Registry.build { output := "o" } = .ok registry ∧ merge "Docs" twinSources registry = .ok tree ∧
      ∃ index, ¬ (tree.node index).children.Pairwise fun left right =>
        (tree.node left).ComesBefore (tree.node right).toNavEntry := by
  have hunsorted : ((do
      let placed ← (new "Docs").placeAll [] twinSources
      let rehomed ← twinSources.foldlM rehome placed
      rehomed.addReference {} : Except Collision PageTree).toOption.map fun tree =>
        ((tree.node root).children, NavEntry.compareSiblings (tree.node 1).toNavEntry (tree.node 2).toNavEntry)) =
          some ([1, 2, 3], .eq) := by
    decide +kernel
  obtain ⟨unsorted, hmerged, hshown⟩ := Option.map_eq_some_iff.mp hunsorted
  obtain ⟨hchildren, hcompare⟩ := Prod.mk.inj hshown
  obtain ⟨placed, hplaced, hrest⟩ := bind_eq_ok_iff.mp (eq_ok_of_toOption hmerged)
  obtain ⟨rehomed, hrehomed, hmerged⟩ := bind_eq_ok_iff.mp hrest
  obtain ⟨hsame, hperm, -⟩ := orders_sort unsorted
  refine ⟨{}, unsorted.sort, rfl, merge_eq_ok_iff.mpr ⟨placed, rehomed, unsorted, hplaced, hrehomed, hmerged, rfl⟩, root,
    fun hpairs => ?_⟩
  -- whichever of the two sorting puts first, it does not come before the other
  have hboth := ((hperm root).pairwise_iff Or.symm).mp (hpairs.imp fun hbefore => Or.inl hbefore)
  rw [hchildren] at hboth
  have hback : NavEntry.compareSiblings (unsorted.node 2).toNavEntry (unsorted.node 1).toNavEntry = .eq := by
    rw [NavEntry.compareSiblings_swap, hcompare]
    rfl
  have hbefore := List.rel_of_pairwise_cons hboth List.mem_cons_self
  rw [hsame.entry, hsame.entry, ← NavEntry.compareSiblings_eq_lt_iff, ← NavEntry.compareSiblings_eq_lt_iff, hcompare,
    hback] at hbefore
  exact hbefore.elim nofun nofun

end PageTree

end SchemaDocs
