import SchemaDocs.Proofs.Navigation.Arrangement
import SchemaDocs.Proofs.Schema.Registration

/-!
# The reference subtree

The reference entries hang below a node of their own, grouped by kind. `Grafted` says what is there
once some groups and some leaves have been added, and there is one lemma for each step. Since a
registry gives each name of a kind once, no step is refused, and what was in the tree before stays
as it was.
-/

namespace SchemaDocs

namespace PageTree

variable {base tree next : PageTree} {index parent group other : Nat} {groups : List (Nat × Kind)}
  {leaves : List Entry} {declared : Entry} {position : Nat × Kind} {registry : Registry}

def referenceEntry : NavEntry where
  kind := .referenceRoot
  id := "reference"
  name := "reference"
  title := "API Reference"

def groupEntry (position : Nat × Kind) : NavEntry where
  kind := .referenceGroup
  id := "reference/" ++ position.2.tag
  name := position.2.tag
  title := groupTitle position.2
  order := some position.1

def leafEntry (kind : Kind) (declared : Entry) : NavEntry where
  kind := .reference
  id := "reference/" ++ kind.tag ++ "/" ++ declared.qualifiedName
  name := declared.qualifiedName
  title := declared.qualifiedName
  document := some declared.path

/-! ### The nodes that are added -/

private theorem addGroup_eq (registry : Registry) (reference : Nat) (tree : PageTree) (position : Nat × Kind) :
    addGroup registry reference tree position =
      (if (registry.ofKind position.2).isEmpty then .ok tree
      else do
        let (group, tree) ← tree.addChild reference (groupEntry position)
        (registry.ofKind position.2).foldlM (fun tree entry => do
          let (_, tree) ← tree.addChild group (leafEntry position.2 entry)
          return tree) tree) := rfl

theorem addGroup_cases {reference : Nat} (hreference : reference < tree.size)
    (hok : addGroup registry reference tree position = .ok next) :
    ((registry.ofKind position.2).isEmpty = true ∧ next = tree) ∨
      (¬ (registry.ofKind position.2).isEmpty = true ∧ ∃ grown : PageTree, tree.Adds grown reference (groupEntry position) ∧
        (registry.ofKind position.2).foldlM (fun state entry => do
          let (_, state) ← state.addChild tree.size (leafEntry position.2 entry)
          return state) grown = Except.ok next) := by
  rw [addGroup_eq] at hok
  by_cases hempty : (registry.ofKind position.2).isEmpty
  · rw [if_pos hempty] at hok
    exact .inl ⟨hempty, (Except.ok.inj hok).symm⟩
  · rw [if_neg hempty] at hok
    obtain ⟨⟨group, grown⟩, hadd, hleaves⟩ := bind_eq_ok_iff.mp hok
    obtain ⟨rfl, hadds⟩ := adds_of_addChild hreference hadd
    exact .inr ⟨hempty, grown, hadds, hleaves⟩

/-- What a node of the reference subtree of a registry shows. -/
inductive IsReferenceEntry (registry : Registry) : NavEntry → Prop where
  | root : IsReferenceEntry registry referenceEntry
  | group (position : Nat × Kind) : IsReferenceEntry registry (groupEntry position)
  | leaf {kind : Kind} {declared : Entry} (h : declared ∈ registry.ofKind kind) :
    IsReferenceEntry registry (leafEntry kind declared)

section Keeps

variable {motive : PageTree → Prop}
  (hkeeps : ∀ {tree next : PageTree} {parent : Nat} {entry : NavEntry}, motive tree → parent < tree.size →
    tree.Adds next parent entry → IsReferenceEntry registry entry → motive next)

include hkeeps

private theorem addLeaves_keeps {kind : Kind} {entries : List Entry}
    (hentries : ∀ declared ∈ entries, declared ∈ registry.ofKind kind)
    (h : motive tree) (hgroup : group < tree.size)
    (hok : entries.foldlM (fun tree entry => do
      let (_, tree) ← tree.addChild group (leafEntry kind entry)
      return tree) tree = Except.ok next) : motive next ∧ group < next.size := by
  refine foldlM_keeps (motive := fun state => motive state ∧ group < state.size) ?_ ⟨h, hgroup⟩ hok
  intro state later declared hdeclared ⟨hstate, hlt⟩ hstep
  obtain ⟨⟨leaf, added⟩, hadd, hlater⟩ := bind_eq_ok_iff.mp hstep
  obtain rfl := Except.ok.inj hlater
  obtain ⟨-, hadds⟩ := adds_of_addChild hlt hadd
  have hsize := hadds.size
  exact ⟨hkeeps hstate hlt hadds (.leaf (hentries declared hdeclared)), show group < added.size by omega⟩

private theorem addGroup_keeps {reference : Nat} (h : motive tree) (hreference : reference < tree.size)
    (hok : addGroup registry reference tree position = .ok next) : motive next ∧ reference < next.size := by
  rcases addGroup_cases hreference hok with ⟨-, rfl⟩ | ⟨-, grown, hadds, hleaves⟩
  · exact ⟨h, hreference⟩
  · have hsize := hadds.size
    obtain ⟨hnext, hlt⟩ := addLeaves_keeps hkeeps (fun _ => id) (hkeeps h hreference hadds (.group position))
      (show tree.size < grown.size by omega) hleaves
    exact ⟨hnext, by omega⟩

/-- What every added node of the reference keeps is kept when the whole reference is added. -/
theorem addReference_keeps (h : motive base) (hroot : root < base.size) (hok : base.addReference registry = .ok tree) :
    motive tree := by
  obtain ⟨⟨reference, grown⟩, hadd, hgroups⟩ := bind_eq_ok_iff.mp hok
  obtain ⟨rfl, hadds⟩ := adds_of_addChild hroot hadd
  have hsize := hadds.size
  have hall : motive tree ∧ base.size < tree.size :=
    foldlM_keeps (motive := fun state => motive state ∧ base.size < state.size)
      (fun _ _ _ _ hstate hstep => addGroup_keeps hkeeps hstate.1 hstate.2 hstep)
      ⟨hkeeps h hroot hadds .root, show base.size < grown.size by omega⟩ hgroups
  exact hall.1

end Keeps

/-! ### The subtree as a whole -/

/-- A node is the group of a kind. -/
structure HoldsGroup (reference : Nat) (tree : PageTree) (index : Nat) (position : Nat × Kind) : Prop where
  entry : (tree.node index).toNavEntry = groupEntry position
  parent : (tree.node index).parent = some reference

/-- A node is the leaf of a declaration, in the group of its kind. -/
structure HoldsLeaf (reference : Nat) (tree : PageTree) (index : Nat) (declared : Entry) : Prop where
  entry : (tree.node index).toNavEntry = leafEntry declared.kind declared
  parent : ∃ group rank, (tree.node index).parent = some group ∧ tree.HoldsGroup reference group (rank, declared.kind)

/-- A tree has become another with a reference subtree of some groups and leaves. -/
structure Grafted (base : PageTree) (groups : List (Nat × Kind)) (leaves : List Entry) (tree : PageTree) : Prop where
  basis : base.Linked
  linked : tree.Linked
  differ : tree.SiblingsDiffer
  lt_size : base.size < tree.size
  /-- The nodes of the other tree stay as they are. -/
  kept : ∀ index < base.size, (tree.node index).toNavEntry = (base.node index).toNavEntry ∧
    (tree.node index).parent = (base.node index).parent
  entry : (tree.node base.size).toNavEntry = referenceEntry
  parent : (tree.node base.size).parent = some root
  kinds : ∀ index, base.size < index → index < tree.size →
    (tree.node index).kind = .referenceGroup ∨ (tree.node index).kind = .reference
  authored : ∀ kind : NodeKind, kind.origin = .page → tree.numbersOf kind = base.numbersOf kind
  groups : List.Forall₂ (tree.HoldsGroup base.size) (tree.numbersOf .referenceGroup) groups
  leaves : List.Forall₂ (tree.HoldsLeaf base.size) (tree.numbersOf .reference) leaves

/-! ### Steps -/

private theorem HoldsGroup.of_adds {reference : Nat} {entry : NavEntry} (h : tree.HoldsGroup reference index position)
    (hadds : tree.Adds next parent entry) : next.HoldsGroup reference index position :=
  ⟨(hadds.entry_of_lt (lt_size_of_parent h.parent)).trans h.entry,
    (hadds.parent_of_lt (lt_size_of_parent h.parent)).trans h.parent⟩

private theorem HoldsLeaf.of_adds {reference : Nat} {entry : NavEntry} (h : tree.HoldsLeaf reference index declared)
    (hadds : tree.Adds next parent entry) : next.HoldsLeaf reference index declared := by
  obtain ⟨group, rank, hparent, hgroup⟩ := h.parent
  exact ⟨(hadds.entry_of_lt (lt_size_of_parent hparent)).trans h.entry, group, rank,
    (hadds.parent_of_lt (lt_size_of_parent hparent)).trans hparent, hgroup.of_adds hadds⟩

namespace Grafted

private theorem start (hbase : base.Linked) (hdiffer : base.SiblingsDiffer)
    (horigins : ∀ index < base.size, (base.node index).origin = .page) (hadds : base.Adds tree root referenceEntry) :
    Grafted base [] [] tree := by
  have hnone {kind : NodeKind} (hkind : kind.origin = .reference) (hne : kind ≠ .referenceRoot) :
      tree.numbersOf kind = [] := by
    have hbefore : base.numbersOf kind = [] := by
      rw [List.eq_nil_iff_forall_not_mem]
      intro index hindex
      obtain ⟨hlt, hsame⟩ := mem_numbersOf_iff.mp hindex
      have horigin := horigins index hlt
      rw [NavEntry.origin, hsame, hkind] at horigin
      cases horigin
    rw [hadds.numbersOf, hbefore, if_neg fun heq => hne heq.symm, List.nil_append]
  refine ⟨hbase, hbase.of_adds hbase.nonempty hadds, hdiffer.of_adds hbase hadds, by rw [hadds.size]; omega,
    fun index hindex => ?_, ?_, ?_, fun index habove hindex => ?_, fun kind hkind => ?_, ?_, ?_⟩
  · exact ⟨hadds.entry_of_lt hindex, hadds.parent_of_lt hindex⟩
  · rw [hadds.entries, if_pos rfl]
  · rw [hadds.parents, if_pos rfl]
  · rw [hadds.size] at hindex
    omega
  · rw [hadds.numbersOf, if_neg, List.append_nil]
    intro hsame
    rw [← hsame] at hkind
    cases hkind
  · rw [hnone rfl (by decide)]
    exact .nil
  · rw [hnone rfl (by decide)]
    exact .nil

private theorem of_adds {entry : NavEntry} {moreGroups : List (Nat × Kind)} {moreLeaves : List Entry}
    (h : Grafted base groups leaves tree) (hparent : parent < tree.size) (hadds : tree.Adds next parent entry)
    (hkind : entry.kind = .referenceGroup ∨ entry.kind = .reference)
    (hgroups : List.Forall₂ (next.HoldsGroup base.size) (if entry.kind = .referenceGroup then [tree.size] else []) moreGroups)
    (hleaves : List.Forall₂ (next.HoldsLeaf base.size) (if entry.kind = .reference then [tree.size] else []) moreLeaves) :
    Grafted base (groups ++ moreGroups) (leaves ++ moreLeaves) next := by
  have hsize := h.lt_size
  refine ⟨h.basis, h.linked.of_adds hparent hadds, h.differ.of_adds h.linked hadds, by rw [hadds.size]; omega,
    fun index hindex => ?_, ?_, ?_, fun index habove hindex => ?_, fun other hother => ?_, ?_, ?_⟩
  · have hlt : index < tree.size := by omega
    rw [hadds.entry_of_lt hlt, hadds.parent_of_lt hlt]
    exact h.kept index hindex
  · rw [hadds.entry_of_lt hsize]
    exact h.entry
  · rw [hadds.parent_of_lt hsize]
    exact h.parent
  · by_cases hnew : index = tree.size
    · rw [hadds.entries, if_pos hnew]
      exact hkind
    · rw [hadds.size] at hindex
      have hlt : index < tree.size := by omega
      rw [hadds.entry_of_lt hlt]
      exact h.kinds index habove hlt
  · rw [hadds.numbersOf, if_neg, List.append_nil, h.authored other hother]
    intro hsame
    rw [← hsame] at hother
    rcases hkind with hkind | hkind <;> rw [hkind] at hother <;> cases hother
  · rw [hadds.numbersOf]
    exact List.rel_append (h.groups.imp fun _ _ hgroup => hgroup.of_adds hadds) hgroups
  · rw [hadds.numbersOf]
    exact List.rel_append (h.leaves.imp fun _ _ hleaf => hleaf.of_adds hadds) hleaves

private theorem addGroup (h : Grafted base groups leaves tree)
    (hadds : tree.Adds next base.size (groupEntry position)) :
    Grafted base (groups ++ [position]) leaves next ∧ next.HoldsGroup base.size tree.size position := by
  have hgroup : next.HoldsGroup base.size tree.size position :=
    ⟨by rw [hadds.entries, if_pos rfl], by rw [hadds.parents, if_pos rfl]⟩
  have hgrafted : Grafted base (groups ++ [position]) (leaves ++ []) next :=
    h.of_adds h.lt_size hadds (.inl rfl) (.cons hgroup .nil) .nil
  rw [List.append_nil] at hgrafted
  exact ⟨hgrafted, hgroup⟩

private theorem addLeaf {rank : Nat} (h : Grafted base groups leaves tree)
    (hgroup : tree.HoldsGroup base.size group (rank, declared.kind))
    (hadds : tree.Adds next group (leafEntry declared.kind declared)) :
    Grafted base groups (leaves ++ [declared]) next := by
  have hleaf : next.HoldsLeaf base.size tree.size declared :=
    ⟨by rw [hadds.entries, if_pos rfl], group, rank, by rw [hadds.parents, if_pos rfl], hgroup.of_adds hadds⟩
  have hgrafted := h.of_adds (lt_size_of_parent hgroup.parent) hadds (.inr rfl) .nil (.cons hleaf .nil)
  rw [List.append_nil] at hgrafted
  exact hgrafted

/-! ### Free places -/

private theorem child_cases (h : Grafted base groups leaves tree) (hparent : (tree.node index).parent = some parent)
    (hbelow : base.size ≤ parent) :
    (∃ position ∈ groups, tree.HoldsGroup base.size index position) ∨
      ∃ declared ∈ leaves, tree.HoldsLeaf base.size index declared := by
  have hindex := lt_size_of_parent hparent
  have habove : base.size < index := by
    rcases Nat.lt_trichotomy index base.size with hlt | rfl | hlt
    · rw [(h.kept index hlt).2] at hparent
      have hbase := h.basis.parent_lt hparent
      omega
    · obtain rfl := Option.some.inj (h.parent.symm.trans hparent)
      have hbase := h.basis.nonempty
      omega
    · exact hlt
  rcases h.kinds index habove hindex with hkind | hkind
  · exact .inl ((exists_of_mem_forall₂ h.groups).2 index (mem_numbersOf_iff.mpr ⟨hindex, hkind⟩))
  · exact .inr ((exists_of_mem_forall₂ h.leaves).2 index (mem_numbersOf_iff.mpr ⟨hindex, hkind⟩))

private theorem group_vacant (h : Grafted base groups leaves tree) (hnew : ∀ other ∈ groups, other.2 ≠ position.2) :
    tree.collision? base.size (groupEntry position).origin (groupEntry position).name = none := by
  rw [collision?_eq_none_iff]
  intro child hchild _ hname
  have hparent := (h.linked.mem_children_iff base.size child).mp hchild
  rcases h.child_cases hparent (Nat.le_refl _) with ⟨other, hother, hgroup⟩ | ⟨declared, -, hleaf⟩
  · rw [hgroup.entry] at hname
    exact hnew other hother (Kind.tag_injective hname)
  -- a leaf hangs below a group, not below the root of the subtree
  · obtain ⟨group, rank, hgroup, hholds⟩ := hleaf.parent
    obtain rfl := Option.some.inj (hparent.symm.trans hgroup)
    have hentry := h.entry.symm.trans hholds.entry
    cases hentry

private theorem leaf_vacant {rank : Nat} (h : Grafted base groups leaves tree)
    (hgroup : tree.HoldsGroup base.size group (rank, declared.kind)) (hnew : ∀ other ∈ leaves, ¬ other.Clashes declared) :
    tree.collision? group (leafEntry declared.kind declared).origin (leafEntry declared.kind declared).name = none := by
  have hbelow : base.size ≤ group := by
    by_contra hlt
    obtain ⟨hentry, hparent⟩ := h.kept group (by omega)
    have hbase := h.basis.parent_lt (hparent.symm.trans hgroup.parent)
    omega
  rw [collision?_eq_none_iff]
  intro child hchild _ hname
  have hparent := (h.linked.mem_children_iff group child).mp hchild
  rcases h.child_cases hparent hbelow with ⟨other, -, hother⟩ | ⟨other, hother, hleaf⟩
  · obtain rfl := Option.some.inj (hparent.symm.trans hother.parent)
    have hentry := h.entry.symm.trans hgroup.entry
    cases hentry
  · obtain ⟨upper, upperRank, hupper, hholds⟩ := hleaf.parent
    obtain rfl := Option.some.inj (hparent.symm.trans hupper)
    have hkind : other.kind = declared.kind := by
      have hentry := congrArg NavEntry.name (hholds.entry.symm.trans hgroup.entry)
      exact Kind.tag_injective hentry
    rw [hleaf.entry] at hname
    exact hnew other hother ⟨by rw [hkind], hname⟩

end Grafted

/-! ### All entries -/

/-- The groups of a registry: one for each kind that has entries. -/
def groupsOf (registry : Registry) : List (Nat × Kind) :=
  rankedKinds.filter fun position => !(registry.ofKind position.2).isEmpty

/-- The entries of a registry in the order of their leaves. -/
def leavesOf (registry : Registry) : List Entry := rankedKinds.flatMap fun position => registry.ofKind position.2

theorem leavesOf_perm (registry : Registry) : (leavesOf registry).Perm registry.entries := by
  have hkinds : leavesOf registry = Kind.all.flatMap fun kind => registry.entries.filter (·.kind = kind) := rfl
  rw [hkinds]
  refine perm_flatMap_filter (by decide) fun entry _ => ?_
  cases entry.kind <;> decide

namespace Grafted

private theorem exists_leaves {rank : Nat} {kind : Kind} {entries : List Entry} (h : Grafted base groups leaves tree)
    (hgroup : tree.HoldsGroup base.size group (rank, kind)) (hkinds : ∀ entry ∈ entries, entry.kind = kind)
    (hdistinct : (leaves ++ entries).Pairwise fun a b => ¬ a.Clashes b) :
    ∃ next, entries.foldlM (fun tree entry => do
        let (_, tree) ← tree.addChild group (leafEntry kind entry)
        return tree) tree = Except.ok next ∧ Grafted base groups (leaves ++ entries) next := by
  induction entries generalizing tree leaves with
  | nil =>
    rw [List.append_nil]
    exact ⟨tree, rfl, h⟩
  | cons entry entries ih =>
    obtain rfl := hkinds entry List.mem_cons_self
    have hnew : ∀ other ∈ leaves, ¬ other.Clashes entry := fun other hother =>
      (List.pairwise_append.mp hdistinct).2.2 other hother entry List.mem_cons_self
    obtain ⟨⟨index, grown⟩, hadd⟩ := exists_addChild (h.leaf_vacant hgroup hnew)
    obtain ⟨-, hadds⟩ := adds_of_addChild (lt_size_of_parent hgroup.parent) hadd
    rw [List.append_cons] at hdistinct ⊢
    obtain ⟨next, hnext, hgrafted⟩ := ih (h.addLeaf hgroup hadds) (hgroup.of_adds hadds)
      (fun other hother => hkinds other (List.mem_cons_of_mem _ hother)) hdistinct
    refine ⟨next, ?_, hgrafted⟩
    rw [List.foldlM_cons]
    exact bind_eq_ok_iff.mpr ⟨grown, bind_eq_ok_iff.mpr ⟨_, hadd, rfl⟩, hnext⟩

private theorem exists_addGroup (h : Grafted base groups leaves tree) (hnew : ∀ other ∈ groups, other.2 ≠ position.2)
    (hdistinct : (leaves ++ registry.ofKind position.2).Pairwise fun a b => ¬ a.Clashes b) :
    ∃ next, PageTree.addGroup registry base.size tree position = .ok next ∧
      Grafted base (groups ++ [position].filter fun position => !(registry.ofKind position.2).isEmpty)
        (leaves ++ registry.ofKind position.2) next := by
  rw [addGroup_eq]
  by_cases hempty : (registry.ofKind position.2).isEmpty
  · rw [if_pos hempty, List.isEmpty_iff.mp hempty]
    exact ⟨tree, rfl, by simpa [List.isEmpty_iff.mp hempty] using h⟩
  · rw [if_neg hempty, List.filter_cons_of_pos (by simpa using hempty), List.filter_nil]
    obtain ⟨⟨group, grown⟩, hadd⟩ := exists_addChild (h.group_vacant hnew)
    obtain ⟨rfl, hadds⟩ := adds_of_addChild h.lt_size hadd
    obtain ⟨hgrown, hgroup⟩ := h.addGroup hadds
    obtain ⟨next, hnext, hgrafted⟩ := hgrown.exists_leaves hgroup
      (fun entry hentry => of_decide_eq_true (List.mem_filter.mp hentry).2) hdistinct
    exact ⟨next, bind_eq_ok_iff.mpr ⟨_, hadd, hnext⟩, hgrafted⟩

private theorem exists_addGroups {positions : List (Nat × Kind)} (h : Grafted base groups leaves tree)
    (hkinds : (groups ++ positions).Pairwise fun a b => a.2 ≠ b.2)
    (hdistinct : (leaves ++ positions.flatMap fun position => registry.ofKind position.2).Pairwise
      fun a b => ¬ a.Clashes b) :
    ∃ next, positions.foldlM (PageTree.addGroup registry base.size) tree = .ok next ∧
      Grafted base (groups ++ positions.filter fun position => !(registry.ofKind position.2).isEmpty)
        (leaves ++ positions.flatMap fun position => registry.ofKind position.2) next := by
  induction positions generalizing tree groups leaves with
  | nil => exact ⟨tree, rfl, by simpa using h⟩
  | cons position positions ih =>
    rw [List.flatMap_cons, ← List.append_assoc] at hdistinct
    have hnew : ∀ other ∈ groups, other.2 ≠ position.2 := fun other hother =>
      (List.pairwise_append.mp hkinds).2.2 other hother position List.mem_cons_self
    obtain ⟨grown, hgrown, hgrafted⟩ := h.exists_addGroup hnew (List.pairwise_append.mp hdistinct).1
    have hrest : (groups ++ ([position].filter fun position => !(registry.ofKind position.2).isEmpty) ++
        positions).Pairwise fun a b => a.2 ≠ b.2 := by
      rw [List.append_assoc]
      refine hkinds.sublist ((List.Sublist.refl groups).append ?_)
      exact (List.filter_sublist.append_right positions)
    obtain ⟨next, hnext, hfinal⟩ := ih hgrafted hrest hdistinct
    refine ⟨next, ?_, ?_⟩
    · rw [List.foldlM_cons]
      exact bind_eq_ok_iff.mpr ⟨grown, hgrown, hnext⟩
    · rw [List.flatMap_cons, ← List.append_assoc, ← List.singleton_append, List.filter_append, ← List.append_assoc]
      exact hfinal

end Grafted

theorem exists_addReference (hbase : base.Linked) (hdiffer : base.SiblingsDiffer)
    (horigins : ∀ index < base.size, (base.node index).origin = .page) (hnamed : WellNamed registry.entries) :
    ∃ next, base.addReference registry = .ok next ∧ Grafted base (groupsOf registry) (leavesOf registry) next := by
  have hvacant : base.collision? root referenceEntry.origin referenceEntry.name = none := by
    rw [collision?_eq_none_iff]
    intro child hchild horigin
    rw [horigins child (hbase.child_lt hchild)] at horigin
    cases horigin
  obtain ⟨⟨reference, grown⟩, hadd⟩ := exists_addChild hvacant
  obtain ⟨rfl, hadds⟩ := adds_of_addChild hbase.nonempty hadd
  have hdistinct : (leavesOf registry).Pairwise fun a b => ¬ a.Clashes b := by
    refine ((leavesOf_perm registry).pairwise_iff fun {a b} hclash hother => ?_).mpr hnamed.distinct
    exact hclash ⟨hother.1.symm, hother.2.symm⟩
  have hkinds : ([] ++ rankedKinds).Pairwise fun (a b : Nat × Kind) => a.2 ≠ b.2 := by decide
  obtain ⟨next, hnext, hgrafted⟩ := (Grafted.start hbase hdiffer horigins hadds).exists_addGroups hkinds hdistinct
  exact ⟨next, bind_eq_ok_iff.mpr ⟨_, hadd, hnext⟩, hgrafted⟩

/-- So where a reference subtree was added, it is that of all entries. -/
theorem grafted_of_addReference {isFolder : List String → Prop} {stands : List Stand}
    (hbase : base.Arranged isFolder stands)
    (hnamed : WellNamed registry.entries) (hok : base.addReference registry = .ok tree) :
    Grafted base (groupsOf registry) (leavesOf registry) tree := by
  obtain ⟨grafted, hgrafted, hreference⟩ :=
    exists_addReference hbase.linked hbase.differ (fun index => hbase.origin_eq) hnamed
  obtain rfl := Except.ok.inj (hok.symm.trans hgrafted)
  exact hreference

end PageTree

end SchemaDocs
