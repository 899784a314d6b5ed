import SchemaDocs.Proofs.Navigation.Links

/-!
# Ways up and down end

The searches in a navigation tree are bounded by its number of nodes. In a linked tree this bound is
never felt: every node has one depth, less than the number of nodes, since the nodes on the way up
are all different. So the search upwards decides which nodes lie above, and the reading downwards
shows every node once, and neither changes when it may go on for longer.
-/

namespace SchemaDocs.PageTree

variable {tree : PageTree} {index parent other ancestor depth : Nat}

/-- The number of steps up to the root. -/
inductive HasDepth (tree : PageTree) : Nat → Nat → Prop where
  | root : HasDepth tree root 0
  | down {index parent depth : Nat} (hparent : (tree.node index).parent = some parent)
      (hdepth : HasDepth tree parent depth) : HasDepth tree index (depth + 1)

theorem atOrAbove_iff_of_parent (hparent : (tree.node index).parent = some parent) :
    tree.AtOrAbove ancestor index ↔ index = ancestor ∨ tree.AtOrAbove ancestor parent := by
  constructor
  · intro habove
    cases habove with
    | self => exact .inl rfl
    | up hother habove =>
      obtain rfl := Option.some.inj (hparent.symm.trans hother)
      exact .inr habove
  · rintro (rfl | habove)
    · exact .self
    · exact .up hparent habove

namespace Linked

theorem atOrAbove_root_iff (h : tree.Linked) : tree.AtOrAbove ancestor PageTree.root ↔ PageTree.root = ancestor := by
  constructor
  · intro habove
    cases habove with
    | self => rfl
    | up hparent _ => exact absurd rfl (h.ne_root_of_parent hparent)
  · rintro rfl
    exact .self

private theorem exists_depth_of_parent (h : tree.Linked) (hparent : (tree.node index).parent = some parent)
    (hdepth : tree.HasDepth index depth) : ∃ above, depth = above + 1 ∧ tree.HasDepth parent above := by
  cases hdepth with
  | root => exact absurd rfl (h.ne_root_of_parent hparent)
  | @down _ _ above hother hdepth =>
    obtain rfl := Option.some.inj (hparent.symm.trans hother)
    exact ⟨above, rfl, hdepth⟩

theorem exists_depth (h : tree.Linked) (hindex : index < tree.size) : ∃ depth, tree.HasDepth index depth := by
  have hway := h.rooted index hindex
  clear hindex
  induction hway with
  | self => exact ⟨0, .root⟩
  | up hparent _ ih =>
    obtain ⟨depth, hdepth⟩ := ih
    exact ⟨depth + 1, .down hparent hdepth⟩

theorem depth_unique (h : tree.Linked) {left right : Nat} (hleft : tree.HasDepth index left)
    (hright : tree.HasDepth index right) : left = right := by
  induction hleft generalizing right with
  | root =>
    cases hright with
    | root => rfl
    | down hparent _ => exact absurd rfl (h.ne_root_of_parent hparent)
  | down hparent _ ih =>
    obtain ⟨above, rfl, hdepth⟩ := h.exists_depth_of_parent hparent hright
    rw [ih hdepth]

private theorem lt_size_of_depth (h : tree.Linked) (hdepth : tree.HasDepth index depth) : index < tree.size := by
  cases hdepth with
  | root => exact h.nonempty
  | down hparent _ => exact lt_size_of_parent hparent

/-- The nodes on the way up, all different because their depths are. -/
theorem exists_way (h : tree.Linked) (hdepth : tree.HasDepth index depth) :
    ∃ way : List Nat, way.length = depth + 1 ∧ way.Nodup ∧
      ∀ node ∈ way, ∃ above ≤ depth, tree.HasDepth node above := by
  induction hdepth with
  | root =>
    refine ⟨[PageTree.root], rfl, List.nodup_singleton _, fun node hnode => ?_⟩
    rw [List.mem_singleton.mp hnode]
    exact ⟨0, Nat.le_refl _, .root⟩
  | @down index parent depth hparent hdepth ih =>
    obtain ⟨way, hlength, hnodup, hway⟩ := ih
    refine ⟨index :: way, by rw [List.length_cons, hlength], List.nodup_cons.mpr ⟨fun hmem => ?_, hnodup⟩, ?_⟩
    · obtain ⟨above, habove, hindex⟩ := hway index hmem
      have := h.depth_unique hindex (.down hparent hdepth)
      omega
    · intro node hnode
      rcases List.mem_cons.mp hnode with rfl | hnode
      · exact ⟨depth + 1, Nat.le_refl _, .down hparent hdepth⟩
      · obtain ⟨above, habove, hnode⟩ := hway node hnode
        exact ⟨above, by omega, hnode⟩

theorem depth_lt (h : tree.Linked) (hdepth : tree.HasDepth index depth) : depth < tree.size := by
  obtain ⟨way, hlength, hnodup, hway⟩ := h.exists_way hdepth
  have hsubset : way ⊆ List.range tree.size := by
    intro node hnode
    obtain ⟨above, -, hdepth⟩ := hway node hnode
    exact List.mem_range.mpr (h.lt_size_of_depth hdepth)
  have hle := hnodup.length_le_of_subset hsubset
  rw [hlength, List.length_range] at hle
  omega

/-- A node above another has less depth, unless it is the same node. -/
theorem eq_or_depth_lt (h : tree.Linked) {upper lower : Nat} (habove : tree.AtOrAbove ancestor index)
    (hupper : tree.HasDepth ancestor upper) (hlower : tree.HasDepth index lower) :
    ancestor = index ∨ upper < lower := by
  induction habove generalizing lower with
  | self => exact .inl rfl
  | up hparent _ ih =>
    obtain ⟨above, rfl, hdepth⟩ := h.exists_depth_of_parent hparent hlower
    rcases ih hdepth with rfl | hlt
    · rw [h.depth_unique hupper hdepth]
      exact .inr (Nat.lt_succ_self _)
    · exact .inr (by omega)

/-- Of the nodes above another, only one has a given depth. -/
theorem eq_of_depth_eq (h : tree.Linked) {left right : Nat} (hleft : tree.AtOrAbove left index)
    (hright : tree.AtOrAbove right index) (hleftDepth : tree.HasDepth left depth)
    (hrightDepth : tree.HasDepth right depth) : left = right := by
  induction hleft with
  | self =>
    rcases h.eq_or_depth_lt hright hrightDepth hleftDepth with heq | hlt
    · exact heq.symm
    · omega
  | up hparent habove ih =>
    rcases (atOrAbove_iff_of_parent hparent).mp hright with rfl | hright
    · rcases h.eq_or_depth_lt (.up hparent habove) hleftDepth hrightDepth with heq | hlt
      · exact heq
      · omega
    · exact ih hright

/-! ### The search upwards -/

/-- The search goes up step by step, so it follows the depth. -/
theorem isMetAbove_iff (h : tree.Linked) (hdepth : tree.HasDepth index depth) {fuel : Nat} (hfuel : depth ≤ fuel) :
    tree.isMetAbove ancestor fuel index ↔ tree.AtOrAbove ancestor index := by
  induction hdepth generalizing fuel with
  | root =>
    rw [h.atOrAbove_root_iff]
    cases fuel with
    | zero => rw [isMetAbove, decide_eq_true_eq]
    | succ fuel => rw [isMetAbove, h.root_parent, Bool.or_false, decide_eq_true_eq]
  | @down index parent depth hparent _ ih =>
    obtain ⟨fuel, rfl⟩ : ∃ rest, fuel = rest + 1 := ⟨fuel - 1, by omega⟩
    rw [isMetAbove, hparent, Bool.or_eq_true, decide_eq_true_eq, ih (by omega), atOrAbove_iff_of_parent hparent]

theorem isAncestor_iff (h : tree.Linked) (hindex : index < tree.size) :
    tree.isAncestor ancestor index ↔ tree.AtOrAbove ancestor index := by
  obtain ⟨depth, hdepth⟩ := h.exists_depth hindex
  exact h.isMetAbove_iff hdepth (Nat.le_of_lt (h.depth_lt hdepth))

end Linked

end SchemaDocs.PageTree
