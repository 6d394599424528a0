import Mathlib.Order.WellFounded
import Mathlib.Data.List.Infix

/-!
# Labelled forests

A forest given by two relations, the label of a node and the edge from a node
to its parent, as an adjacency table stores it.  Nodes are addressed by the
labels met on the way down from a virtual root, written `none`.

Nothing here mentions tables or queries.  The main facts are that a
well-formed forest addresses every node by exactly one path, and that adding
one fresh node adds exactly one path.
-/

namespace GreengrassLite.Library

open List

universe u v

/-- The labels and parent edges of a set of nodes. -/
structure Forest (ν : Type u) (κ : Type v) where
  label : ν → κ → Prop
  edge : ν → ν → Prop

namespace Forest

variable {ν : Type u} {κ : Type v}

/-- `node` is labelled and hangs directly below `parent`, the virtual root
being the parent of the nodes without an edge. -/
def Child (forest : Forest ν κ) (parent : Option ν) (label : κ) (node : ν) : Prop :=
  forest.label node label ∧
    match parent with
    | none => ∀ above, ¬forest.edge node above
    | some above => forest.edge node above

/-- Following `labels` downwards from one node reaches another. -/
inductive Path (forest : Forest ν κ) : Option ν → List κ → Option ν → Prop
  | nil (node : Option ν) : Path forest node [] node
  | cons {node target label labels next} :
      forest.Child node label next → Path forest (some next) labels target →
      Path forest node (label :: labels) target

/-- A path together with every node it passes, its starting node excluded. -/
inductive Trail (forest : Forest ν κ) : Option ν → List κ → List ν → Prop
  | nil (node : Option ν) : Trail forest node [] []
  | cons {node label labels next nodes} :
      forest.Child node label next → Trail forest (some next) labels nodes →
      Trail forest node (label :: labels) (next :: nodes)

/-- The node a trail ends at. -/
def endpoint : Option ν → List ν → Option ν
  | node, [] => node
  | _, next :: nodes => endpoint (some next) nodes

/-- Labels and parents are unique, siblings carry different labels, and edges
lead to labelled nodes of smaller rank. -/
structure Wf [LT ν] (forest : Forest ν κ) : Prop where
  label_unique : ∀ {node first second},
    forest.label node first → forest.label node second → first = second
  parent_unique : ∀ {node first second},
    forest.edge node first → forest.edge node second → first = second
  sibling_unique : ∀ {parent label first second},
    forest.Child parent label first → forest.Child parent label second → first = second
  edge_lt : ∀ {node parent}, forest.edge node parent → parent < node
  edge_labelled : ∀ {node parent}, forest.edge node parent →
    (∃ label, forest.label node label) ∧ ∃ label, forest.label parent label

variable {forest : Forest ν κ}
  {source target : Option ν} {labels : List κ} {label : κ} {node : ν}

/-! ## Paths and trails -/

@[simp]
theorem path_nil_iff : forest.Path source [] target ↔ source = target := by
  constructor
  · intro path
    cases path
    rfl
  · rintro rfl
    exact Path.nil source

theorem path_cons_iff :
    forest.Path source (label :: labels) target ↔
      ∃ next, forest.Child source label next ∧ forest.Path (some next) labels target := by
  constructor
  · intro path
    cases path with
    | cons child rest => exact ⟨_, child, rest⟩
  · rintro ⟨next, child, rest⟩
    exact Path.cons child rest

theorem path_append_iff {first second : List κ} :
    forest.Path source (first ++ second) target ↔
      ∃ middle, forest.Path source first middle ∧ forest.Path middle second target := by
  induction first generalizing source with
  | nil => simp
  | cons label first ih =>
    simp only [cons_append, path_cons_iff, ih]
    constructor
    · rintro ⟨next, child, middle, rest, last⟩
      exact ⟨middle, ⟨next, child, rest⟩, last⟩
    · rintro ⟨middle, ⟨next, child, rest⟩, last⟩
      exact ⟨next, child, middle, rest, last⟩

@[simp]
theorem path_singleton_iff :
    forest.Path source [label] target ↔
      ∃ node, forest.Child source label node ∧ target = some node := by
  simp only [path_cons_iff, path_nil_iff]
  constructor
  · rintro ⟨next, child, rfl⟩
    exact ⟨next, child, rfl⟩
  · rintro ⟨node, child, rfl⟩
    exact ⟨node, child, rfl⟩

/-- Extending a path by one label steps to a child of its target. -/
theorem path_snoc_iff :
    forest.Path source (labels ++ [label]) target ↔
      ∃ parent node, forest.Path source labels parent ∧
        forest.Child parent label node ∧ target = some node := by
  rw [path_append_iff]
  constructor
  · rintro ⟨parent, path, step⟩
    obtain ⟨node, child, rfl⟩ := path_singleton_iff.mp step
    exact ⟨parent, node, path, child, rfl⟩
  · rintro ⟨parent, node, path, child, rfl⟩
    exact ⟨parent, path, path_singleton_iff.mpr ⟨node, child, rfl⟩⟩

theorem Path.snoc {parent : Option ν} (path : forest.Path source labels parent)
    (child : forest.Child parent label node) :
    forest.Path source (labels ++ [label]) (some node) :=
  path_snoc_iff.mpr ⟨parent, node, path, child, rfl⟩

/-- A nonempty path ends at a labelled node. -/
theorem Path.exists_label (path : forest.Path source labels target) (nonempty : labels ≠ []) :
    ∃ node label, target = some node ∧ forest.label node label := by
  induction path with
  | nil => exact absurd rfl nonempty
  | @cons _ _ label labels next child rest ih =>
    by_cases last : labels = []
    · subst last
      rw [path_nil_iff] at rest
      exact ⟨next, label, rest.symm, child.1⟩
    · exact ih last

theorem endpoint_eq_some {nodes : List ν} (last : nodes.getLast? = some node) :
    endpoint source nodes = some node := by
  induction nodes generalizing source with
  | nil => simp at last
  | cons next nodes ih =>
    cases nodes with
    | nil => simpa [endpoint] using last
    | cons second nodes =>
      exact @ih (some next) last

theorem Trail.path {nodes : List ν} (trail : forest.Trail source labels nodes) :
    forest.Path source labels (endpoint source nodes) := by
  induction trail with
  | nil node => exact Path.nil node
  | cons child _ ih => exact Path.cons child ih

theorem Path.exists_trail (path : forest.Path source labels target) :
    ∃ nodes, forest.Trail source labels nodes := by
  induction path with
  | nil node => exact ⟨[], Trail.nil node⟩
  | cons child _ ih =>
    obtain ⟨nodes, trail⟩ := ih
    exact ⟨_ :: nodes, Trail.cons child trail⟩

theorem Trail.length_eq {nodes : List ν} (trail : forest.Trail source labels nodes) :
    nodes.length = labels.length := by
  induction trail with
  | nil => rfl
  | cons _ _ ih => simp [ih]

/-! ## One path for each node -/

section

variable [LT ν] (wf : forest.Wf)

include wf

/-- Labels lead to at most one node. -/
theorem Path.target_unique {first second : Option ν} (firstPath : forest.Path source labels first)
    (secondPath : forest.Path source labels second) : first = second := by
  induction firstPath with
  | nil node => exact path_nil_iff.mp secondPath
  | cons child _ ih =>
    obtain ⟨next, secondChild, rest⟩ := path_cons_iff.mp secondPath
    rw [wf.sibling_unique secondChild child] at rest
    exact ih rest

theorem Path.node_unique {other : ν} (path : forest.Path source labels (some node))
    (otherPath : forest.Path source labels (some other)) : node = other :=
  Option.some.inj (path.target_unique wf otherPath)

/-- A longer path goes on where the shorter one ends. -/
theorem Path.append_iff {middle : Option ν} {rest : List κ}
    (path : forest.Path source labels middle) :
    forest.Path source (labels ++ rest) target ↔ forest.Path middle rest target := by
  rw [path_append_iff]
  constructor
  · rintro ⟨other, otherPath, below⟩
    exact otherPath.target_unique wf path ▸ below
  · intro below
    exact ⟨middle, path, below⟩

/-- A node below the end of a path is the end of a longer one. -/
theorem Path.exists_below {child : ν} (path : forest.Path source labels (some node))
    (edge : forest.edge child node) :
    ∃ label, forest.Path source (labels ++ [label]) (some child) := by
  obtain ⟨⟨label, labelled⟩, -⟩ := wf.edge_labelled edge
  exact ⟨label, path.snoc ⟨labelled, edge⟩⟩

/-- The last step of a path leaves from the node its initial part leads to. -/
theorem Path.last_child {parent : Option ν}
    (path : forest.Path source (labels ++ [label]) (some node))
    (parentPath : forest.Path source labels parent) : forest.Child parent label node := by
  obtain ⟨above, other, abovePath, child, equal⟩ := path_snoc_iff.mp path
  obtain rfl := Option.some.inj equal
  obtain rfl := abovePath.target_unique wf parentPath
  exact child

end

/-- Collecting something for every node of a trail is collecting it for every
nonempty prefix of its labels. -/
theorem Trail.flatMap_eq {β : Type*} {base : List κ} {nodes : List ν}
    (trail : forest.Trail source labels nodes) (basePath : forest.Path none base source)
    (atNode : ν → List β) (atPath : List κ → List β)
    (agree : ∀ path node, forest.Path none path (some node) → atNode node = atPath path) :
    nodes.flatMap atNode = labels.inits.tail.flatMap fun first => atPath (base ++ first) := by
  induction trail generalizing base with
  | nil => simp
  | @cons source label labels next nodes child _ ih =>
    have nextPath := basePath.snoc child
    rw [flatMap_cons, agree _ _ nextPath, ih nextPath]
    cases labels <;> simp [flatMap_map]

/-- A node hangs below one parent only. -/
theorem Child.parent_unique [LT ν] (wf : forest.Wf) {first second : Option ν}
    {firstLabel secondLabel : κ} (firstChild : forest.Child first firstLabel node)
    (secondChild : forest.Child second secondLabel node) : first = second := by
  cases first with
  | none =>
    cases second with
    | none => rfl
    | some above => exact absurd secondChild.2 (firstChild.2 above)
  | some above =>
    cases second with
    | none => exact absurd firstChild.2 (secondChild.2 above)
    | some other => rw [wf.parent_unique firstChild.2 secondChild.2]

/-- Following labels never returns to the virtual root. -/
theorem Path.eq_nil_of_target_none (path : forest.Path source labels none) : labels = [] := by
  by_contra nonempty
  obtain ⟨node, _, equal, _⟩ := path.exists_label nonempty
  cases equal

theorem Path.exists_prefix {rest : List κ} (path : forest.Path none (labels ++ rest) target)
    (nonempty : labels ≠ []) : ∃ node, forest.Path none labels (some node) := by
  obtain ⟨middle, middlePath, -⟩ := path_append_iff.mp path
  cases middle with
  | none => exact absurd middlePath.eq_nil_of_target_none nonempty
  | some node => exact ⟨node, middlePath⟩

/-- A nonempty path has a trail exactly when it leads to a node. -/
theorem exists_trail_iff (nonempty : labels ≠ []) :
    (∃ nodes, forest.Trail none labels nodes) ↔ ∃ node, forest.Path none labels (some node) := by
  constructor
  · rintro ⟨nodes, trail⟩
    obtain ⟨node, _, equal, _⟩ := trail.path.exists_label nonempty
    exact ⟨node, equal ▸ trail.path⟩
  · rintro ⟨node, path⟩
    exact path.exists_trail

/-- A node is addressed by at most one path from the virtual root. -/
theorem Path.labels_unique [Preorder ν] [WellFoundedLT ν] (wf : forest.Wf) {first second : List κ}
    (firstPath : forest.Path none first (some node))
    (secondPath : forest.Path none second (some node)) : first = second := by
  induction node using WellFoundedLT.induction generalizing first second with
  | ind node ih =>
    rcases eq_nil_or_concat' first with rfl | ⟨firstInit, firstLast, rfl⟩
    · simp at firstPath
    · rcases eq_nil_or_concat' second with rfl | ⟨secondInit, secondLast, rfl⟩
      · simp at secondPath
      · obtain ⟨parent, target, firstUp, firstChild, equal⟩ := path_snoc_iff.mp firstPath
        obtain rfl := Option.some.inj equal
        obtain ⟨other, target, secondUp, secondChild, equal⟩ := path_snoc_iff.mp secondPath
        obtain rfl := Option.some.inj equal
        obtain rfl := firstChild.parent_unique wf secondChild
        have labelEq := wf.label_unique firstChild.1 secondChild.1
        cases parent with
        | none =>
          rw [firstUp.eq_nil_of_target_none, secondUp.eq_nil_of_target_none, labelEq]
        | some above =>
          rw [ih above (wf.edge_lt firstChild.2) firstUp secondUp, labelEq]

/-- Every labelled node is addressed by some nonempty path. -/
theorem exists_path [Preorder ν] [WellFoundedLT ν] (wf : forest.Wf)
    (labelled : forest.label node label) :
    ∃ labels, labels ≠ [] ∧ forest.Path none labels (some node) := by
  induction node using WellFoundedLT.induction generalizing label with
  | ind node ih =>
    by_cases isRoot : ∀ above, ¬forest.edge node above
    · exact ⟨[label], by simp, path_singleton_iff.mpr ⟨node, ⟨labelled, isRoot⟩, rfl⟩⟩
    · push Not at isRoot
      obtain ⟨above, edge⟩ := isRoot
      obtain ⟨_, aboveLabel, aboveLabelled⟩ := wf.edge_labelled edge
      obtain ⟨labels, _, path⟩ := ih above (wf.edge_lt edge) aboveLabelled
      exact ⟨labels ++ [label], by simp, path.snoc ⟨labelled, edge⟩⟩

/-- No node lies above itself. -/
theorem Wf.acyclic [Preorder ν] (wf : forest.Wf) (node : ν) :
    ¬Relation.TransGen forest.edge node node := by
  intro cycle
  have descending : ∀ {first second : ν},
      Relation.TransGen forest.edge first second → second < first := by
    intro first second chain
    induction chain with
    | single edge => exact wf.edge_lt edge
    | tail _ edge above => exact lt_trans (wf.edge_lt edge) above
  exact lt_irrefl node (descending cycle)

/-! ## Adding a node -/

/-- Add `node` below `parent`. -/
def insert (forest : Forest ν κ) (node : ν) (label : κ) (parent : Option ν) : Forest ν κ where
  label other name := forest.label other name ∨ (other = node ∧ name = label)
  edge other above := forest.edge other above ∨ (other = node ∧ parent = some above)

/-- No label and no edge mentions `node`. -/
structure Fresh (forest : Forest ν κ) (node : ν) : Prop where
  unlabelled : ∀ label, ¬forest.label node label
  no_parent : ∀ above, ¬forest.edge node above
  no_child : ∀ below, ¬forest.edge below node

@[simp]
theorem child_insert_iff {parent : Option ν} (fresh : forest.Fresh node) {name : κ} {other : ν} :
    (forest.insert node label parent).Child source name other ↔
      forest.Child source name other ∨ (source = parent ∧ name = label ∧ other = node) := by
  by_cases same : other = node
  · subst same
    have labels : (forest.insert other label parent).label other name ↔ name = label := by
      simp [insert, fresh.unlabelled]
    have edges : ∀ above, (forest.insert other label parent).edge other above ↔
        parent = some above := by
      intro above
      simp [insert, fresh.no_parent]
    have absent : ¬forest.Child source name other := fun child => fresh.unlabelled name child.1
    rw [or_iff_right absent]
    cases source with
    | none =>
      simp only [Child, labels, edges, and_true]
      constructor
      · rintro ⟨rfl, isRoot⟩
        cases parent with
        | none => exact ⟨rfl, rfl⟩
        | some above => exact absurd rfl (isRoot above)
      · rintro ⟨rfl, rfl⟩
        exact ⟨rfl, fun above equal => by cases equal⟩
    | some above =>
      simp only [Child, labels, edges, and_true]
      constructor
      · rintro ⟨rfl, rfl⟩
        exact ⟨rfl, rfl⟩
      · rintro ⟨rfl, rfl⟩
        exact ⟨rfl, rfl⟩
  · cases source with
    | none | some => simp [Child, insert, same]

/-- Adding a fresh node under an unused label keeps a forest well formed. -/
theorem Wf.insert [LT ν] (wf : forest.Wf) {parent : Option ν} (fresh : forest.Fresh node)
    (above : ∀ other, parent = some other → other < node ∧ ∃ name, forest.label other name)
    (unused : ∀ other, ¬forest.Child parent label other) :
    (forest.insert node label parent).Wf where
  label_unique := by
    rintro other first second (firstLabel | ⟨rfl, rfl⟩) (secondLabel | ⟨same, rfl⟩)
    · exact wf.label_unique firstLabel secondLabel
    · exact absurd (same ▸ firstLabel) (fresh.unlabelled first)
    · exact absurd secondLabel (fresh.unlabelled second)
    · rfl
  parent_unique := by
    rintro other first second (firstEdge | ⟨rfl, firstEq⟩) (secondEdge | ⟨same, secondEq⟩)
    · exact wf.parent_unique firstEdge secondEdge
    · exact absurd (same ▸ firstEdge) (fresh.no_parent first)
    · exact absurd secondEdge (fresh.no_parent second)
    · exact Option.some.inj (firstEq.symm.trans secondEq)
  sibling_unique := by
    intro source name first second firstChild secondChild
    rw [child_insert_iff fresh] at firstChild secondChild
    rcases firstChild with firstChild | ⟨rfl, rfl, rfl⟩ <;>
      rcases secondChild with secondChild | ⟨sourceEq, nameEq, secondEq⟩
    · exact wf.sibling_unique firstChild secondChild
    · subst sourceEq nameEq
      exact absurd firstChild (unused first)
    · exact absurd secondChild (unused second)
    · exact secondEq.symm
  edge_lt := by
    rintro other lower (edge | ⟨rfl, equal⟩)
    · exact wf.edge_lt edge
    · exact (above lower equal).1
  edge_labelled := by
    rintro other lower (edge | ⟨rfl, equal⟩)
    · obtain ⟨⟨first, firstLabel⟩, second, secondLabel⟩ := wf.edge_labelled edge
      exact ⟨⟨first, .inl firstLabel⟩, second, .inl secondLabel⟩
    · obtain ⟨name, named⟩ := (above lower equal).2
      exact ⟨⟨label, .inr ⟨rfl, rfl⟩⟩, name, .inl named⟩

/-- The only new path is the one to the added node. -/
theorem path_insert_iff {parent : Option ν} (fresh : forest.Fresh node) (above : parent ≠ some node)
    (start : source ≠ some node) :
    (forest.insert node label parent).Path source labels target ↔
      forest.Path source labels target ∨
        ∃ init, labels = init ++ [label] ∧ forest.Path source init parent ∧
          target = some node := by
  induction labels generalizing source with
  | nil => simp
  | cons name labels ih =>
    rw [path_cons_iff, path_cons_iff]
    have nextOld : ∀ {next}, forest.Child source name next → some next ≠ some node := by
      intro next child equal
      exact fresh.unlabelled name (Option.some.inj equal ▸ child.1)
    constructor
    · rintro ⟨next, child, rest⟩
      rcases (child_insert_iff fresh).mp child with old | ⟨rfl, rfl, rfl⟩
      · rcases (ih (nextOld old)).mp rest with path | ⟨init, rfl, path, rfl⟩
        · exact .inl ⟨next, old, path⟩
        · exact .inr ⟨name :: init, rfl, Path.cons old path, rfl⟩
      · cases labels with
        | nil =>
          rw [path_nil_iff] at rest
          exact .inr ⟨[], rfl, Path.nil source, rest.symm⟩
        | cons second labels =>
          obtain ⟨below, belowChild, _⟩ := path_cons_iff.mp rest
          rcases (child_insert_iff fresh).mp belowChild with old | ⟨equal, _⟩
          · exact absurd old.2 (fresh.no_child below)
          · exact absurd equal.symm above
    · rintro (⟨next, child, path⟩ | ⟨init, equal, path, rfl⟩)
      · exact ⟨next, (child_insert_iff fresh).mpr (.inl child),
          (ih (nextOld child)).mpr (.inl path)⟩
      · cases init with
        | nil =>
          obtain ⟨rfl, rfl⟩ := cons.inj equal
          obtain rfl := path_nil_iff.mp path
          exact ⟨node, (child_insert_iff fresh).mpr (.inr ⟨rfl, rfl, rfl⟩), Path.nil _⟩
        | cons head init =>
          obtain ⟨rfl, rfl⟩ := cons.inj equal
          obtain ⟨next, child, path⟩ := path_cons_iff.mp path
          exact ⟨next, (child_insert_iff fresh).mpr (.inl child),
            (ih (nextOld child)).mpr (.inr ⟨init, rfl, path, rfl⟩)⟩

end Forest

end GreengrassLite.Library
