import PageExport.Proofs.Walk.OpenLists

/-!
The images of a tree, while it is built and of what the walk puts into it.
-/
namespace PageExport

open Markdown (Node NodeType nodesOfInlines)

namespace Markdown

/-- The images of a tree in pre-order. -/
def Node.images (n : Node) : List Node :=
  ((n.standings none).map (·.node)).filter fun m => m.type = .image

theorem filter_standings (above : Option NodeType) (n : Node) :
    ((n.standings above).map (·.node)).filter (fun m => m.type = .image) = n.images := by
  rw [Node.images, Node.standings_eq, Node.standings_eq none]
  rfl

theorem filter_standingsBelow (parent : NodeType) (ns : List Node) :
    ((standingsBelow parent ns).map (·.node)).filter (fun m => m.type = .image) =
      ns.flatMap Node.images := by
  induction ns with
  | nil => rfl
  | cons n ns ih =>
    rw [standingsBelow, List.map_append, List.filter_append, filter_standings, ih,
      List.flatMap_cons]

namespace Node

theorem images_eq (n : Node) :
    n.images = (if n.type = .image then [n] else []) ++ n.children.flatMap images := by
  rw [images, standings_eq, List.map_cons, List.filter_cons, filter_standingsBelow]
  by_cases h : n.type = .image <;> simp [h]

theorem images_addChildren {n : Node} (h : n.children?.isSome) (ns : List Node) :
    (n.addChildren ns).images = n.images ++ ns.flatMap images := by
  obtain ⟨cs, hcs⟩ := Option.isSome_iff_exists.1 h
  have himage : n.type ≠ .image := by
    intro ht
    cases n <;> simp_all [type, children?]
  have hchildren : (n.addChildren ns).children = n.children ++ ns := by
    simp [addChildren, children, children?_withChildren, hcs]
  rw [images_eq, images_eq n, type_addChildren, hchildren]
  simp [himage]

theorem images_close_addChildren {σ : Type} {outer : List (OpenNode σ)}
    (h : ∀ o ∈ outer, o.node.children?.isSome) {n : Node} (hn : n.children?.isSome)
    (ns : List Node) : (Context.close (n.addChildren ns) outer).images =
      (Context.close n outer).images ++ ns.flatMap images := by
  induction outer generalizing n ns with
  | nil => exact images_addChildren hn ns
  | cons o outer ih =>
    obtain ⟨ho, houter⟩ := List.forall_mem_cons.1 h
    have hstep (m : Node) : (Context.close m (o :: outer)).images =
        (Context.close o.node outer).images ++ m.images := by
      change (Context.close (o.node.addChildren [m]) outer).images = _
      rw [ih houter ho [m], List.flatMap_singleton]
    rw [hstep, hstep, images_addChildren hn, List.append_assoc]

end Node

/-- Runs of text have no images in them. -/
theorem images_content (depth : Nat) (ds : List Delta) :
    (nodesOfInlines (Delta.content depth ds)).flatMap Node.images = [] := by
  have hwrap {wrap : List Inline → Inline} {style : Option Bool} {n : Inline}
      (hw : ∀ cs, (wrap cs).toNode.images = (nodesOfInlines cs).flatMap Node.images)
      (hn : n.toNode.images = []) : (Delta.wrapIf style wrap n).toNode.images = [] := by
    unfold Delta.wrapIf
    split
    · rw [hw]
      simp [nodesOfInlines, hn]
    · exact hn
  have hstyled (d : Delta) : d.styled.toNode.images = [] := by
    unfold Delta.styled
    refine hwrap (fun cs => Node.images_eq _) (hwrap (fun cs => Node.images_eq _)
      (hwrap (fun cs => Node.images_eq _) ?_))
    split
    · rfl
    · split <;> rfl
  have hrun (d : Delta) : d.toInline.toNode.images = [] := by
    unfold Delta.toInline
    split
    · split
      · exact hstyled d
      · split
        · rfl
        · rw [Inline.toNode, Node.images_eq]
          simp [Node.type, Node.children, Node.children?, nodesOfInlines, hstyled]
    · exact hstyled d
  rw [nodesOfInlines_eq_map, List.flatMap_map, List.flatMap_eq_nil_iff]
  intro c hc
  unfold Delta.content at hc
  rcases List.mem_append.1 hc with hc | hc
  · split at hc
    · cases hc
    · rw [List.mem_singleton.1 hc]
      rfl
  · obtain ⟨d, -, rfl⟩ := List.mem_map.1 hc
    exact hrun d

theorem images_gridNode (g : Grid) : g.toNode.images = [] := by
  have hrow (row : List (Option String)) :
      (Node.tableRow (row.map fun t => .tableCell [.text t])).images = [] := by
    rw [Node.images_eq]
    change (row.map fun t => Node.tableCell [.text t]).flatMap Node.images = []
    rw [List.flatMap_map, List.flatMap_eq_nil_iff]
    exact fun t _ => rfl
  rw [Grid.toNode, Node.images_eq]
  change (g.map fun row => Node.tableRow (row.map fun t => .tableCell [.text t])).flatMap
    Node.images = []
  rw [List.flatMap_map, List.flatMap_eq_nil_iff]
  exact fun row _ => hrow row

end Markdown

theorem images_extend {c : WalkContext} (h : ∀ o ∈ c.stack, o.IsParent) (ns : List Node) :
    (c.extend ns).tree.images = c.tree.images ++ ns.flatMap Node.images := by
  obtain ⟨hc, ho⟩ := List.forall_mem_cons.1 h
  exact Node.images_close_addChildren ho hc ns

end PageExport
