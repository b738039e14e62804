import CodeGraph.Proofs.Compiler.Lineage
import CodeGraph.Proofs.Tables
import Mathlib.Data.List.Induction

/-!
# The order in which a lineage is visited

The options of a file are meant to be those of the files that it extends, one over the other, with
its own on top: those of all files of its lineage, each one behind the files that it extends. A load
leaves out what it has seen. It leaves nothing out where no file is met twice, and in general it
keeps the first visit to each file.
-/

namespace CodeGraph

namespace CompilerOptions

/-! ## Options over options -/

/-- The own options of files laid over each other, those of later files on top. -/
def overlayAll (sheets : List Sheet) : MergedOptions :=
  sheets.foldl (fun merged sheet => merged.overlay sheet.own) []

theorem overlayAll_concat (sheets : List Sheet) (sheet : Sheet) :
    overlayAll (sheets ++ [sheet]) = (overlayAll sheets).overlay sheet.own := by
  simp [overlayAll]

theorem nodup_keys_overlayAll (sheets : List Sheet) :
    (Ordered.keys (overlayAll sheets)).Nodup := by
  refine List.foldlRecOn (motive := fun merged : MergedOptions => (Ordered.keys merged).Nodup)
    sheets _ List.nodup_nil ?_
  exact fun merged nodup sheet _ => Ordered.nodup_keys_setAll nodup

theorem overlay_overlayAll (merged : MergedOptions) (sheets : List Sheet) :
    merged.overlay (overlayAll sheets)
      = sheets.foldl (fun merged sheet => merged.overlay sheet.own) merged := by
  induction sheets using List.reverseRecOn with
  | nil => rfl
  | append_singleton sheets sheet ih =>
      rw [overlayAll_concat, List.foldl_append, ← ih]
      exact Ordered.setAll_setAll merged (nodup_keys_overlayAll sheets) sheet.own

theorem overlayAll_append (front back : List Sheet) :
    overlayAll (front ++ back) = (overlayAll front).overlay (overlayAll back) := by
  rw [overlay_overlayAll, overlayAll, List.foldl_append, overlayAll]

namespace Lineage

mutual

/-- What the options of a file are meant to be: those of the files that it extends, in order, and
its own on top. -/
def merged : Lineage → MergedOptions
  | file sheet parents => (mergedOver [] parents).overlay sheet.own

/-- The options of files over given ones. -/
def mergedOver (lower : MergedOptions) : List Lineage → MergedOptions
  | [] => lower
  | parent :: parents => mergedOver (lower.overlay (merged parent)) parents

end

mutual

/-- What the files say for themselves, each one behind the files that it extends. -/
def visits : Lineage → List Sheet
  | file sheet parents => visitsOfAll parents ++ [sheet]

/-- What the files of several lineages say for themselves. -/
def visitsOfAll : List Lineage → List Sheet
  | [] => []
  | parent :: parents => visits parent ++ visitsOfAll parents

end

mutual

/-- The visits of a load that leaves out the files which it has seen. -/
def loaded (seen : List Path) : Lineage → List Sheet
  | file sheet parents =>
      if sheet.resolved ∈ seen then []
      else loadedOfAll (sheet.resolved :: seen) parents ++ [sheet]

/-- The visits in several lineages of a load that leaves out the files which it has seen. -/
def loadedOfAll (seen : List Path) : List Lineage → List Sheet
  | [] => []
  | parent :: parents =>
      let front := loaded seen parent
      front ++ loadedOfAll (seen ++ front.map (·.resolved)) parents

end

mutual

theorem merged_eq : ∀ lineage : Lineage, lineage.merged = overlayAll lineage.visits
  | file sheet parents => by
      rw [merged, mergedOver_eq, visits, overlayAll_concat]
      rfl

theorem mergedOver_eq : ∀ (lower : MergedOptions) (parents : List Lineage),
    mergedOver lower parents
      = (visitsOfAll parents).foldl (fun merged sheet => merged.overlay sheet.own) lower
  | _, [] => rfl
  | lower, parent :: parents => by
      rw [mergedOver, mergedOver_eq, merged_eq parent, overlay_overlayAll, visitsOfAll,
        List.foldl_append]

end

theorem mergedOver_eq_foldl (lower : MergedOptions) (parents : List Lineage) :
    mergedOver lower parents = (parents.map merged).foldl MergedOptions.overlay lower := by
  induction parents generalizing lower with
  | nil => rfl
  | cons parent parents ih => exact ih _

end Lineage

/-! ## Files that are met once -/

/-- The places of files. -/
abbrev places (sheets : List Sheet) : List Path :=
  sheets.map (·.resolved)

namespace Lineage

mutual

/-- A load that meets only new files, and none of them twice, leaves nothing out. -/
theorem loaded_eq_visits : ∀ {lineage : Lineage} {seen : List Path},
    (places lineage.visits).Nodup → (places lineage.visits).Disjoint seen →
    lineage.loaded seen = lineage.visits
  | file sheet parents, seen, different, fresh => by
      simp only [visits, places, List.map_append, List.map_singleton] at different fresh
      obtain ⟨parents_different, _, apart⟩ := List.nodup_append.mp different
      obtain ⟨parents_fresh, sheet_fresh⟩ := List.disjoint_append_left.mp fresh
      have unseen : sheet.resolved ∉ seen := fun known => sheet_fresh List.mem_cons_self known
      have parents_apart : (places (visitsOfAll parents)).Disjoint (sheet.resolved :: seen) := by
        refine List.disjoint_cons_right.mpr ⟨fun present => ?_, parents_fresh⟩
        exact apart _ present _ List.mem_cons_self rfl
      rw [loaded, if_neg unseen, loadedOfAll_eq_visitsOfAll parents_different parents_apart,
        visits]

theorem loadedOfAll_eq_visitsOfAll : ∀ {parents : List Lineage} {seen : List Path},
    (places (visitsOfAll parents)).Nodup → (places (visitsOfAll parents)).Disjoint seen →
    loadedOfAll seen parents = visitsOfAll parents
  | [], _, _, _ => rfl
  | parent :: parents, seen, different, fresh => by
      simp only [visitsOfAll, places, List.map_append] at different fresh
      obtain ⟨first_different, rest_different, apart⟩ := List.nodup_append.mp different
      obtain ⟨first_fresh, rest_fresh⟩ := List.disjoint_append_left.mp fresh
      have rest_apart : (places (visitsOfAll parents)).Disjoint (seen ++ places parent.visits) := by
        refine List.disjoint_append_right.mpr ⟨rest_fresh, fun place rest_mem first_mem => ?_⟩
        exact apart place first_mem place rest_mem rfl
      rw [loadedOfAll, loaded_eq_visits first_different first_fresh,
        loadedOfAll_eq_visitsOfAll rest_different rest_apart, visitsOfAll]

end

end Lineage

/-! ## Files that are met again -/

/-- The files in order, without those that were seen before. -/
def keepFirst (seen : List Path) : List Sheet → List Sheet
  | [] => []
  | sheet :: sheets =>
      if sheet.resolved ∈ seen then keepFirst seen sheets
      else sheet :: keepFirst (seen ++ [sheet.resolved]) sheets

variable {seen seen' : List Path} {sheets front : List Sheet}

theorem keepFirst_congr (same : ∀ place ∈ places sheets, place ∈ seen ↔ place ∈ seen') :
    keepFirst seen sheets = keepFirst seen' sheets := by
  induction sheets generalizing seen seen' with
  | nil => rfl
  | cons sheet sheets ih =>
      obtain ⟨here, later⟩ := List.forall_mem_cons.mp same
      by_cases known : sheet.resolved ∈ seen
      · rw [keepFirst, keepFirst, if_pos known, if_pos (here.mp known), ih later]
      · rw [keepFirst, keepFirst, if_neg known, if_neg (mt here.mpr known)]
        refine congrArg (sheet :: ·) (ih fun place present => ?_)
        rw [List.mem_append, List.mem_append, later place present]

theorem keepFirst_append (seen : List Path) (front back : List Sheet) :
    keepFirst seen (front ++ back)
      = keepFirst seen front ++ keepFirst (seen ++ places (keepFirst seen front)) back := by
  induction front generalizing seen with
  | nil => simp [keepFirst]
  | cons sheet front ih =>
      rw [List.cons_append, keepFirst, keepFirst]
      split
      · exact ih seen
      · simp [ih]

theorem keepFirst_eq_nil (known : ∀ place ∈ places sheets, place ∈ seen) :
    keepFirst seen sheets = [] := by
  induction sheets with
  | nil => rfl
  | cons sheet sheets ih =>
      obtain ⟨here, later⟩ := List.forall_mem_cons.mp known
      rw [keepFirst, if_pos here, ih later]

theorem mem_seen_keepFirst (seen : List Path) (sheets : List Sheet) (place : Path) :
    place ∈ seen ++ places (keepFirst seen sheets) ↔ place ∈ seen ++ places sheets := by
  induction sheets generalizing seen with
  | nil => rfl
  | cons sheet sheets ih =>
      rw [keepFirst]
      split
      next known =>
        rw [ih seen]
        simp only [List.map_cons, List.mem_append, List.mem_cons]
        constructor
        · exact Or.imp id .inr
        · rintro (before | rfl | later)
          · exact .inl before
          · exact .inl known
          · exact .inr later
      next =>
        have later := ih (seen ++ [sheet.resolved])
        simpa [or_assoc] using later

namespace Lineage

mutual

/-- The file and the files below it, each one behind the files that it extends. -/
def nodes : Lineage → List Lineage
  | file sheet parents => nodesOfAll parents ++ [file sheet parents]

/-- The files of several lineages. -/
def nodesOfAll : List Lineage → List Lineage
  | [] => []
  | parent :: parents => nodes parent ++ nodesOfAll parents

end

mutual

theorem visits_eq : ∀ lineage : Lineage, lineage.visits = lineage.nodes.map sheet
  | file own parents => by
      rw [visits, nodes, visitsOfAll_eq, List.map_append]
      rfl

theorem visitsOfAll_eq : ∀ parents : List Lineage,
    visitsOfAll parents = (nodesOfAll parents).map sheet
  | [] => rfl
  | parent :: parents => by
      rw [visitsOfAll, nodesOfAll, visits_eq, visitsOfAll_eq, List.map_append]

end

/-- A place belongs to one file. -/
def OnePlace (nodes : List Lineage) : Prop :=
  ∀ first ∈ nodes, ∀ second ∈ nodes,
    first.sheet.resolved = second.sheet.resolved → first = second

theorem OnePlace.of_subset {nodes fewer : List Lineage} (one : OnePlace nodes)
    (subset : fewer ⊆ nodes) : OnePlace fewer := fun first first_mem second second_mem =>
  one first (subset first_mem) second (subset second_mem)

/-- With a file that was seen, all files below it were seen. -/
def SeenBelow (seen : List Path) (nodes : List Lineage) : Prop :=
  ∀ node ∈ nodes, node.sheet.resolved ∈ seen →
    ∀ place ∈ places node.visits, place ∈ seen

mutual

theorem nodes_subset : ∀ {lineage node : Lineage}, node ∈ lineage.nodes →
    node.nodes ⊆ lineage.nodes
  | file sheet parents, node, present => by
      rcases List.mem_append.mp present with below | here
      · exact fun other other_mem => List.mem_append_left _ (nodes_subset_of_all below other_mem)
      · rw [List.mem_singleton.mp here]
        exact fun _ present => present

theorem nodes_subset_of_all : ∀ {parents : List Lineage} {node : Lineage},
    node ∈ nodesOfAll parents → node.nodes ⊆ nodesOfAll parents
  | parent :: parents, node, present => by
      rcases List.mem_append.mp present with first | later
      · exact fun other other_mem => List.mem_append_left _ (nodes_subset first other_mem)
      · exact fun other other_mem => List.mem_append_right _ (nodes_subset_of_all later other_mem)

end

mutual

theorem height_le_of_mem : ∀ {lineage node : Lineage}, node ∈ lineage.nodes →
    node.height ≤ lineage.height
  | file sheet parents, node, present => by
      rcases List.mem_append.mp present with below | here
      · exact Nat.le_succ_of_le (height_le_of_mem_all below)
      · exact Nat.le_of_eq (congrArg height (List.mem_singleton.mp here))

theorem height_le_of_mem_all : ∀ {parents : List Lineage} {node : Lineage},
    node ∈ nodesOfAll parents → node.height ≤ heightOfAll parents
  | parent :: parents, node, present => by
      rcases List.mem_append.mp present with first | later
      · exact Nat.le_trans (height_le_of_mem first) (Nat.le_max_left ..)
      · exact Nat.le_trans (height_le_of_mem_all later) (Nat.le_max_right ..)

end

/-- A file is no file below itself. -/
theorem not_mem_nodesOfAll (sheet : Sheet) (parents : List Lineage) :
    file sheet parents ∉ nodesOfAll parents := fun present =>
  Nat.not_succ_le_self _ (height_le_of_mem_all present)

theorem mem_places_visits {lineage : Lineage} {place : Path} :
    place ∈ places lineage.visits ↔
      ∃ node ∈ lineage.nodes, node.sheet.resolved = place := by
  simp [visits_eq]

theorem mem_places_visitsOfAll {parents : List Lineage} {place : Path} :
    place ∈ places (visitsOfAll parents) ↔
      ∃ node ∈ nodesOfAll parents, node.sheet.resolved = place := by
  simp [visitsOfAll_eq]

-- The files that a load has seen are those that it is done with and those that it is at. With the
-- former it has seen all below them, and the latter are not met again below themselves.
mutual

theorem loaded_eq_keepFirst : ∀ {lineage : Lineage} {seen : List Path},
    OnePlace lineage.nodes → SeenBelow seen lineage.nodes →
    lineage.loaded seen = keepFirst seen lineage.visits
  | file sheet parents, seen, one, below => by
      have here : file sheet parents ∈ (file sheet parents).nodes := by simp [nodes]
      by_cases known : sheet.resolved ∈ seen
      · rw [loaded, if_pos known]
        exact (keepFirst_eq_nil (below _ here known)).symm
      · have inside : nodesOfAll parents ⊆ (file sheet parents).nodes :=
          List.subset_append_left _ _
        have apart : sheet.resolved ∉ places (visitsOfAll parents) := by
          intro present
          obtain ⟨node, node_mem, same⟩ := mem_places_visitsOfAll.mp present
          obtain rfl := one node (inside node_mem) _ here same
          exact not_mem_nodesOfAll sheet parents node_mem
        have parents_below : SeenBelow (sheet.resolved :: seen) (nodesOfAll parents) := by
          intro node node_mem seen_node place place_mem
          rcases List.mem_cons.mp seen_node with same | before
          · exact absurd (mem_places_visitsOfAll.mpr ⟨node, node_mem, same⟩) apart
          · exact List.mem_cons_of_mem _ (below node (inside node_mem) before place place_mem)
        have unmarked : keepFirst (sheet.resolved :: seen) (visitsOfAll parents)
            = keepFirst seen (visitsOfAll parents) := by
          refine keepFirst_congr fun place present => ?_
          have ne : place ≠ sheet.resolved := by
            rintro rfl
            exact apart present
          simp [ne]
        have new : sheet.resolved ∉ seen ++ places (keepFirst seen (visitsOfAll parents)) := by
          rw [mem_seen_keepFirst, List.mem_append, not_or]
          exact ⟨known, apart⟩
        rw [loaded, if_neg known, loadedOfAll_eq_keepFirst (one.of_subset inside) parents_below,
          unmarked, visits, keepFirst_append, keepFirst, if_neg new, keepFirst]

theorem loadedOfAll_eq_keepFirst : ∀ {parents : List Lineage} {seen : List Path},
    OnePlace (nodesOfAll parents) → SeenBelow seen (nodesOfAll parents) →
    loadedOfAll seen parents = keepFirst seen (visitsOfAll parents)
  | [], _, _, _ => rfl
  | parent :: parents, seen, one, below => by
      have first_inside : parent.nodes ⊆ nodesOfAll (parent :: parents) :=
        List.subset_append_left _ _
      have rest_inside : nodesOfAll parents ⊆ nodesOfAll (parent :: parents) :=
        List.subset_append_right _ _
      have first_below : SeenBelow seen parent.nodes := fun node node_mem =>
        below node (first_inside node_mem)
      have rest_below : SeenBelow (seen ++ places (keepFirst seen parent.visits))
          (nodesOfAll parents) := by
        intro node node_mem seen_node place place_mem
        rw [mem_seen_keepFirst] at seen_node ⊢
        rcases List.mem_append.mp seen_node with before | met
        · exact List.mem_append_left _ (below node (rest_inside node_mem) before place place_mem)
        · obtain ⟨other, other_mem, same⟩ := mem_places_visits.mp met
          obtain rfl := one other (first_inside other_mem) node (rest_inside node_mem) same
          obtain ⟨deeper, deeper_mem, same⟩ := mem_places_visits.mp place_mem
          refine List.mem_append_right _ (mem_places_visits.mpr ⟨deeper, ?_, same⟩)
          exact nodes_subset other_mem deeper_mem
      rw [loadedOfAll, loaded_eq_keepFirst (one.of_subset first_inside) first_below]
      rw [loadedOfAll_eq_keepFirst (one.of_subset rest_inside) rest_below, visitsOfAll,
        keepFirst_append]

end
end Lineage

end CompilerOptions

end CodeGraph
