import ScriptBoundary.Script.Heap

/-!
# What the collector finds

`Reachable h roots r` says that the cell `r` can be reached from one of the roots by following
links. `Heap.mark` computes that set. It keeps a table of the cells it has met and a list of cells
to look at; a cell is looked at when it is met for the first time, so the number of cells not yet
met goes down and the walk ends.
-/

namespace ScriptBoundary.Script

/-- The cells that can be reached from the roots. Addresses outside the heap are not cells. -/
inductive Reachable (h : Heap) (roots : List Ref) : Ref → Prop where
  | root {r : Ref} : r ∈ roots → r < h.cells.size → Reachable h roots r
  | link {r q : Ref} : Reachable h roots r → q ∈ h.links r → q < h.cells.size → Reachable h roots q

/-- The cells not met yet. -/
def unmet (met : Array Bool) : Nat := met.count false

theorem unmet_setIfInBounds_lt {met : Array Bool} {r : Nat} (h : met[r]? = some false) :
    unmet (met.setIfInBounds r true) < unmet met := by
  obtain ⟨hr, hf⟩ := Array.getElem?_eq_some_iff.mp h
  have hpos : 0 < met.count false := Array.count_pos_iff.mpr (hf ▸ Array.getElem_mem hr)
  unfold unmet
  rw [Array.setIfInBounds, dif_pos hr, Array.count_set, hf,
    if_pos (beq_self_eq_true false), if_neg (by decide)]
  omega

/-- Meets every cell that the work list leads to. -/
def markFrom (h : Heap) (met : Array Bool) (work : List Ref) : Array Bool :=
  match work with
  | [] => met
  | r :: rest =>
    match _hm : met[r]? with
    | some false => markFrom h (met.setIfInBounds r true) (h.links r ++ rest)
    | _ => markFrom h met rest
termination_by (unmet met, work.length)
decreasing_by
  · exact Prod.Lex.left _ _ (unmet_setIfInBounds_lt _hm)
  · exact Prod.Lex.right _ (by simp)

/-- A table that says of each cell whether it can be reached from the roots. -/
def Heap.mark (h : Heap) (roots : List Ref) : Array Bool :=
  markFrom h (Array.replicate h.cells.size false) roots

end ScriptBoundary.Script
